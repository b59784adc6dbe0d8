import NucBios.Board.Start
import NucBios.Boot.NicClassifiers
import NucBios.Capsule.Convergence
import NucBios.Capsule.Passes
import NucBios.Capsule.VersionGate
import NucBios.Ethernet.Collection
import NucBios.Ethernet.RoundTrip
import NucBios.Flash.Spi
import NucBios.Recipe.CertSwap
import NucBios.Recipe.RefcodePatch
import NucBios.Redfish.FirmwareBody
import NucBios.Redfish.Identity
import NucBios.Redfish.SmbiosStrings
import NucBios.Setup.Config
import NucBios.Setup.Defaults
import NucBios.Setup.Table
import NucBios.Update.Recovery
import NucBios.Usb.AcmLifecycle
import NucBios.Usb.EemTransmit
import NucBios.Usb.EemWalk
