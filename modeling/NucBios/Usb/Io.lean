import NucBios.Uefi.Base

/-!
# What the USB drivers ask of `EFI_USB_IO_PROTOCOL`

Descriptors, bulk transfers, and the loop over an interface's endpoints that the EEM and the ACM
driver both have. A request that fails answers with its status.
-/

namespace NucBios.Usb

open Uefi

/-- The fields of `EFI_USB_INTERFACE_DESCRIPTOR` the drivers read. Kind: D -/
structure InterfaceDescriptor where
  interfaceNumber : UInt8
  numEndpoints : UInt8
  interfaceClass : UInt8
  interfaceSubClass : UInt8
  deriving DecidableEq, Repr

/-- The fields of `EFI_USB_ENDPOINT_DESCRIPTOR` the drivers read. Kind: D -/
structure EndpointDescriptor where
  endpointAddress : UInt8
  attributes : UInt8
  maxPacketSize : UInt16
  deriving DecidableEq, Repr

def usbEndpointBulk : UInt8 := 0x02
def usbEndpointTypeMask : UInt8 := 0x03
def usbEndpointDirIn : UInt8 := 0x80

/-- The bulk endpoints among those of an interface, in order; one whose descriptor cannot be read is
passed over.
Source: `UsbEemFunction.c` `GetEndpoint`, `UsbCdcAcmDxe.c` `ResolveBulkEndpoints`
Kind: D -/
def bulkEndpoints (numEndpoints : UInt8) (endpoint : ℕ → Except EfiStatus EndpointDescriptor) :
    List EndpointDescriptor :=
  (List.range numEndpoints.toNat).filterMap fun i =>
    match endpoint i with
    | .error _ => none
    | .ok e => if e.attributes &&& usbEndpointTypeMask = usbEndpointBulk then some e else none

/-- The endpoint moves data towards the host. Kind: D -/
def EndpointDescriptor.isIn (e : EndpointDescriptor) : Bool :=
  e.endpointAddress &&& usbEndpointDirIn != 0

/-- A bulk IN transfer of at most `max` octets: its status, and the octets it put into the buffer.
Kind: D -/
structure BulkAnswer (max : ℕ) where
  status : EfiStatus
  data : List UInt8
  length_le : data.length ≤ max

end NucBios.Usb
