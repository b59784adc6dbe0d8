import NucBios.Uefi.Base

/-!
# Device paths and boot options

A device path is the list of its nodes before the end node; of a node most drivers look at the type
and the sub-type only (`DevicePathNode`), some at its octets too (`PathNode`). The constants are
those of `DevicePath.h` that the sources name.
-/

namespace NucBios.Uefi

/-- A device path node. Kind: D -/
structure DevicePathNode where
  type : UInt8
  subType : UInt8
  deriving DecidableEq, Repr

/-- A device path node with what follows its header. Kind: D -/
structure PathNode extends DevicePathNode where
  data : List UInt8
  deriving DecidableEq, Repr

/-- The node as it lies in memory, the length of four and more in the two octets after the type.
Kind: D -/
def PathNode.octets (n : PathNode) : List UInt8 :=
  let length := UInt16.ofNat (4 + n.data.length)
  [n.type, n.subType, length.toUInt8, (length >>> 8).toUInt8] ++ n.data

/-- A path as it lies in memory, up to its end node. Kind: D -/
def pathOctets (path : List PathNode) : List UInt8 := path.flatMap PathNode.octets

/-- The end node of a path. Kind: D -/
def endNodeOctets : List UInt8 := [0x7F, 0xFF, 0x04, 0x00]

def messagingDevicePath : UInt8 := 0x03
def mediaDevicePath : UInt8 := 0x04

def msgAtapiDp : UInt8 := 0x01
def msgScsiDp : UInt8 := 0x02
def msgUsbDp : UInt8 := 0x05
def msgMacAddrDp : UInt8 := 0x0B
def msgIpv4Dp : UInt8 := 0x0C
def msgSataDp : UInt8 := 0x12
def msgNvmeNamespaceDp : UInt8 := 0x17
def msgUfsDp : UInt8 := 0x19
def msgSdDp : UInt8 := 0x1A
def msgEmmcDp : UInt8 := 0x1D
def mediaHarddriveDp : UInt8 := 0x01

def loadOptionCategory : UInt32 := 0x00001F00
def loadOptionCategoryApp : UInt32 := 0x00000100

/-- The fields of `EFI_BOOT_MANAGER_LOAD_OPTION` the drivers act on; the file path may be `NULL`.
Kind: D -/
structure LoadOption where
  optionNumber : UInt16
  attributes : UInt32
  filePath : Option (List DevicePathNode)
  deriving DecidableEq, Repr

end NucBios.Uefi
