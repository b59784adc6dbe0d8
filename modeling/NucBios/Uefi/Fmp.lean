import NucBios.Uefi.Base

/-!
# The platform's Firmware Management Protocol instance

Two drivers look the platform's firmware up among the installed FMP instances: the capsule
scanner (`GetFmpLastAttemptStatus`) and the Redfish inventory (`NucRedfishCollectFirmwareStatus`).
Both walk the handles in order, ask each for its descriptor, and stop at the first descriptor
they accept; `fmpWalk` is that walk, with the acceptance test as a parameter.

What the platform's own instance *holds* (`FmpImage`) is state of the firmware; what a walk
*answers* (`FmpWalk`) is a choice of the environment, made anew at every walk. An answer may fail
at any of the service calls. A handle that answers is a foreign one, and then its type is not the
platform's, or the platform's instance, and then it shows the image held, except that without its
controller state it shows the default record in place of the one held (`FmpImage.shown`).
-/

namespace NucBios.Uefi

/-- What an image descriptor says besides the image type: the fields of
`EFI_FIRMWARE_IMAGE_DESCRIPTOR` the two drivers read. A string pointer may be `NULL`.
Kind: D -/
structure FmpImage where
  imageIdName : Option (List UInt16)
  version : UInt32
  versionName : Option (List UInt16)
  lowestSupportedImageVersion : UInt32
  attributesSetting : UInt64
  lastAttemptVersion : UInt32
  lastAttemptStatus : UInt32
  deriving DecidableEq, Repr

/-- The last-attempt record: version, then status. Kind: D -/
def FmpImage.record (img : FmpImage) : UInt32 × UInt32 :=
  (img.lastAttemptVersion, img.lastAttemptStatus)

def lastAttemptStatusSuccess : UInt32 := 0

/-- What the instance shows of the image it holds. Where the controller-state variable is missing
or unreadable, the record is `DEFAULT_LASTATTEMPTVERSION` and `DEFAULT_LASTATTEMPTSTATUS`.
Source: `NucCapsuleOnDiskLib.c` file header, lines 57–66
Kind: D -/
def FmpImage.shown (img : FmpImage) (stateReadable : Bool) : FmpImage :=
  if stateReadable then img
  else { img with lastAttemptVersion := 0, lastAttemptStatus := lastAttemptStatusSuccess }

@[simp] theorem FmpImage.shown_true (img : FmpImage) : img.shown true = img := rfl

@[simp] theorem FmpImage.version_shown (img : FmpImage) (stateReadable : Bool) :
    (img.shown stateReadable).version = img.version := by
  cases stateReadable <;> rfl

@[simp] theorem FmpImage.versionName_shown (img : FmpImage) (stateReadable : Bool) :
    (img.shown stateReadable).versionName = img.versionName := by
  cases stateReadable <;> rfl

@[simp] theorem FmpImage.lastAttemptVersion_shown_false (img : FmpImage) :
    (img.shown false).lastAttemptVersion = 0 := rfl

/-- A descriptor: an image under its type. Kind: D -/
structure FmpDescriptor extends FmpImage where
  imageTypeId : Guid
  deriving DecidableEq, Repr

/-- The image type of the platform's single FMP instance, spelled once in each driver.
Source: `NucCapsuleOnDiskLib.c` `mNucCapsuleFmpImageTypeId`; `NucRedfishInventory.c`
`mNucRedfishFirmwareImageTypeId`
Kind: D -/
def nucFmpImageTypeId : Guid where
  data1 := 0xd25f89e1
  data2 := 0x94ec
  data3 := 0x4533
  data4 := [0x80, 0xb9, 0x7f, 0x88, 0x55, 0xce, 0x0a, 0x94]

/-- Which instance a handle carries. Kind: D -/
inductive FmpInstance where
  /-- The platform's own. -/
  | platform
  /-- Some other firmware's, of another image type. -/
  | foreign (d : FmpDescriptor) (other : d.imageTypeId ≠ nucFmpImageTypeId)

/-- One handle as one walk meets it: the answers of the service calls made on it. Kind: D -/
structure FmpHandle where
  handleProtocol : EfiStatus
  /-- The size query, `GetImageInfo` with `InfoSize = 0`. -/
  sizeQuery : EfiStatus
  allocated : Bool
  getImageInfo : EfiStatus
  descriptorVersion : UInt32
  descriptorCount : UInt8
  inst : FmpInstance
  /-- The platform's instance can read its controller-state variable. -/
  stateReadable : Bool

/-- One walk: `LocateHandleBuffer`, then the handles in its order. Kind: D -/
structure FmpWalk where
  located : EfiStatus
  handles : List FmpHandle

/-- The descriptor a handle shows while the platform's instance holds `img`. Kind: D -/
def FmpHandle.descriptor (h : FmpHandle) (img : FmpImage) : FmpDescriptor :=
  match h.inst with
  | .platform => ⟨img.shown h.stateReadable, nucFmpImageTypeId⟩
  | .foreign d _ => d

/-- No call on the handle failed and it has a descriptor.
Source: `NucCapsuleOnDiskLib.c` `GetFmpLastAttemptStatus`, the `continue`s and the first two
conjuncts of the match
Kind: D -/
def FmpHandle.answers (h : FmpHandle) : Bool :=
  !efiError h.handleProtocol && h.sizeQuery == efiBufferTooSmall && h.allocated &&
    !efiError h.getImageInfo && 0 < h.descriptorCount

/-- The walk of both drivers: the first handle that answers with the platform's image type and
passes `accept`, with the descriptor it shows.
Kind: D -/
def fmpWalk (accept : FmpHandle → Bool) (w : FmpWalk) (img : FmpImage) :
    Option (FmpHandle × FmpDescriptor) :=
  if efiError w.located then
    none
  else
    (w.handles.find? fun h =>
      h.answers && (h.descriptor img).imageTypeId == nucFmpImageTypeId && accept h).map
      fun h => (h, h.descriptor img)

/-- A walk that finds anything finds the platform's instance and what it shows of the image it
holds. Kind: L -/
theorem fmpWalk_eq_some {accept : FmpHandle → Bool} {w : FmpWalk} {img : FmpImage}
    {h : FmpHandle} {d : FmpDescriptor} (hw : fmpWalk accept w img = some (h, d)) :
    d = ⟨img.shown h.stateReadable, nucFmpImageTypeId⟩ ∧ accept h = true ∧ h ∈ w.handles := by
  unfold fmpWalk at hw
  split_ifs at hw
  rw [Option.map_eq_some_iff] at hw
  obtain ⟨h', hfind, heq⟩ := hw
  cases heq
  have hp := List.find?_some hfind
  simp only [Bool.and_eq_true, beq_iff_eq] at hp
  obtain ⟨⟨-, htype⟩, hacc⟩ := hp
  refine ⟨?_, hacc, List.mem_of_find?_eq_some hfind⟩
  unfold FmpHandle.descriptor at htype ⊢
  rcases hinst : h.inst with _ | ⟨d, other⟩
  · rfl
  · rw [hinst] at htype
    exact absurd htype other

/-- At which handle a walk finds the platform's instance does not depend on what the instance holds.
Kind: L -/
theorem fmpWalk_handle_congr (accept : FmpHandle → Bool) (w : FmpWalk) (img img' : FmpImage) :
    (fmpWalk accept w img).map Prod.fst = (fmpWalk accept w img').map Prod.fst := by
  have htype (h : FmpHandle) :
      (h.descriptor img).imageTypeId = (h.descriptor img').imageTypeId := by
    unfold FmpHandle.descriptor
    cases h.inst <;> rfl
  unfold fmpWalk
  split_ifs
  · rfl
  · simp only [Option.map_map, Function.comp_def, htype]

end NucBios.Uefi
