import NucBios.Flash.Spi
import NucBios.Update.Manifest

/-!
# Where the regions are: the flash map and the flash descriptor

Two descriptions of the flash say where a region lies. The flash map (FMAP) is a table in the
image, found by its signature; the Intel descriptor is a page at the start of the flash with one
register a region. The updater reads both from the capsule's image and from the flash, and trusts
neither alone.

* `fmpDeviceFlashRangesOverlap_eq_false_iff`: what passes the check of two ranges shares no address.
* `findIntelDescriptorBiosRegion_iff_decode`: the firmware and the host's `ifd-layout.py` read the
  same BIOS region out of every descriptor, apart from three cases that only the firmware refuses.
-/

namespace NucBios.Update

open NucBios.Lib NucBios.Uefi

variable {σ : Type*}

/-! ### The flash map -/

/-- `FMAP_HEADER`, without `VerMinor`, which nothing reads.
Source: `FmpDeviceSmmLib.c` `FMAP_HEADER`
Kind: D -/
structure FmapHeader where
  signature : List UInt8
  verMajor : UInt8
  base : ℕ
  size : ℕ
  name : List UInt8
  areaCount : ℕ
  deriving DecidableEq, Repr

/-- `FMAP_AREA`, without `Flags`, which nothing reads.
Source: `FmpDeviceSmmLib.c` `FMAP_AREA`
Kind: D -/
structure FmapArea where
  offset : ℕ
  size : ℕ
  name : List UInt8
  deriving DecidableEq, Repr

/-- `sizeof (FMAP_HEADER)`, packed. Kind: D -/
def fmapHeaderSize : ℕ := 56

/-- `sizeof (FMAP_AREA)`, packed. Kind: D -/
def fmapAreaSize : ℕ := 42

/-- `FMAP_NAME_LEN`. Kind: D -/
def fmapNameLen : ℕ := 32

/-- `"__FMAP__"`. Kind: D -/
def fmapSignature : List UInt8 := ascii "__FMAP__"

/-- The header at `off` of a buffer. Kind: D -/
def fmapHeaderAt (buf : ℕ → UInt8) (off : ℕ) : FmapHeader where
  signature := cells buf off 8
  verMajor := buf (off + 8)
  base := (readLe32 buf (off + 10)).toNat + 2 ^ 32 * (readLe32 buf (off + 14)).toNat
  size := (readLe32 buf (off + 18)).toNat
  name := cells buf (off + 22) fmapNameLen
  areaCount := (readLe16 buf (off + 54)).toNat

/-- The area at `off` of a buffer. Kind: D -/
def fmapAreaAt (buf : ℕ → UInt8) (off : ℕ) : FmapArea where
  offset := (readLe32 buf off).toNat
  size := (readLe32 buf (off + 4)).toNat
  name := cells buf (off + 8) fmapNameLen

/-- A flash map as it is used: the base and the areas that follow the header. Kind: D -/
structure Fmap where
  base : ℕ
  areas : List FmapArea
  deriving DecidableEq, Repr

/-- The flash map whose header stands at `off`. Kind: D -/
def fmapAt (buf : ℕ → UInt8) (off : ℕ) : Fmap where
  base := (fmapHeaderAt buf off).base
  areas := (List.range (fmapHeaderAt buf off).areaCount).map fun i =>
    fmapAreaAt buf (off + fmapHeaderSize + i * fmapAreaSize)

/-- Calculate the byte size of a validated FMAP.
Source: `FmpDeviceSmmLib.c` `FmapSize`
Kind: D -/
def fmapSize (header : FmapHeader) : ℕ := fmapHeaderSize + header.areaCount * fmapAreaSize

/-- Validate an FMAP name as a printable, NUL-terminated string.
Source: `FmpDeviceSmmLib.c` `FmapNameIsValid`, `FmapIsGraph`
Kind: D -/
def fmapNameIsValid : List UInt8 → Bool
  | [] => false
  | c :: rest => if c = 0 then true else if !isGraph c then false else fmapNameIsValid rest

/-- The tests the search makes at one offset. Kind: D -/
def fmapHeaderIsValid (image : List UInt8) (off : ℕ) : Bool :=
  let header := fmapHeaderAt (pointer image) off
  header.signature == fmapSignature && header.verMajor == 1 && 1 ≤ header.areaCount &&
    fmapSize header ≤ header.size && fmapSize header ≤ image.length - off &&
    fmapNameIsValid header.name

/-- Locate an FMAP header within a memory buffer: its offset and the length of the map.
Source: `FmpDeviceSmmLib.c` `LocateFmapInImage`
Kind: D -/
def locateFmapInImage (image : List UInt8) : Option (ℕ × ℕ) :=
  if image.length < fmapHeaderSize then none
  else
    ((List.range (image.length - fmapHeaderSize + 1)).find?
        (fmapHeaderIsValid image)).map fun off =>
      (off, fmapSize (fmapHeaderAt (pointer image) off))

/-- Find an FMAP area by name. The name is a C string in both fields.
Source: `FmpDeviceSmmLib.c` `FindFmapRegion`
Kind: D -/
def findFmapRegion (fmap : Fmap) (name : List UInt8) : Except EfiStatus FlashRange :=
  match fmap.areas.find? fun area => cstr area.name = cstr name with
  | none => .error efiNotFound
  | some area =>
      if fmap.base > maxUintn ∨ area.offset > maxUintn - fmap.base then .error efiCompromisedData
      else .ok ⟨fmap.base + area.offset, area.size⟩

/-- The name `"FMAP"` of the area that holds the flash map. Kind: D -/
def fmapAreaName : List UInt8 := packEntry (ascii "FMAP")

/-- Load the current flash FMAP using the capsule's FMAP "FMAP" area as a hint. `allocated` says
whether `AllocatePool` succeeds.
Source: `FmpDeviceSmmLib.c` `LoadFlashFmap`
Kind: D -/
def loadFlashFmap (io : FlashIo σ) (blockSize flashSize : ℕ) (capsule : Fmap) (allocated : Bool)
    (s : σ) : Except EfiStatus Fmap × σ :=
  match findFmapRegion capsule fmapAreaName with
  | .error _ => (.error efiNotFound, s)
  | .ok area =>
      if area.size < fmapHeaderSize then (.error efiNotFound, s)
      else if !allocated then (.error efiOutOfResources, s)
      else
        match readFlashRange io blockSize flashSize area.offset area.size s with
        | (.error _, s') => (.error efiDeviceError, s')
        | (.ok buffer, s') =>
            match locateFmapInImage buffer with
            | none => (.error efiNotFound, s')
            | some (foundOffset, foundLength) =>
                if foundOffset > area.size ∨ foundLength > area.size - foundOffset then
                  (.error efiNotFound, s')
                else (.ok (fmapAt (pointer buffer) foundOffset), s')

/-! ### The descriptor -/

/-- Locate the BIOS region by parsing an Intel flash descriptor.
Source: `FmpDeviceSmmLib.c` `FindIntelDescriptorBiosRegion`, `ReadLe32`
Kind: D -/
def findIntelDescriptorBiosRegion (image : List UInt8) (flashSize : ℕ) : Option FlashRange :=
  if image.length < 0x14 + 4 then none
  else if readLe32 (pointer image) 0x10 ≠ 0x0FF0A55A then none
  else
    let flmap0 := readLe32 (pointer image) 0x14
    let frba := (flmap0 >>> 16 &&& 0xFF).toNat <<< 4
    let flregOffset := frba + 1 * 4
    if flregOffset + 4 > image.length then none
    else
      let flreg := readLe32 (pointer image) flregOffset
      let baseField := (flreg &&& 0x7FFF).toNat
      let limitField := (flreg >>> 16 &&& 0x7FFF).toNat
      if baseField = 0x7FFF ∨ limitField = 0 ∨ limitField < baseField then none
      else
        let regionBase := baseField * 0x1000
        let regionLimit := (limitField * 0x1000) ||| (0x1000 - 1)
        let regionSize := regionLimit - regionBase + 1
        if regionBase ≥ flashSize ∨ regionSize > flashSize - regionBase then none
        else some ⟨regionBase, regionSize⟩

/-- The extra test both descriptors must pass: the region is not empty and lies in the image.
Source: `FmpDeviceSmmLib.c` `FindBiosFallbackRegion`
Kind: D -/
def usableRegion (imageSize : ℕ) (region : FlashRange) : Bool :=
  region.size ≠ 0 && region.offset < imageSize && region.size ≤ imageSize - region.offset

/-- The BIOS region of a descriptor, if it can be used with the image. Kind: D -/
def usableBios (flashSize imageSize : ℕ) (descriptor : List UInt8) : Option FlashRange :=
  (findIntelDescriptorBiosRegion descriptor flashSize).filter (usableRegion imageSize)

/-- The live descriptor's region, unless the capsule has another one; else the capsule's. Kind: D -/
def chooseBios : (live capsule : Option FlashRange) → Option FlashRange
  | some l, some c => if l = c then some l else none
  | some l, none => some l
  | none, c => c

/-- The first block of the flash, if it can be read. Kind: D -/
def readLiveDescriptor (io : FlashIo σ) (blockSize flashSize : ℕ) (allocated : Bool) (s : σ) :
    Except EfiStatus (List UInt8) × σ :=
  if 0x14 + 4 ≤ min blockSize flashSize ∧ allocated = true then
    readFlashRange io blockSize flashSize 0 (min blockSize flashSize) s
  else (.error efiNotFound, s)

/-- Locate a BIOS-region fallback for scoped capsule flashing.
Source: `FmpDeviceSmmLib.c` `FindBiosFallbackRegion`
Kind: D -/
def findBiosFallbackRegion (io : FlashIo σ) (blockSize flashSize : ℕ) (image : List UInt8)
    (allocated : Bool) (s : σ) : Option FlashRange × σ :=
  let read := readLiveDescriptor io blockSize flashSize allocated s
  (chooseBios (read.1.toOption.bind (usableBios flashSize image.length))
    (usableBios flashSize image.length image), read.2)

/-- Check whether two flash ranges overlap or are malformed.
Source: `FmpDeviceSmmUpdatePolicy.c` `FmpDeviceFlashRangesOverlap`
Kind: D -/
def fmpDeviceFlashRangesOverlap (first second : FlashRange) : Bool :=
  if first.size = 0 ∨ second.size = 0 ∨ first.offset > maxUintn - first.size ∨
      second.offset > maxUintn - second.size then true
  else first.offset < second.offset + second.size && second.offset < first.offset + first.size

/-- Ranges of the flash do not overlap exactly when both are proper and no address is in both.
Kind: L -/
theorem fmpDeviceFlashRangesOverlap_eq_false_iff {first second : FlashRange} :
    fmpDeviceFlashRangesOverlap first second = false ↔
      (0 < first.size ∧ 0 < second.size ∧ first.offset + first.size ≤ maxUintn ∧
          second.offset + second.size ≤ maxUintn) ∧
        ∀ i ∈ first.addresses, i ∉ second.addresses := by
  have hdisjoint : (∀ i ∈ first.addresses, i ∉ second.addresses) ↔
      min (first.offset + first.size) (second.offset + second.size) ≤
        max first.offset second.offset := Set.disjoint_left.symm.trans Set.Ico_disjoint_Ico
  rw [hdisjoint]
  unfold fmpDeviceFlashRangesOverlap
  split
  · rename_i hbad
    simp only [Bool.true_eq_false, false_iff, not_and]
    intro h
    omega
  · rename_i hgood
    simp only [Bool.and_eq_false_iff, decide_eq_false_iff_not, not_lt]
    omega

/-! ### One descriptor, two readers -/

lemma mul_or_mask (n : ℕ) : (n * 0x1000) ||| (0x1000 - 1) = n * 0x1000 + 0xFFF := by
  have := Nat.two_pow_add_eq_or_of_lt (i := 12) (b := 0xFFF) (by decide) n
  rw [Nat.mul_comm n]
  exact this.symm

/-- A region register, decoded by the host: two page numbers. Kind: L -/
theorem regionOf_bounds (name : Flash.RegionName) (reg : UInt32) :
    (Flash.regionOf name reg).base = (reg &&& 0x7FFF).toNat * 0x1000 ∧
      (Flash.regionOf name reg).limit = (reg >>> 16 &&& 0x7FFF).toNat * 0x1000 + 0xFFF := by
  simp only [Flash.regionOf, Nat.shiftLeft_eq]
  exact ⟨trivial, mul_or_mask _⟩

/-- Where the region registers begin: in the first page. Kind: L -/
theorem frba_le (flmap0 : UInt32) : (flmap0 >>> 16 &&& 0xFF).toNat <<< 4 ≤ 0xFF0 := by
  rw [UInt32.toNat_and, Nat.shiftLeft_eq]
  have hle : (flmap0 >>> 16).toNat &&& (0xFF : UInt32).toNat ≤ 0xFF := Nat.and_le_right
  omega

/-- The registers are decoded under their own names. Kind: L -/
theorem name_ne_bios_of_mem {image : List UInt8} {frba : ℕ} {r : Flash.Region} :
    ∀ {names : List Flash.RegionName} {i : ℕ}, .bios ∉ names →
      r ∈ Flash.regionsFrom image frba i names → r.name ≠ .bios
  | [], _, _, h => absurd h List.not_mem_nil
  | name :: names, i, hno, h => by
      rw [List.mem_cons, not_or] at hno
      rw [Flash.regionsFrom] at h
      split at h
      · exact absurd h List.not_mem_nil
      · rcases List.mem_cons.mp h with rfl | h
        · exact fun heq => hno.1 heq.symm
        · exact name_ne_bios_of_mem hno.2 h

/-- The host decodes `r` as the BIOS region of the image. Kind: D -/
def DecodedBios (image : List UInt8) (r : Flash.Region) : Prop :=
  ∃ regions, Flash.decode image = .ok regions ∧ r ∈ regions ∧ r.name = .bios

/-- The host decodes one BIOS region out of a descriptor, from the second register. Kind: L -/
theorem decodedBios_iff {image : List UInt8} (hlen : 0x1000 ≤ image.length) {r : Flash.Region} :
    DecodedBios image r ↔ readLe32 (pointer image) 0x10 = 0x0FF0A55A ∧
      r = Flash.regionOf .bios (readLe32 (pointer image)
        ((readLe32 (pointer image) 0x14 >>> 16 &&& 0xFF).toNat <<< 4 + 1 * 4)) := by
  have hfrba := frba_le (readLe32 (pointer image) 0x14)
  unfold DecodedBios Flash.decode
  rw [if_neg (by omega)]
  dsimp only
  rw [Flash.flvalsigOffset, Flash.flvalsig]
  generalize (readLe32 (pointer image) 0x14 >>> 16 &&& 0xFF).toNat <<< 4 = frba at hfrba ⊢
  by_cases hsig : readLe32 (pointer image) 0x10 = 0x0FF0A55A
  · simp only [hsig, ne_eq, not_true_eq_false, if_false, Except.ok.injEq, exists_eq_left',
      true_and, Flash.regionNames]
    rw [Flash.regionsFrom, if_neg (by omega), Flash.regionsFrom, if_neg (by omega)]
    constructor
    · rintro ⟨hmem, hname⟩
      rcases List.mem_cons.mp hmem with rfl | hmem
      · cases hname
      rcases List.mem_cons.mp hmem with rfl | hmem
      · rfl
      · exact absurd hname (name_ne_bios_of_mem (by decide) hmem)
    · rintro rfl
      exact ⟨List.mem_cons_of_mem _ List.mem_cons_self, rfl⟩
  · simp [hsig]

/-- **One BIOS region for host and firmware.** Out of a dump of at least a page, the firmware takes
as the BIOS region exactly what `ifd-layout.py` decodes as such, if that region is in use, ends
inside the flash, and is neither the one that ends with page zero nor one that begins at the last
page number a register can hold.
Source: `FmpDeviceSmmLib.c` `FindIntelDescriptorBiosRegion`; `ifd-layout.py` `decode`
Kind: P -/
theorem findIntelDescriptorBiosRegion_iff_decode (image : List UInt8)
    (hlen : 0x1000 ≤ image.length) (flashSize : ℕ) (range : FlashRange) :
    findIntelDescriptorBiosRegion image flashSize = some range ↔
      ∃ r, DecodedBios image r ∧ r.used = true ∧ r.limit ≠ 0xFFF ∧ r.base ≠ 0x7FFF000 ∧
        r.limit < flashSize ∧ range = ⟨r.base, r.limit + 1 - r.base⟩ := by
  have hfrba := frba_le (readLe32 (pointer image) 0x14)
  simp only [decodedBios_iff hlen]
  unfold findIntelDescriptorBiosRegion
  dsimp only
  rw [if_neg (by omega)]
  generalize (readLe32 (pointer image) 0x14 >>> 16 &&& 0xFF).toNat <<< 4 = frba at hfrba ⊢
  by_cases hsig : readLe32 (pointer image) 0x10 = 0x0FF0A55A
  · rw [if_neg (not_not.mpr hsig), if_neg (by omega)]
    generalize readLe32 (pointer image) (frba + 1 * 4) = flreg
    obtain ⟨hbase, hlimit⟩ := regionOf_bounds .bios flreg
    rw [mul_or_mask]
    simp only [hsig, true_and, exists_eq_left, Flash.Region.used, hbase, hlimit,
      decide_eq_true_eq]
    generalize (flreg &&& 0x7FFF).toNat = baseField
    generalize (flreg >>> 16 &&& 0x7FFF).toNat = limitField
    split
    · rename_i hbad
      constructor
      · intro h
        cases h
      · rintro ⟨hused, hzero, hlast, -⟩
        omega
    · rename_i hgood
      split
      · rename_i houtside
        constructor
        · intro h
          cases h
        · rintro ⟨-, -, -, hinside, -⟩
          omega
      · rename_i hinside
        have hsize : limitField * 0x1000 + 0xFFF - baseField * 0x1000 + 1 =
            limitField * 0x1000 + 0xFFF + 1 - baseField * 0x1000 := by omega
        rw [hsize, Option.some.injEq, eq_comm]
        constructor
        · intro h
          exact ⟨by omega, by omega, by omega, by omega, h⟩
        · exact fun h => h.2.2.2.2
  · rw [if_pos hsig]
    constructor
    · intro h
      cases h
    · rintro ⟨r, ⟨hok, -⟩, -⟩
      exact absurd hok hsig

/-- The descriptor of a dump of the board. Kind: C -/
theorem findIntelDescriptorBiosRegion_iff_decode_sample :
    findIntelDescriptorBiosRegion Flash.sampleDump Flash.chipSize =
      some ⟨Flash.biosBase, 0x660000⟩ := by
  have hlen : 0x1000 ≤ Flash.sampleDump.length := by
    rw [Flash.length_sampleDump]
    decide
  refine (findIntelDescriptorBiosRegion_iff_decode _ hlen _ _).mpr
    ⟨⟨.bios, Flash.biosBase, Flash.biosLimit⟩,
      ⟨_, Flash.decode_sampleDescriptor hlen, by simp, rfl⟩, ?_⟩
  decide

end NucBios.Update
