import Mathlib.Data.List.DropRight
import NucBios.Flash.Descriptor
import NucBios.Lib.Outcome

/-!
# `nuc-spi.sh`: one image, two ways to the chip

`merge` writes a full-chip image into a file, the stock dump with the BIOS region of the ROM;
`flash` has `flashrom` write that region of the ROM over the chip. Both go through the same gates:
the sizes, the bounds in the dump's own descriptor, and what stands in the ROM below them. The
bounds travel as text, from `ifd-layout.py` through `awk` and `read` to Python on the one way,
through a layout file to `flashrom` on the other.

Of `flashrom` it is assumed that with `-l layout -i bios` it replaces exactly the octets of the
range on the layout's `bios` line.

* `biosBounds_eq_some`: both ways read the bounds of the descriptor.
* `sliceAssign_eq_writeRange`: replacing a slice of the file is replacing the range on the chip.
* `merge_eq_flash`: what `merge` writes is what is on the chip after `flash`; it has the dump's
  descriptor, and as a ROM it is accepted and merged to itself.
-/

namespace NucBios.Flash

open Lib Uefi

/-! ### The script -/

/-- `CHIP_SIZE`, 8 MiB. Kind: D -/
def chipSize : ℕ := 8388608

/-- `EXPECT_BIOS`. Kind: D -/
def expectBios : Line := ascii "0x1a0000:0x7fffff"

/-- Why the script ends before it writes. Kind: D -/
inductive Refusal where
  | notFullChip (length : ℕ)
  /-- `read` found no line to read. -/
  | noBounds
  | foreignRegions (base : ℕ)
  | notBootable
  | aborted
  /-- `flashrom` found no such region in the layout. -/
  | noRegion
  /-- The `ValueError` of a bound that is not a number. -/
  | badNumber
  deriving DecidableEq, Repr

/-- Source: `nuc-spi.sh` `require_size`
Kind: D -/
def requireSize (file : List UInt8) : Except Refusal Unit :=
  if file.length = chipSize then .ok () else .error (.notFullChip file.length)

/-- The `awk` program: what it prints for a line. Kind: D -/
def awkBios (line : Line) : Option Line :=
  if (fields line).getD 1 [] = ascii "bios" then
    let a := ((fields line).getD 0 []).splitOn 0x3A
    some (ascii "0x" ++ a.getD 0 [] ++ 0x20 :: (ascii "0x" ++ a.getD 1 []))
  else none

/-- The two words `read -r base limit` takes from the first line.
Source: `nuc-spi.sh` `bios_bounds`
Kind: D -/
def biosBounds (dump : List UInt8) : Option (Line × Line) :=
  match layout (some expectBios) dump with
  | .error _ => none
  | .ok lines =>
      match lines.filterMap awkBios with
      | [] => none
      | line :: _ => some ((fields line).getD 0 [], (fields line).getD 1 [])

/-- `head.strip (b'\xff')`. Kind: D -/
def stripErased (head : List UInt8) : List UInt8 :=
  (head.dropWhile (· = 0xFF)).rdropWhile (· = 0xFF)

/-- Below the BIOS region the ROM is erased, or the same as the dump.
Source: `nuc-spi.sh` `require_bios_region_only`
Kind: D -/
def requireBiosRegionOnly (rom : List UInt8) (base : Line) (ref : List UInt8) :
    Except Refusal Unit :=
  match int0 base with
  | none => .error .badNumber
  | some base =>
      let head := rom.take base
      if stripErased head = [] then .ok ()
      else if head = ref.take base then .ok ()
      else .error (.foreignRegions base)

/-- `s[base:limit + 1] = c[base:limit + 1]`. Kind: D -/
def sliceAssign (s c : List UInt8) (base limit : ℕ) : List UInt8 :=
  s.take base ++ (c.drop base).take (limit + 1 - base) ++ s.drop (limit + 1)

/-- The image written.
Source: `nuc-spi.sh` `cmd_merge`
Kind: D -/
def cmdMerge (stock rom : List UInt8) : Except Refusal (List UInt8) := do
  requireSize stock
  requireSize rom
  match biosBounds stock with
  | none => .error .noBounds
  | some (base, limit) =>
      requireBiosRegionOnly rom base stock
      match int0 base, int0 limit with
      | some base, some limit => .ok (sliceAssign stock rom base limit)
      | _, _ => .error .badNumber

/-- The range a line of a layout gives a region. Kind: D -/
def flashromRange (region : Line) (line : Line) : Option (ℕ × ℕ) :=
  match fields line with
  | [range, name] =>
      match range.splitOn 0x3A with
      | [base, limit] =>
          if name = region then
            (hexNumber base).bind fun b => (hexNumber limit).map fun l => (b, l)
          else none
      | _ => none
  | _ => none

/-- The chip after its octets from `base` to `limit` were replaced. Kind: D -/
def writeRange (chip rom : List UInt8) (base limit : ℕ) : List UInt8 :=
  chip.mapIdx fun i old => if base ≤ i ∧ i ≤ limit then rom.getD i old else old

/-- `flashrom -l layout -i region -w rom`. Kind: D -/
def flashrom (lines : List Line) (region : Line) (rom chip : List UInt8) :
    Except Refusal (List UInt8) :=
  match lines.filterMap (flashromRange region) with
  | [] => .error .noRegion
  | (base, limit) :: _ => .ok (writeRange chip rom base limit)

/-- What `cmd_flash` meets besides its two files. Kind: D -/
structure FlashSession where
  /-- `${ROM}.NOT-BOOTABLE` exists. -/
  notBootable : Bool
  /-- What is typed. -/
  answer : Line

/-- The chip after it.
Source: `nuc-spi.sh` `cmd_flash`
Kind: D -/
def cmdFlash (session : FlashSession) (stock rom chip : List UInt8) :
    Except Refusal (List UInt8) :=
  if session.notBootable then .error .notBootable
  else do
    requireSize rom
    requireSize stock
    match biosBounds stock with
    | none => .error .noBounds
    | some (base, _) =>
        requireBiosRegionOnly rom base stock
        match layout none stock with
        | .error _ => .error .noBounds
        | .ok lines =>
            if session.answer ≠ ascii "YES" then .error .aborted
            else flashrom lines (ascii "bios") rom chip

/-! ### The bounds, read twice -/

lemma awkBios_layoutLine (r : Region) :
    awkBios (layoutLine r) = if r.name = .bios then
      some (ascii "0x" ++ hex08 r.base ++ 0x20 :: (ascii "0x" ++ hex08 r.limit))
    else none := by
  rw [awkBios, fields_layoutLine]
  simp only [List.getD_cons_succ, List.getD_cons_zero, range_text, text_eq_bios_iff]

lemma flashromRange_layoutLine {r : Region}
    (h : r.name = .bios → r.base < 16 ^ 8 ∧ r.limit < 16 ^ 8) :
    flashromRange (ascii "bios") (layoutLine r) =
      if r.name = .bios then some (r.base, r.limit) else none := by
  rw [flashromRange, fields_layoutLine]
  simp only [range_text, text_eq_bios_iff]
  by_cases hname : r.name = .bios
  · rw [if_pos hname, if_pos hname, hexNumber_hexadecimal (h hname).1,
      hexNumber_hexadecimal (h hname).2]
    rfl
  · rw [if_neg hname, if_neg hname]

/-- The bounds of `EXPECT_BIOS`. Kind: D -/
def biosBase : ℕ := 0x1A0000

@[inherit_doc biosBase]
def biosLimit : ℕ := 0x7FFFFF

lemma bounds_expectBios : (expectBios.splitOn 0x3A).map int0 = [some biosBase, some biosLimit] := by
  decide +kernel

/-- What the two readers of a layout make of it. Kind: L -/
theorem layout_bounds {dump : List UInt8} {lines : List Line}
    (h : layout (some expectBios) dump = .ok lines) :
    layout none dump = .ok lines ∧
      lines.filterMap awkBios = [ascii "0x001a0000 0x007fffff"] ∧
      lines.filterMap (flashromRange (ascii "bios")) = [(biosBase, biosLimit)] := by
  obtain ⟨hnone, sorted, rfl, hbios⟩ := layout_eq_ok bounds_expectBios h
  refine ⟨hnone, ?_, ?_⟩
  · rw [filterMap_layoutLine fun r _ => awkBios_layoutLine r, hbios]
    decide +kernel
  · have hsmall : ∀ r ∈ sorted, r.name = .bios → r.base < 16 ^ 8 ∧ r.limit < 16 ^ 8 := by
      intro r hr hname
      have hmem : r ∈ sorted.filter (·.name = .bios) :=
        List.mem_filter.mpr ⟨hr, by simpa using hname⟩
      rw [hbios, List.mem_singleton] at hmem
      rw [hmem]
      decide
    rw [filterMap_layoutLine fun r hr => flashromRange_layoutLine (hsmall r hr), hbios]
    rfl

/-- Both ways read the same bounds: `read` gets two words that Python takes for them, and `flashrom`
finds them in the layout. Kind: L -/
theorem biosBounds_eq_some {dump : List UInt8} {base limit : Line}
    (h : biosBounds dump = some (base, limit)) :
    int0 base = some biosBase ∧ int0 limit = some biosLimit ∧
      ∃ lines, layout none dump = .ok lines ∧
        lines.filterMap (flashromRange (ascii "bios")) = [(biosBase, biosLimit)] := by
  unfold biosBounds at h
  rcases hlayout : layout (some expectBios) dump with e | lines
  · rw [hlayout] at h
    cases h
  · obtain ⟨hnone, hawk, hrange⟩ := layout_bounds hlayout
    rw [hlayout] at h
    simp only [hawk, Option.some.injEq, Prod.mk.injEq] at h
    obtain ⟨rfl, rfl⟩ := h
    exact ⟨by decide +kernel, by decide +kernel, lines, hnone, hrange⟩

/-! ### The two writes -/

lemma length_sliceAssign {s rom : List UInt8} {base limit : ℕ} (hrom : rom.length = s.length)
    (hbase : base ≤ limit + 1) (hlimit : limit + 1 ≤ s.length) :
    (sliceAssign s rom base limit).length = s.length := by
  simp only [sliceAssign, List.length_append, List.length_take, List.length_drop]
  omega

/-- Octet by octet. Kind: L -/
theorem getElem?_sliceAssign {s rom : List UInt8} {base limit : ℕ} (hrom : rom.length = s.length)
    (hbase : base ≤ limit + 1) (hlimit : limit + 1 ≤ s.length) (i : ℕ) :
    (sliceAssign s rom base limit)[i]? = if base ≤ i ∧ i ≤ limit then rom[i]? else s[i]? := by
  have hhead : (s.take base).length = base := by
    rw [List.length_take]
    omega
  have hmiddle : ((rom.drop base).take (limit + 1 - base)).length = limit + 1 - base := by
    rw [List.length_take, List.length_drop]
    omega
  rw [sliceAssign, List.append_assoc]
  by_cases hlow : i < base
  · rw [if_neg (by omega), List.getElem?_append_left (by omega), List.getElem?_take_of_lt hlow]
  · rw [List.getElem?_append_right (by omega), hhead]
    by_cases hin : i ≤ limit
    · rw [if_pos ⟨by omega, hin⟩, List.getElem?_append_left (by omega),
        List.getElem?_take_of_lt (by omega), List.getElem?_drop]
      congr 1
      omega
    · rw [if_neg (by omega), List.getElem?_append_right (by omega), hmiddle, List.getElem?_drop]
      congr 1
      omega

/-- Replacing a slice of the file is replacing the range on the chip. Kind: L -/
theorem sliceAssign_eq_writeRange {s rom : List UInt8} {base limit : ℕ}
    (hrom : rom.length = s.length) (hbase : base ≤ limit + 1) (hlimit : limit + 1 ≤ s.length) :
    sliceAssign s rom base limit = writeRange s rom base limit := by
  refine List.ext_getElem? fun i => ?_
  rw [getElem?_sliceAssign hrom hbase hlimit, writeRange, List.getElem?_mapIdx]
  by_cases hi : i < s.length
  · have hi' : i < rom.length := by omega
    rw [List.getElem?_eq_getElem hi, Option.map_some, List.getD_eq_getElem?_getD,
      List.getElem?_eq_getElem hi', Option.getD_some]
    split_ifs <;> rfl
  · rw [List.getElem?_eq_none (by omega : rom.length ≤ i),
      List.getElem?_eq_none (by omega : s.length ≤ i)]
    split_ifs <;> rfl

/-! ### The gates -/

/-- What the gates of both commands let through. Kind: D -/
structure Accepted (stock rom : List UInt8) : Prop where
  stock_length : stock.length = chipSize
  rom_length : rom.length = chipSize
  /-- The dump has a descriptor, with the bounds expected. -/
  bounds : (biosBounds stock).isSome = true
  head : stripErased (rom.take biosBase) = [] ∨ rom.take biosBase = stock.take biosBase

lemma requireBiosRegionOnly_eq {rom ref : List UInt8} {base : Line}
    (h : int0 base = some biosBase) :
    requireBiosRegionOnly rom base ref =
      if stripErased (rom.take biosBase) = [] ∨ rom.take biosBase = ref.take biosBase then .ok ()
      else .error (.foreignRegions biosBase) := by
  rw [requireBiosRegionOnly, h]
  simp only
  by_cases herased : stripErased (rom.take biosBase) = []
  · rw [if_pos herased, if_pos (.inl herased)]
  · by_cases hsame : rom.take biosBase = ref.take biosBase
    · rw [if_neg herased, if_pos hsame, if_pos (.inr hsame)]
    · rw [if_neg herased, if_neg hsame, if_neg (not_or.mpr ⟨herased, hsame⟩)]

lemma requireSize_eq_ok {file : List UInt8} :
    requireSize file = .ok () ↔ file.length = chipSize := by
  unfold requireSize
  split_ifs with h
  · exact iff_of_true rfl h
  · exact iff_of_false (fun heq => by cases heq) h

/-- The gates, one after the other. Kind: L -/
theorem accepted_iff {stock rom : List UInt8} :
    Accepted stock rom ↔ requireSize stock = .ok () ∧ requireSize rom = .ok () ∧
      ∃ base limit, biosBounds stock = some (base, limit) ∧
        requireBiosRegionOnly rom base stock = .ok () := by
  rw [requireSize_eq_ok, requireSize_eq_ok]
  constructor
  · rintro ⟨hstock, hrom, hbounds, hhead⟩
    obtain ⟨⟨base, limit⟩, hbounds⟩ := Option.isSome_iff_exists.mp hbounds
    refine ⟨hstock, hrom, base, limit, hbounds, ?_⟩
    rw [requireBiosRegionOnly_eq (biosBounds_eq_some hbounds).1, if_pos hhead]
  · rintro ⟨hstock, hrom, base, limit, hbounds, hgate⟩
    refine ⟨hstock, hrom, by rw [hbounds]; rfl, ?_⟩
    rw [requireBiosRegionOnly_eq (biosBounds_eq_some hbounds).1] at hgate
    by_contra hhead
    rw [if_neg hhead] at hgate
    cases hgate

/-- `merge` writes when the gates let it, and then the slice. Kind: L -/
theorem cmdMerge_eq_ok {stock rom image : List UInt8} :
    cmdMerge stock rom = .ok image ↔
      Accepted stock rom ∧ image = sliceAssign stock rom biosBase biosLimit := by
  rw [accepted_iff, cmdMerge]
  rcases hbounds : biosBounds stock with _ | ⟨base, limit⟩
  · simp [bind_eq_ok]
  · obtain ⟨hbase, hlimit, -⟩ := biosBounds_eq_some hbounds
    constructor
    · intro h
      simp only [bind_eq_ok, hbase, hlimit] at h
      obtain ⟨_, hstock, _, hrom, _, hgate, himage⟩ := h
      cases himage
      exact ⟨⟨hstock, hrom, base, limit, rfl, hgate⟩, rfl⟩
    · rintro ⟨⟨hstock, hrom, _, _, ⟨⟩, hgate⟩, rfl⟩
      simp only [hstock, hrom, hgate, hbase, hlimit]
      rfl

/-- `flash` writes when the gates let it, and then the range. Kind: L -/
theorem cmdFlash_eq_ok {stock rom chip image : List UInt8} :
    cmdFlash ⟨false, ascii "YES"⟩ stock rom chip = .ok image ↔
      Accepted stock rom ∧ image = writeRange chip rom biosBase biosLimit := by
  have hsession : ¬ ((FlashSession.mk false (ascii "YES")).notBootable = true) := Bool.false_ne_true
  rw [accepted_iff, cmdFlash, if_neg hsession]
  rcases hbounds : biosBounds stock with _ | ⟨base, limit⟩
  · simp [bind_eq_ok]
  · obtain ⟨-, -, lines, hlayout, hrange⟩ := biosBounds_eq_some hbounds
    constructor
    · intro h
      simp only [bind_eq_ok, hlayout, flashrom, hrange, ne_eq, not_true_eq_false, if_false] at h
      obtain ⟨_, hrom, _, hstock, _, hgate, himage⟩ := h
      cases himage
      exact ⟨⟨hstock, hrom, base, limit, rfl, hgate⟩, rfl⟩
    · rintro ⟨⟨hstock, hrom, _, _, ⟨⟩, hgate⟩, rfl⟩
      simp only [hstock, hrom, hgate, hlayout, flashrom, hrange]
      rfl

/-! ### The image -/

/-- What the merged image is. Kind: D -/
structure MergedImage (stock rom image : List UInt8) : Prop where
  /-- It is on the chip after `flash`, if the chip held the dump before. -/
  flashed : cmdFlash ⟨false, ascii "YES"⟩ stock rom stock = .ok image
  outside : ∀ i : ℕ, ¬ (biosBase ≤ i ∧ i ≤ biosLimit) → image[i]? = stock[i]?
  decode_eq : decode image = decode stock
  /-- As a ROM it is accepted against the dump, and merged to itself. -/
  again : cmdMerge stock image = .ok image

/-- **The merged image is the flashed chip.** For every dump and ROM that the gates let through, the
file `merge` writes is what the chip holds after `flash` wrote the ROM over the dump. It differs
from the dump in the BIOS region only, has the same descriptor, and used as the ROM it is accepted
and merged to itself.
Source: `nuc-spi.sh` `cmd_merge`, `cmd_flash`, `ifd-layout.py`
Kind: P -/
theorem merge_eq_flash (stock rom image : List UInt8) (h : cmdMerge stock rom = .ok image) :
    MergedImage stock rom image := by
  obtain ⟨haccepted, rfl⟩ := cmdMerge_eq_ok.mp h
  have hlength : rom.length = stock.length :=
    haccepted.rom_length.trans haccepted.stock_length.symm
  have hbase : biosBase ≤ biosLimit + 1 := by decide
  have hlimit : biosLimit + 1 ≤ stock.length := by
    rw [haccepted.stock_length]
    decide
  set image := sliceAssign stock rom biosBase biosLimit with himage
  have hget : ∀ i : ℕ, image[i]? = if biosBase ≤ i ∧ i ≤ biosLimit then rom[i]? else stock[i]? :=
    getElem?_sliceAssign hlength hbase hlimit
  have hsame : image.length = stock.length := length_sliceAssign hlength hbase hlimit
  have hbelow : ∀ i < biosBase, image[i]? = stock[i]? := by
    intro i hi
    rw [hget, if_neg (by omega)]
  have hhead : image.take biosBase = stock.take biosBase := by
    refine List.ext_getElem? fun i => ?_
    rw [List.getElem?_take, List.getElem?_take]
    split_ifs with hi
    · exact hbelow i hi
    · rfl
  constructor
  · refine cmdFlash_eq_ok.mpr ⟨haccepted, ?_⟩
    rw [himage, sliceAssign_eq_writeRange hlength hbase hlimit]
  · intro i hi
    rw [hget, if_neg hi]
  · refine decode_congr hsame fun k hk => ?_
    rw [pointer, pointer, List.getD_eq_getElem?_getD, List.getD_eq_getElem?_getD,
      hbelow k (hk.trans_le (by decide))]
  · refine cmdMerge_eq_ok.mpr ⟨⟨haccepted.stock_length, ?_, haccepted.bounds, .inr hhead⟩, ?_⟩
    · rw [hsame, haccepted.stock_length]
    · -- a second merge takes the region from where the first one put it
      refine List.ext_getElem? fun i => ?_
      rw [getElem?_sliceAssign hsame hbase hlimit, hget]
      split_ifs <;> rfl

/-! ### A dump and a ROM -/

/-- A descriptor with its signature, the registers at 0x40, and regions as on the board: the
descriptor, BIOS, ME and GbE; no platform data. Kind: D -/
def sampleDescriptor : List UInt8 :=
  List.replicate 16 0xFF ++ [0x5A, 0xA5, 0xF0, 0x0F, 0x00, 0x00, 0x04, 0x00] ++
    List.replicate 40 0x00 ++
    [0x00, 0x00, 0x00, 0x00, 0xA0, 0x01, 0xFF, 0x07, 0x03, 0x00, 0x9F, 0x01, 0x01, 0x00, 0x02, 0x00,
      0xFF, 0x7F, 0x00, 0x00]

/-- Whatever follows it, the descriptor is decoded. Kind: L -/
theorem decode_sampleDescriptor {rest : List UInt8}
    (h : 0x1000 ≤ (sampleDescriptor ++ rest).length) :
    decode (sampleDescriptor ++ rest) =
      .ok [⟨.fd, 0, 0xFFF⟩, ⟨.bios, biosBase, biosLimit⟩, ⟨.me, 0x3000, 0x19FFFF⟩,
        ⟨.gbe, 0x1000, 0x2FFF⟩, ⟨.pd, 0x7FFF000, 0xFFF⟩] := by
  have hword : ∀ off ≤ 80, readLe32 (pointer (sampleDescriptor ++ rest)) off =
      readLe32 (pointer sampleDescriptor) off := by
    intro off hoff
    refine readLe32_congr fun i hi => pointer_append_of_lt ?_
    rw [show sampleDescriptor.length = 84 by decide]
    omega
  have hfrba : (readLe32 (pointer (sampleDescriptor ++ rest)) 0x14 >>> 16 &&& 0xFF).toNat <<< 4 =
      0x40 := by
    rw [hword 0x14 (by decide)]
    decide +kernel
  have hsig : readLe32 (pointer (sampleDescriptor ++ rest)) flvalsigOffset = flvalsig := by
    rw [flvalsigOffset, hword 0x10 (by decide)]
    decide +kernel
  unfold decode
  simp only [hsig, hfrba, if_neg (not_lt.mpr h), ne_eq, not_true_eq_false, if_false, regionNames,
    regionsFrom, Nat.reduceMul, Nat.reduceAdd, hword _ (by decide : 0x40 ≤ 80),
    hword _ (by decide : 0x44 ≤ 80), hword _ (by decide : 0x48 ≤ 80),
    hword _ (by decide : 0x4C ≤ 80), hword _ (by decide : 0x50 ≤ 80)]
  rw [if_neg (by omega), if_neg (by omega), if_neg (by omega), if_neg (by omega), if_neg (by omega)]
  decide +kernel

/-- A dump with the region expected gets past `bios_bounds`. Kind: L -/
theorem isSome_biosBounds {data : List UInt8} {regions : List Region}
    (hdecode : decode data = .ok regions)
    (hbios : (regions.filter Region.used).find? (·.name = .bios) =
      some ⟨.bios, biosBase, biosLimit⟩) : (biosBounds data).isSome = true := by
  have hcheck : checkBios expectBios (regions.filter Region.used) = .ok () := by
    simp [checkBios, bounds_expectBios, hbios]
  obtain ⟨lines, hlayout⟩ : ∃ lines, layout (some expectBios) data = .ok lines :=
    ⟨_, by rw [layout]; exact bind_eq_ok.mpr ⟨regions, hdecode, bind_eq_ok.mpr ⟨(), hcheck, rfl⟩⟩⟩
  unfold biosBounds
  simp only [hlayout, (layout_bounds hlayout).2.1]
  rfl

/-- The rest of the chip is erased. Kind: D -/
def sampleDump : List UInt8 := sampleDescriptor ++ List.replicate (chipSize - 84) 0xFF

/-- Padding below the BIOS region, as older builds left it. Kind: D -/
def sampleRom : List UInt8 :=
  List.replicate biosBase 0xFF ++ List.replicate (chipSize - biosBase) 0x90

lemma length_sampleDump : sampleDump.length = chipSize := by
  rw [sampleDump, List.length_append, List.length_replicate,
    show sampleDescriptor.length = 84 by decide]
  decide

lemma length_sampleRom : sampleRom.length = chipSize := by
  rw [sampleRom, List.length_append, List.length_replicate, List.length_replicate]
  decide

lemma accepted_sample : Accepted sampleDump sampleRom where
  stock_length := length_sampleDump
  rom_length := length_sampleRom
  bounds := by
    have hlength : 0x1000 ≤ sampleDump.length := by
      rw [length_sampleDump]
      decide
    exact isSome_biosBounds (decode_sampleDescriptor hlength) (by decide)
  head := by
    rw [sampleRom, List.take_left' List.length_replicate, stripErased, List.dropWhile_replicate]
    exact .inl rfl

/-- A dump of a board and a ROM of an older build. Kind: C -/
theorem merge_eq_flash_sample :
    ∃ image, cmdMerge sampleDump sampleRom = .ok image ∧ MergedImage sampleDump sampleRom image :=
  ⟨_, cmdMerge_eq_ok.mpr ⟨accepted_sample, rfl⟩,
    merge_eq_flash _ _ _ (cmdMerge_eq_ok.mpr ⟨accepted_sample, rfl⟩)⟩

end NucBios.Flash
