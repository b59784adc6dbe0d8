import NucBios.Lib.Outcome
import NucBios.Update.FlashRange

/-!
# The region manifest behind a firmware image

A capsule's firmware image may carry a trailer that lists the flash regions to program.
`AppendRmapManifest.py` writes it at build time, the recipe looks at its last eight octets before
the capsule is signed, and `FmpDeviceLocateRegionManifest` reads it on the machine. The three are
separate programs in two languages that share a format only by convention.

* `fmpDeviceLocateRegionManifest_eq_ok_iff`: the firmware accepts exactly the images the tool
  writes — a non-empty firmware image followed by the manifest of some list of names — and reads
  back those names and the size of that image.
-/

namespace NucBios.Update

open NucBios.Lib NucBios.Uefi

/-- `REGION_MANIFEST_NAME_LEN` and the tool's `ENTRY_SIZE`. Kind: D -/
def regionNameLen : ℕ := 16

/-- `SIGNATURE_32 ('R', 'M', 'A', 'P')`. Kind: D -/
def regionManifestSignature : UInt32 := 0x50414D52

/-- `REGION_MANIFEST_VERSION`. Kind: D -/
def regionManifestVersion : UInt16 := 1

/-- `sizeof (REGION_MANIFEST_TRAILER)`: signature, version and entry count, packed. Kind: D -/
def regionTrailerSize : ℕ := 8

/-- A printable character other than a blank: `' ' < c <= '~'`. Kind: D -/
def isGraph (c : UInt8) : Bool := 0x20 < c && c ≤ 0x7E

/-! ### The tool -/

/-- `name.encode('ascii')`: the octets, or a `UnicodeError`. Kind: D -/
def encodeAscii (name : String) : Option (List UInt8) :=
  if name.toList.all (·.toNat < 128) then some (ascii name) else none

/-- `struct.pack('<16s', encoded)`: padded with NUL to the entry size. Kind: D -/
def packEntry (encoded : List UInt8) : List UInt8 :=
  encoded ++ List.replicate (regionNameLen - encoded.length) 0

/-- One name: its encoding, or the text of the `ValueError`. `encodedNames` are those before it.
Source: `AppendRmapManifest.py` `build_manifest`, body of the loop
Kind: D -/
def encodeName (encodedNames : List (List UInt8)) (name : String) : Except String (List UInt8) :=
  match encodeAscii name with
  | none => .error ("Region name '" ++ name ++ "' is not ASCII")
  | some encoded =>
      if encoded.isEmpty || encoded.any (!isGraph ·) then
        .error ("Region name '" ++ name ++ "' contains invalid characters")
      else if encoded.length > regionNameLen then
        .error ("Region name '" ++ name ++ "' longer than 16 bytes")
      else if encoded ∈ encodedNames then
        .error ("Region name '" ++ name ++ "' is duplicated")
      else .ok encoded

/-- The loop of `build_manifest` over the names: the packed entries.
Source: `AppendRmapManifest.py` `build_manifest`
Kind: D -/
def buildEntries : (encodedNames : List (List UInt8)) → List String →
    Except String (List (List UInt8))
  | _, [] => .ok []
  | encodedNames, name :: names => do
      let encoded ← encodeName encodedNames name
      let entries ← buildEntries (encoded :: encodedNames) names
      return packEntry encoded :: entries

/-- `struct.pack('<IHH', RMAP_SIGNATURE, RMAP_VERSION, len(entries))`. Kind: D -/
def packTrailer (count : ℕ) : List UInt8 :=
  le32 regionManifestSignature ++ le16 regionManifestVersion ++ le16 (UInt16.ofNat count)

/-- The encoded manifest for the given region names, or the text of the error.
Source: `AppendRmapManifest.py` `build_manifest`
Kind: D -/
def buildManifest (regionNames : List String) : Except String (List UInt8) :=
  if regionNames.isEmpty || regionNames.length > 0xFFFF then
    .error "Manifest must contain between 1 and 65535 regions"
  else
    match buildEntries [] regionNames with
    | .error e => .error e
    | .ok entries => .ok (entries.flatten ++ packTrailer entries.length)

/-- The check the recipe makes of the last eight octets of what the tool wrote: the signature, and
at least one region. The version is read and not checked.
Source: `coreboot_git.bb` `do_deploy`
Kind: D -/
def manifestGuard (image : List UInt8) : Bool :=
  let trailer := pointer (image.drop (image.length - 8))
  8 ≤ image.length && readLe32 trailer 0 == regionManifestSignature && 1 ≤ readLe16 trailer 6

/-! ### The firmware -/

/-- The loop of `RegionNameIsValid`: printable characters, then NULs only, and at least one
character.
Source: `FmpDeviceSmmManifest.c` `RegionNameIsValid`
Kind: D -/
def regionNameLoop : (hasCharacter terminated : Bool) → List UInt8 → Bool
  | hasCharacter, _, [] => hasCharacter
  | hasCharacter, terminated, c :: rest =>
      if c = 0 then regionNameLoop hasCharacter true rest
      else if terminated || c ≤ 0x20 || c > 0x7E then false
      else regionNameLoop true terminated rest

/-- Check that a manifest region name is printable and NUL-padded.
Source: `FmpDeviceSmmManifest.c` `RegionNameIsValid`
Kind: D -/
def regionNameIsValid (name : List UInt8) : Bool := regionNameLoop false false name

/-- The two nested loops over the entries: each name is valid and differs from those before it.
Source: `FmpDeviceSmmManifest.c` `FmpDeviceLocateRegionManifest`
Kind: D -/
def entriesAreValid : (before : List (List UInt8)) → List (List UInt8) → Bool
  | _, [] => true
  | before, entry :: entries =>
      regionNameIsValid entry && before.all (· != entry) &&
        entriesAreValid (before ++ [entry]) entries

/-- What a located manifest says: the names, sixteen octets each, and the size of the firmware
image before it. Kind: D -/
structure RegionManifest where
  entries : List (List UInt8)
  firmwareImageSize : ℕ
  deriving DecidableEq, Repr

/-- `ManifestEntries[index]`, for entries that begin at `start`. Kind: D -/
def manifestEntry (image : List UInt8) (start index : ℕ) : List UInt8 :=
  slice image (start + index * regionNameLen) regionNameLen

/-- Locate and validate an RMAP manifest appended to a firmware image.
Source: `FmpDeviceSmmManifest.c` `FmpDeviceLocateRegionManifest`
Kind: D -/
def fmpDeviceLocateRegionManifest (image : List UInt8) : Except EfiStatus RegionManifest :=
  if image.length < regionTrailerSize then .error efiNotFound
  else
    let trailer := pointer (image.drop (image.length - regionTrailerSize))
    let entryCount := (readLe16 trailer 6).toNat
    if readLe32 trailer 0 ≠ regionManifestSignature then .error efiNotFound
    else if readLe16 trailer 4 ≠ regionManifestVersion ∨ entryCount = 0 then
      .error efiCompromisedData
    else if entryCount > (image.length - regionTrailerSize) / regionNameLen then
      .error efiCompromisedData
    else
      let manifestStart := image.length - regionTrailerSize - entryCount * regionNameLen
      if manifestStart = 0 then .error efiCompromisedData
      else
        let entries := (List.range entryCount).map (manifestEntry image manifestStart)
        if entriesAreValid [] entries then .ok ⟨entries, manifestStart⟩
        else .error efiCompromisedData

/-! ### Names -/

/-- The C string at the beginning of a field: up to its first NUL. Kind: D -/
def cstr (field : List UInt8) : List UInt8 := field.takeWhile (· != 0)

/-- The names the tool lets through: one to sixteen printable characters. Kind: D -/
structure ValidEncoded (encoded : List UInt8) : Prop where
  nonempty : encoded ≠ []
  length_le : encoded.length ≤ regionNameLen
  graph : ∀ c ∈ encoded, isGraph c = true

lemma ne_zero_of_isGraph {c : UInt8} (h : isGraph c = true) : c ≠ 0 := by
  rintro rfl
  exact absurd h (by decide)

lemma isGraph_eq {c : UInt8} : isGraph c = !(c ≤ 0x20 || c > 0x7E) := by
  rw [Bool.eq_iff_iff]
  simp [isGraph]

lemma length_packEntry {e : List UInt8} (h : e.length ≤ regionNameLen) :
    (packEntry e).length = regionNameLen := by
  simp [packEntry, h]

/-- A printable name is the C string of its entry. Kind: L -/
theorem cstr_packEntry {e : List UInt8} (h : ∀ c ∈ e, isGraph c = true) :
    cstr (packEntry e) = e := by
  have hchar : ∀ c ∈ e, (c != 0) = true := fun c hc => by simpa using ne_zero_of_isGraph (h c hc)
  rw [cstr, packEntry, List.takeWhile_append_of_pos hchar]
  simp

lemma regionNameLoop_terminated (has : Bool) :
    ∀ l : List UInt8, regionNameLoop has true l = (has && l.all (· == 0))
  | [] => by simp [regionNameLoop]
  | c :: l => by
      by_cases hc : c = 0
      · simp [regionNameLoop, hc, regionNameLoop_terminated has l]
      · simp [regionNameLoop, hc]

/-- The loop, as three tests of the field: the string is printable, only NULs follow it, and there
was a character. Kind: L -/
theorem regionNameLoop_eq : ∀ (has : Bool) (l : List UInt8), regionNameLoop has false l =
    ((cstr l).all isGraph && (l.dropWhile (· != 0)).all (· == 0) && (has || !(cstr l).isEmpty))
  | has, [] => by simp [regionNameLoop, cstr]
  | has, c :: l => by
      by_cases hc : c = 0
      · simp [regionNameLoop, cstr, hc, regionNameLoop_terminated, Bool.and_comm]
      · have hstr : cstr (c :: l) = c :: cstr l := by simp [cstr, hc]
        by_cases hgraph : isGraph c = true
        · have htest : (false || decide (c ≤ 0x20) || decide (c > 0x7E)) = false := by
            rw [isGraph_eq] at hgraph
            simpa using hgraph
          rw [regionNameLoop, if_neg hc, htest, if_neg (by decide), regionNameLoop_eq true l, hstr]
          simp [hc, hgraph]
        · have htest : (false || decide (c ≤ 0x20) || decide (c > 0x7E)) = true := by
            rw [isGraph_eq] at hgraph
            simpa only [Bool.false_or, Bool.not_eq_true', Bool.not_eq_false] using hgraph
          rw [regionNameLoop, if_neg hc, htest, if_pos rfl, hstr]
          simp [hgraph]

/-- The firmware accepts exactly the entries the tool packs. Kind: P -/
theorem regionNameIsValid_iff {entry : List UInt8} (hlen : entry.length = regionNameLen) :
    regionNameIsValid entry = true ↔
      ValidEncoded (cstr entry) ∧ entry = packEntry (cstr entry) := by
  have hsplit : cstr entry ++ entry.dropWhile (· != 0) = entry := List.takeWhile_append_dropWhile
  have hlengths := congrArg List.length hsplit
  rw [List.length_append, hlen] at hlengths
  rw [regionNameIsValid, regionNameLoop_eq]
  simp only [Bool.and_eq_true, List.all_eq_true, beq_iff_eq, Bool.false_or, Bool.not_eq_true',
    List.isEmpty_eq_false_iff]
  constructor
  · rintro ⟨⟨hgraph, hzero⟩, hne⟩
    refine ⟨⟨hne, by omega, hgraph⟩, ?_⟩
    conv_lhs => rw [← hsplit]
    rw [packEntry]
    congr 1
    rw [List.eq_replicate_iff]
    exact ⟨by omega, hzero⟩
  · rintro ⟨hvalid, hpack⟩
    refine ⟨⟨hvalid.graph, fun c hc => ?_⟩, hvalid.nonempty⟩
    have htail : entry.dropWhile (· != 0) =
        List.replicate (regionNameLen - (cstr entry).length) 0 := by
      rw [← List.append_right_inj (cstr entry), hsplit]
      exact hpack
    rw [htail] at hc
    exact List.eq_of_mem_replicate hc

/-- The nested loops say: every name is valid, and no two are the same. Kind: L -/
theorem entriesAreValid_iff : ∀ (before entries : List (List UInt8)),
    entriesAreValid before entries = true ↔
      (∀ e ∈ entries, regionNameIsValid e = true ∧ e ∉ before) ∧ entries.Nodup
  | before, [] => by simp [entriesAreValid]
  | before, entry :: entries => by
      rw [entriesAreValid, Bool.and_eq_true, Bool.and_eq_true,
        entriesAreValid_iff (before ++ [entry]) entries]
      simp only [List.all_eq_true, bne_iff_ne, List.mem_append, List.mem_singleton, not_or,
        List.forall_mem_cons, List.nodup_cons]
      constructor
      · rintro ⟨⟨hvalid, hbefore⟩, hrest, hnodup⟩
        exact ⟨⟨⟨hvalid, fun h => hbefore entry h rfl⟩,
            fun e he => ⟨(hrest e he).1, (hrest e he).2.1⟩⟩,
          fun h => (hrest entry h).2.2 rfl, hnodup⟩
      · rintro ⟨⟨⟨hvalid, hbefore⟩, hrest⟩, hnew, hnodup⟩
        refine ⟨⟨hvalid, fun e he heq => hbefore (heq ▸ he)⟩, fun e he => ?_, hnodup⟩
        exact ⟨(hrest e he).1, (hrest e he).2, fun heq => hnew (heq ▸ he)⟩

/-- A name the tool lets through: its octets are those of a valid name. Kind: D -/
structure ValidName (name : String) : Prop where
  isAscii : encodeAscii name = some (ascii name)
  encoded : ValidEncoded (ascii name)

lemma encodeAscii_eq_some {name : String} {e : List UInt8} (h : encodeAscii name = some e) :
    e = ascii name := by
  unfold encodeAscii at h
  split at h
  · exact (Option.some.inj h).symm
  · cases h

/-- What passes the checks of the loop body. Kind: L -/
theorem encodeName_eq_ok_iff {seen : List (List UInt8)} {name : String} {e : List UInt8} :
    encodeName seen name = .ok e ↔ ValidName name ∧ ascii name ∉ seen ∧ e = ascii name := by
  unfold encodeName
  cases hascii : encodeAscii name with
  | none =>
      constructor
      · intro h
        cases h
      · intro h
        have := h.1.isAscii
        rw [hascii] at this
        cases this
  | some e' =>
      obtain rfl := encodeAscii_eq_some hascii
      dsimp only
      split
      · rename_i hbad
        constructor
        · intro h
          cases h
        · rintro ⟨⟨-, hvalid⟩, -⟩
          simp only [Bool.or_eq_true, List.isEmpty_iff, List.any_eq_true, Bool.not_eq_true'] at hbad
          obtain hnil | ⟨c, hc, hno⟩ := hbad
          · exact absurd hnil hvalid.nonempty
          · rw [hvalid.graph c hc] at hno
            cases hno
      · rename_i hgood
        simp only [Bool.or_eq_true, List.isEmpty_iff, List.any_eq_true, Bool.not_eq_true', not_or,
          not_exists, not_and, Bool.not_eq_false] at hgood
        split
        · rename_i hlong
          exact ⟨fun h => (by cases h), fun h => absurd h.1.encoded.length_le (by omega)⟩
        · rename_i hshort
          split
          · rename_i hseen
            exact ⟨fun h => (by cases h), fun h => absurd hseen h.2.1⟩
          · rename_i hnew
            constructor
            · intro h
              cases h
              exact ⟨⟨hascii, hgood.1, by omega, hgood.2⟩, hnew, rfl⟩
            · rintro ⟨-, -, rfl⟩
              rfl

/-- The tool lets through valid names that differ, and packs them in order. Kind: L -/
theorem buildEntries_eq_ok_iff : ∀ (seen : List (List UInt8)) (names : List String)
    (entries : List (List UInt8)), buildEntries seen names = .ok entries ↔
      (∀ name ∈ names, ValidName name ∧ ascii name ∉ seen) ∧ (names.map ascii).Nodup ∧
        entries = names.map fun name => packEntry (ascii name)
  | seen, [], entries => by simp [buildEntries, eq_comm]
  | seen, name :: names, entries => by
      have hcons : buildEntries seen (name :: names) = .ok entries ↔
          ∃ e, encodeName seen name = .ok e ∧ ∃ rest, buildEntries (e :: seen) names = .ok rest ∧
            packEntry e :: rest = entries := by
        simp only [buildEntries, bind_eq_ok, pure, Except.pure, Except.ok.injEq]
      rw [hcons]
      constructor
      · rintro ⟨e, hname, rest, hrest, rfl⟩
        obtain ⟨hvalid, hnew, rfl⟩ := encodeName_eq_ok_iff.mp hname
        obtain ⟨hnames, hnodup, rfl⟩ := (buildEntries_eq_ok_iff _ _ _).mp hrest
        refine ⟨List.forall_mem_cons.mpr ⟨⟨hvalid, hnew⟩, fun n hn => ?_⟩, ?_, rfl⟩
        · exact ⟨(hnames n hn).1, fun h => (hnames n hn).2 (List.mem_cons_of_mem _ h)⟩
        · rw [List.map_cons, List.nodup_cons]
          refine ⟨fun h => ?_, hnodup⟩
          obtain ⟨n, hn, heq⟩ := List.mem_map.mp h
          exact (hnames n hn).2 (heq ▸ List.mem_cons_self)
      · rintro ⟨hnames, hnodup, rfl⟩
        obtain ⟨hfirst, hrest⟩ := List.forall_mem_cons.mp hnames
        rw [List.map_cons, List.nodup_cons] at hnodup
        refine ⟨_, encodeName_eq_ok_iff.mpr ⟨hfirst.1, hfirst.2, rfl⟩, _,
          (buildEntries_eq_ok_iff _ _ _).mpr ⟨fun n hn => ⟨(hrest n hn).1, fun h => ?_⟩,
            hnodup.2, rfl⟩, rfl⟩
        rcases List.mem_cons.mp h with heq | hseen
        · exact hnodup.1 (heq ▸ List.mem_map_of_mem hn)
        · exact (hrest n hn).2 hseen

/-- What `build_manifest` returns, and when. Kind: L -/
theorem buildManifest_eq_ok_iff {names : List String} {manifest : List UInt8} :
    buildManifest names = .ok manifest ↔
      (names ≠ [] ∧ names.length ≤ 0xFFFF) ∧ (∀ name ∈ names, ValidName name) ∧
        (names.map ascii).Nodup ∧
        manifest = (names.map fun name => packEntry (ascii name)).flatten ++
          packTrailer names.length := by
  unfold buildManifest
  split
  · rename_i hbad
    simp only [Bool.or_eq_true, List.isEmpty_iff, decide_eq_true_eq] at hbad
    refine ⟨fun h => (by cases h), fun h => ?_⟩
    obtain hnil | hlong := hbad
    · exact absurd hnil h.1.1
    · exact absurd h.1.2 (by omega)
  · rename_i hgood
    simp only [Bool.or_eq_true, List.isEmpty_iff, decide_eq_true_eq, not_or, not_lt] at hgood
    cases hentries : buildEntries [] names with
    | error e =>
        refine ⟨fun h => (by cases h), fun ⟨_, hvalid, hnodup, _⟩ => ?_⟩
        have := (buildEntries_eq_ok_iff [] names _).mpr
          ⟨fun n hn => ⟨hvalid n hn, List.not_mem_nil⟩, hnodup, rfl⟩
        rw [hentries] at this
        cases this
    | ok entries =>
        obtain ⟨hvalid, hnodup, rfl⟩ := (buildEntries_eq_ok_iff [] names entries).mp hentries
        dsimp only
        rw [List.length_map]
        constructor
        · intro h
          cases h
          exact ⟨hgood, fun n hn => (hvalid n hn).1, hnodup, rfl⟩
        · rintro ⟨-, -, -, rfl⟩
          rfl

/-! ### Chunks -/

/-- Dropping whole chunks of a concatenation. Kind: L -/
theorem drop_mul_flatten {w : ℕ} : ∀ (chunks : List (List UInt8)), (∀ e ∈ chunks, e.length = w) →
    ∀ i, chunks.flatten.drop (i * w) = (chunks.drop i).flatten
  | [], _, i => by simp
  | e :: chunks, h, 0 => by simp
  | e :: chunks, h, i + 1 => by
      obtain ⟨he, hrest⟩ := List.forall_mem_cons.mp h
      rw [List.flatten_cons, Nat.succ_mul, List.drop_append, List.drop_of_length_le (by omega),
        List.nil_append, he, Nat.add_sub_cancel, List.drop_succ_cons,
        drop_mul_flatten chunks hrest i]

lemma length_flatten_of_length {w : ℕ} {chunks : List (List UInt8)}
    (h : ∀ e ∈ chunks, e.length = w) : chunks.flatten.length = chunks.length * w := by
  rw [List.length_flatten, List.map_congr_left h, List.map_const', List.sum_replicate, smul_eq_mul]

/-- The entries of an image that ends with packed entries and a trailer. Kind: L -/
theorem map_manifestEntry_append {fw trailer : List UInt8} {entries : List (List UInt8)}
    (h : ∀ e ∈ entries, e.length = regionNameLen) :
    (List.range entries.length).map
      (manifestEntry (fw ++ (entries.flatten ++ trailer)) fw.length) = entries := by
  apply List.ext_getElem
  · simp
  · intro i hi hi'
    have hentry := h entries[i] (List.getElem_mem hi')
    have hskip : i * regionNameLen ≤ entries.flatten.length := by
      rw [length_flatten_of_length h]
      exact Nat.mul_le_mul_right _ (by omega)
    rw [List.getElem_map, List.getElem_range, manifestEntry, slice, ← List.drop_drop,
      List.drop_left, List.drop_append_of_le_length hskip, drop_mul_flatten entries h,
      List.drop_eq_getElem_cons hi', List.flatten_cons, List.append_assoc, ← hentry,
      List.take_left]

/-- Reading the entries one after the other reads the octets they take. Kind: L -/
theorem flatten_map_manifestEntry {image : List UInt8} {start : ℕ} : ∀ n : ℕ,
    start + n * regionNameLen ≤ image.length →
      ((List.range n).map (manifestEntry image start)).flatten =
        slice image start (n * regionNameLen)
  | 0, _ => by simp [slice]
  | n + 1, h => by
      rw [Nat.succ_mul] at h ⊢
      rw [List.range_succ, List.map_append, List.flatten_append,
        flatten_map_manifestEntry n (by omega)]
      simp only [List.map_cons, List.map_nil, List.flatten_cons, List.flatten_nil,
        List.append_nil, manifestEntry, slice, List.take_add, List.drop_drop]

/-! ### The trailer -/

@[simp] theorem length_packTrailer (n : ℕ) : (packTrailer n).length = regionTrailerSize := rfl

/-- The fields of eight octets are those of a trailer exactly when the octets are its. Kind: L -/
theorem trailer_iff {t : List UInt8} (ht : t.length = regionTrailerSize) {n : ℕ} :
    (readLe32 (pointer t) 0 = regionManifestSignature ∧
        readLe16 (pointer t) 4 = regionManifestVersion ∧ (readLe16 (pointer t) 6).toNat = n) ↔
      n ≤ 0xFFFF ∧ t = packTrailer n := by
  obtain ⟨a, b, c, d, e, f, g, h, rfl⟩ : ∃ a b c d e f g h, t = [a, b, c, d, e, f, g, h] := by
    match t, ht with
    | [a, b, c, d, e, f, g, h], _ => exact ⟨a, b, c, d, e, f, g, h, rfl⟩
  have hcount : (readLe16 (pointer [a, b, c, d, e, f, g, h]) 6).toNat = n ↔
      n ≤ 0xFFFF ∧ readLe16 (pointer [a, b, c, d, e, f, g, h]) 6 = UInt16.ofNat n := by
    constructor
    · rintro rfl
      have := (readLe16 (pointer [a, b, c, d, e, f, g, h]) 6).toNat_lt
      exact ⟨by omega, by simp⟩
    · rintro ⟨hn, heq⟩
      rw [heq, UInt16.toNat_ofNat_of_lt' (by rw [UInt16.size]; omega)]
  rw [hcount, readLe32_eq_iff, readLe16_eq_iff, readLe16_eq_iff]
  constructor
  · rintro ⟨hsig, hversion, hn, hlast⟩
    rw [packTrailer, ← hsig, ← hversion, ← hlast]
    exact ⟨hn, rfl⟩
  · rintro ⟨hn, heq⟩
    simp only [packTrailer, le32, le16, List.cons_append, List.nil_append, List.cons.injEq] at heq
    obtain ⟨rfl, rfl, rfl, rfl, rfl, rfl, rfl, rfl, -⟩ := heq
    exact ⟨rfl, rfl, hn, rfl⟩

/-! ### What the firmware accepts -/

/-- The name a printable string of octets spells. Kind: D -/
def nameOf (encoded : List UInt8) : String :=
  String.ofList (encoded.map fun c => Char.ofNat c.toNat)

lemma toNat_char {c : UInt8} : (Char.ofNat c.toNat).toNat = c.toNat := by
  have hvalid : Nat.isValidChar c.toNat := Or.inl (by have := c.toNat_lt; omega)
  rw [Char.ofNat, dif_pos hvalid]
  rfl

lemma ascii_nameOf (encoded : List UInt8) : ascii (nameOf encoded) = encoded := by
  simp [ascii, nameOf, toNat_char, Function.comp_def]

lemma validName_nameOf {encoded : List UInt8} (h : ValidEncoded encoded) :
    ValidName (nameOf encoded) := by
  refine ⟨?_, (ascii_nameOf encoded).symm ▸ h⟩
  have hascii : (nameOf encoded).toList.all (·.toNat < 128) = true := by
    simp only [nameOf, String.toList_ofList, List.all_map, List.all_eq_true, Function.comp_apply,
      decide_eq_true_eq, toNat_char]
    intro c hc
    have hle := (Bool.and_eq_true _ _ ▸ h.graph c hc : _ ∧ _).2
    have : c.toNat ≤ 0x7E := by simpa [UInt8.le_iff_toNat_le] using hle
    omega
  rw [encodeAscii, if_pos hascii]

/-- An image with a manifest: firmware, valid entries that differ, and their trailer. Kind: D -/
structure Carries (image fw : List UInt8) (entries : List (List UInt8)) : Prop where
  image_eq : image = fw ++ (entries.flatten ++ packTrailer entries.length)
  firmware : fw ≠ []
  nonempty : entries ≠ []
  count : entries.length ≤ 0xFFFF
  length_entry : ∀ e ∈ entries, e.length = regionNameLen
  valid : ∀ e ∈ entries, regionNameIsValid e = true
  nodup : entries.Nodup

/-- The checks of the firmware, turned into the shape of the image. Kind: L -/
theorem carries_of_located {image : List UInt8} {m : RegionManifest}
    (h : fmpDeviceLocateRegionManifest image = .ok m) :
    ∃ fw, Carries image fw m.entries ∧ m.firmwareImageSize = fw.length := by
  unfold fmpDeviceLocateRegionManifest at h
  split at h
  · cases h
  rename_i hsize
  dsimp only at h
  set t := image.drop (image.length - regionTrailerSize) with ht
  generalize hcount : (readLe16 (pointer t) 6).toNat = n at h
  split at h
  · cases h
  rename_i hsig
  split at h
  · cases h
  rename_i hversion
  rw [not_or, not_not] at hversion
  split at h
  · cases h
  rename_i hfits
  split at h
  · cases h
  rename_i hstart
  split at h
  · rename_i hvalid
    cases h
    have htlen : t.length = regionTrailerSize := by rw [ht, List.length_drop]; omega
    obtain ⟨hn, htrailer⟩ := (trailer_iff htlen).mp ⟨not_not.mp hsig, hversion.1, hcount⟩
    obtain ⟨hentries, hnodup⟩ := (entriesAreValid_iff [] _).mp hvalid
    have hmul : n * regionNameLen ≤ image.length - regionTrailerSize :=
      (Nat.le_div_iff_mul_le (by decide)).mp (not_lt.mp hfits)
    generalize hst : image.length - regionTrailerSize - n * regionNameLen = start at *
    refine ⟨image.take start, ⟨?_, ?_, ?_, by simpa using hn, ?_, fun e he => (hentries e he).1,
      hnodup⟩, by simp; omega⟩
    · rw [flatten_map_manifestEntry n (by omega), List.length_map, List.length_range, ← htrailer,
        slice]
      have hdrop : t = (image.drop start).drop (n * regionNameLen) := by
        rw [ht, List.drop_drop]
        congr 1
        omega
      rw [hdrop, List.take_append_drop, List.take_append_drop]
    · intro hnil
      have := congrArg List.length hnil
      rw [List.length_take, List.length_nil] at this
      omega
    · intro hnil
      have := congrArg List.length hnil
      rw [List.length_map, List.length_range, List.length_nil] at this
      exact hversion.2 this
    · intro e he
      obtain ⟨i, hi, rfl⟩ := List.mem_map.mp he
      rw [List.mem_range] at hi
      have hnext : (i + 1) * regionNameLen ≤ n * regionNameLen := Nat.mul_le_mul_right _ hi
      rw [Nat.succ_mul] at hnext
      rw [manifestEntry, slice, List.length_take, List.length_drop]
      omega
  · cases h

/-- An image of that shape passes every check. Kind: L -/
theorem located_of_carries {image fw : List UInt8} {entries : List (List UInt8)}
    (h : Carries image fw entries) :
    fmpDeviceLocateRegionManifest image = .ok ⟨entries, fw.length⟩ := by
  have hlen : image.length = fw.length + entries.length * regionNameLen + regionTrailerSize := by
    rw [h.image_eq, List.length_append, List.length_append, length_packTrailer,
      length_flatten_of_length h.length_entry]
    omega
  have hpos : 0 < fw.length := List.length_pos_iff.mpr h.firmware
  have hentries : 0 < entries.length := List.length_pos_iff.mpr h.nonempty
  have htrailer : image.drop (image.length - regionTrailerSize) = packTrailer entries.length := by
    have hskip : image.length - regionTrailerSize = (fw ++ entries.flatten).length := by
      rw [List.length_append, length_flatten_of_length h.length_entry]
      omega
    rw [hskip, h.image_eq, ← List.append_assoc, List.drop_left]
  obtain ⟨hsig, hversion, hcount⟩ := (trailer_iff (length_packTrailer _)).mpr ⟨h.count, rfl⟩
  unfold fmpDeviceLocateRegionManifest
  dsimp only
  have hfits : ¬ entries.length > (image.length - regionTrailerSize) / regionNameLen := by
    rw [gt_iff_lt, not_lt, Nat.le_div_iff_mul_le (by decide)]
    omega
  rw [htrailer, hcount, hsig, hversion]
  rw [if_neg (by omega), if_neg (by simp), if_neg (by simpa using h.nonempty), if_neg hfits]
  have hstart : image.length - regionTrailerSize - entries.length * regionNameLen = fw.length := by
    omega
  rw [hstart, if_neg hpos.ne', h.image_eq, map_manifestEntry_append h.length_entry,
    if_pos ((entriesAreValid_iff [] entries).mpr
      ⟨fun e he => ⟨h.valid e he, List.not_mem_nil⟩, h.nodup⟩)]

/-- The images that carry a manifest are those the tool writes. Kind: L -/
theorem carries_iff_buildManifest {image fw : List UInt8} {entries : List (List UInt8)} :
    Carries image fw entries ↔
      ∃ names manifest, buildManifest names = .ok manifest ∧ fw ≠ [] ∧ image = fw ++ manifest ∧
        entries = names.map fun name => packEntry (ascii name) := by
  constructor
  · intro h
    have hpacked : ∀ e ∈ entries, ValidEncoded (cstr e) ∧ e = packEntry (cstr e) := fun e he =>
      (regionNameIsValid_iff (h.length_entry e he)).mp (h.valid e he)
    have hback : entries.map ((fun name => packEntry (ascii name)) ∘ fun e => nameOf (cstr e)) =
        entries := by
      conv_rhs => rw [← List.map_id entries]
      refine List.map_congr_left fun e he => ?_
      rw [Function.comp_apply, ascii_nameOf, ← (hpacked e he).2, id_eq]
    refine ⟨entries.map fun e => nameOf (cstr e), _, buildManifest_eq_ok_iff.mpr
      ⟨⟨by simpa using h.nonempty, by simpa using h.count⟩, ?_, ?_, rfl⟩, h.firmware, ?_, ?_⟩
    · simp only [List.forall_mem_map]
      exact fun e he => validName_nameOf (hpacked e he).1
    · rw [List.map_map]
      refine h.nodup.map_on fun e he e' he' heq => ?_
      rw [Function.comp_apply, Function.comp_apply, ascii_nameOf, ascii_nameOf] at heq
      rw [(hpacked e he).2, (hpacked e' he').2, heq]
    · rw [List.map_map, hback, List.length_map, h.image_eq]
    · rw [List.map_map, hback]
  · rintro ⟨names, manifest, hmanifest, hfw, rfl, rfl⟩
    obtain ⟨⟨hne, hcount⟩, hvalid, hnodup, rfl⟩ := buildManifest_eq_ok_iff.mp hmanifest
    have hentry : ∀ name ∈ names, (packEntry (ascii name)).length = regionNameLen :=
      fun name hname => length_packEntry (hvalid name hname).encoded.length_le
    have hcstr : ∀ name ∈ names, cstr (packEntry (ascii name)) = ascii name :=
      fun name hname => cstr_packEntry (hvalid name hname).encoded.graph
    refine ⟨by rw [List.length_map], hfw, by simpa using hne, by simpa using hcount,
      List.forall_mem_map.mpr hentry, List.forall_mem_map.mpr fun name hname => ?_, ?_⟩
    · rw [regionNameIsValid_iff (hentry name hname), hcstr name hname]
      exact ⟨(hvalid name hname).encoded, rfl⟩
    · have hmap : names.map (fun name => packEntry (ascii name)) =
          (names.map ascii).map packEntry := by rw [List.map_map]; rfl
      rw [hmap]
      refine hnodup.map_on fun e he e' he' heq => ?_
      obtain ⟨name, hname, rfl⟩ := List.mem_map.mp he
      obtain ⟨name', hname', rfl⟩ := List.mem_map.mp he'
      rw [← hcstr name hname, ← hcstr name' hname', heq]

/-- **The manifest's two ends agree.** The firmware finds a manifest in exactly the images that are
a non-empty firmware image followed by what the build tool makes of some region names, and it
reads back those names, padded, and the size of that firmware image.
Source: `FmpDeviceSmmManifest.c` `FmpDeviceLocateRegionManifest`; `AppendRmapManifest.py`
`build_manifest`
Kind: P -/
theorem fmpDeviceLocateRegionManifest_eq_ok_iff (image : List UInt8) (m : RegionManifest) :
    fmpDeviceLocateRegionManifest image = .ok m ↔
      ∃ names fw manifest, buildManifest names = .ok manifest ∧ fw ≠ [] ∧ image = fw ++ manifest ∧
        m = ⟨names.map fun name => packEntry (ascii name), fw.length⟩ := by
  constructor
  · intro h
    obtain ⟨fw, hcarries, hsize⟩ := carries_of_located h
    obtain ⟨names, manifest, hmanifest, hfw, himage, hentries⟩ :=
      carries_iff_buildManifest.mp hcarries
    refine ⟨names, fw, manifest, hmanifest, hfw, himage, ?_⟩
    rw [← hentries, ← hsize]
  · rintro ⟨names, fw, manifest, hmanifest, hfw, himage, rfl⟩
    exact located_of_carries
      (carries_iff_buildManifest.mpr ⟨names, manifest, hmanifest, hfw, himage, rfl⟩)

end NucBios.Update
