import NucBios.Uefi.Print

/-!
# The flash descriptor and the layout made of it

`ifd-layout.py` reads the region registers of a chip dump and prints a layout for `flashrom`, one
line a region. `nuc-spi.sh` takes the bounds of the BIOS region from that text and hands them on as
text. The model keeps the text: what is printed with `%08x` is read back digit by digit.

* `decode`, `layout`: the script, with `--expect-bios` and `--layout`.
* `decode_congr`: the decoding looks at the first 0x1004 octets and the length of a dump.
* `layout_eq_ok`: with the bounds that are expected, the printed layout has one line of the BIOS
  region, and it spells these bounds.
-/

namespace NucBios.Flash

open Uefi

/-- A line of text, without its line feed. -/
abbrev Line := List UInt8

/-! ### Numbers as text -/

/-- The value of a hexadecimal digit. Kind: D -/
def hexValue (c : UInt8) : Option ℕ :=
  if 0x30 ≤ c ∧ c ≤ 0x39 then some (c.toNat - 0x30)
  else if 0x61 ≤ c ∧ c ≤ 0x66 then some (c.toNat - 0x57)
  else if 0x41 ≤ c ∧ c ≤ 0x46 then some (c.toNat - 0x37)
  else none

/-- The digits behind a number read so far. Kind: D -/
def hexFrom : ℕ → List UInt8 → Option ℕ
  | n, [] => some n
  | n, c :: rest => (hexValue c).bind fun d => hexFrom (16 * n + d) rest

/-- A hexadecimal number. Kind: D -/
def hexNumber (text : List UInt8) : Option ℕ := if text = [] then none else hexFrom 0 text

/-- `int (text, 0)`, for the spelling with `0x` that the scripts use. Kind: D -/
def int0 : List UInt8 → Option ℕ
  | 0x30 :: 0x78 :: digits => hexNumber digits
  | _ => none

lemma hexFrom_append (digits rest : List UInt8) : ∀ n : ℕ,
    hexFrom n (digits ++ rest) = (hexFrom n digits).bind fun m => hexFrom m rest := by
  induction digits with
  | nil => exact fun n => rfl
  | cons c digits ih =>
      intro n
      rw [List.cons_append, hexFrom, hexFrom, Option.bind_assoc]
      exact congrArg _ (funext fun d => ih _)

/-- `:08x` of Python, `%08x` of C. Kind: D -/
abbrev hex08 (n : ℕ) : List UInt8 := hexadecimal .lower 8 n

/-- What is printed is read back. Kind: L -/
theorem hexFrom_hexadecimal : ∀ width m n : ℕ, n < 16 ^ width →
    hexFrom m (hexadecimal .lower width n) = some (16 ^ width * m + n)
  | 0, m, n, h => by
      obtain rfl : n = 0 := by omega
      simp [hexadecimal, hexFrom]
  | width + 1, m, n, h => by
      have hdigit : ∀ d < 16, hexValue (HexCase.lower.digit d) = some d := by decide
      have hrest : n / 16 < 16 ^ width := by
        rw [Nat.pow_succ] at h
        omega
      rw [hexadecimal, hexFrom_append, hexFrom_hexadecimal width m _ hrest, Option.bind_some,
        hexFrom, hdigit _ (Nat.mod_lt n (by decide)), Option.bind_some, hexFrom, Nat.pow_succ]
      congr 1
      rw [Nat.mul_assoc, Nat.mul_left_comm, Nat.mul_add]
      omega

lemma hexadecimal_ne_nil (width n : ℕ) : hexadecimal .lower (width + 1) n ≠ [] := by
  rw [hexadecimal]
  exact List.append_ne_nil_of_right_ne_nil _ (List.cons_ne_nil _ _)

lemma hexNumber_hexadecimal {n : ℕ} (h : n < 16 ^ 8) : hexNumber (hex08 n) = some n := by
  rw [hexNumber, if_neg (hexadecimal_ne_nil 7 n), hexFrom_hexadecimal 8 0 n h, Nat.mul_zero,
    Nat.zero_add]

/-! ### The descriptor -/

/-- `REGION_NAMES`, in the order of the registers. Kind: D -/
inductive RegionName where
  | fd
  | bios
  | me
  | gbe
  | pd
  deriving DecidableEq, Repr

def RegionName.text : RegionName → Line
  | .fd => ascii "fd"
  | .bios => ascii "bios"
  | .me => ascii "me"
  | .gbe => ascii "gbe"
  | .pd => ascii "pd"

def regionNames : List RegionName := [.fd, .bios, .me, .gbe, .pd]

/-- A region, both bounds included. Kind: D -/
structure Region where
  name : RegionName
  base : ℕ
  limit : ℕ
  deriving DecidableEq, Repr

/-- A base above the limit marks a region that is not there. Kind: D -/
def Region.used (r : Region) : Bool := r.base ≤ r.limit

/-- What a region register says. Kind: D -/
def regionOf (name : RegionName) (reg : UInt32) : Region where
  name := name
  base := (reg &&& 0x7FFF).toNat <<< 12
  limit := ((reg >>> 16 &&& 0x7FFF).toNat <<< 12) ||| 0xFFF

/-- What the script exits with; the texts show these numbers. Kind: D -/
inductive DescriptorError where
  | tooSmall (length : ℕ)
  | noDescriptor (sig : UInt32)
  | noBiosRegion
  | biosRegion (base limit wantBase wantLimit : ℕ)
  /-- The `ValueError` of bounds that are not two numbers. -/
  | badBounds
  deriving DecidableEq, Repr

def flvalsigOffset : ℕ := 0x10
def flvalsig : UInt32 := 0x0FF0A55A

/-- The registers from the `i`-th on, as far as the dump goes. Kind: D -/
def regionsFrom (data : List UInt8) (frba : ℕ) : ℕ → List RegionName → List Region
  | _, [] => []
  | i, name :: names =>
      let off := frba + 4 * i
      if data.length < off + 4 then []
      else regionOf name (readLe32 (pointer data) off) :: regionsFrom data frba (i + 1) names

/-- Source: `ifd-layout.py` `decode`
Kind: D -/
def decode (data : List UInt8) : Except DescriptorError (List Region) :=
  if data.length < 0x1000 then .error (.tooSmall data.length)
  else
    let sig := readLe32 (pointer data) flvalsigOffset
    if sig ≠ flvalsig then .error (.noDescriptor sig)
    else
      let flmap0 := readLe32 (pointer data) 0x14
      let frba := (flmap0 >>> 16 &&& 0xFF).toNat <<< 4
      .ok (regionsFrom data frba 0 regionNames)

/-- `--expect-bios`, as `BASE:LIMIT`. Kind: D -/
def checkBios (expected : Line) (used : List Region) : Except DescriptorError Unit :=
  match (expected.splitOn 0x3A).map int0 with
  | [some wantBase, some wantLimit] =>
      match used.find? (·.name = .bios) with
      | none => .error .noBiosRegion
      | some bios =>
          if (bios.base, bios.limit) ≠ (wantBase, wantLimit) then
            .error (.biosRegion bios.base bios.limit wantBase wantLimit)
          else .ok ()
  | _ => .error .badBounds

/-- `"%08x:%08x %s"`. Kind: D -/
def layoutLine (r : Region) : Line :=
  hex08 r.base ++ 0x3A :: (hex08 r.limit ++ 0x20 :: r.name.text)

/-- The lines printed with `--layout`, and with `--expect-bios` if it is given.
Source: `ifd-layout.py` `main`
Kind: D -/
def layout (expected : Option Line) (data : List UInt8) : Except DescriptorError (List Line) := do
  let regions ← decode data
  let used := regions.filter Region.used
  if let some expected := expected then
    checkBios expected used
  return (used.mergeSort fun a b => a.base ≤ b.base).map layoutLine

/-! ### What the decoding looks at -/

lemma regionsFrom_congr {data data' : List UInt8} (hlength : data.length = data'.length)
    (frba : ℕ) :
    ∀ (names : List RegionName) (i : ℕ),
      (∀ k < frba + 4 * (i + names.length), pointer data k = pointer data' k) →
      regionsFrom data frba i names = regionsFrom data' frba i names
  | [], _, _ => rfl
  | name :: names, i, h => by
      rw [List.length_cons] at h
      have hword : readLe32 (pointer data) (frba + 4 * i) =
          readLe32 (pointer data') (frba + 4 * i) := readLe32_congr fun k hk => h _ (by omega)
      have hrest := regionsFrom_congr hlength frba names (i + 1) fun k hk => h k (by omega)
      rw [regionsFrom, regionsFrom, hlength, hword, hrest]

/-- The registers stand in the first page, or just behind it. Kind: L -/
theorem decode_congr {data data' : List UInt8} (hlength : data.length = data'.length)
    (h : ∀ k < 0x1004, pointer data k = pointer data' k) : decode data = decode data' := by
  have hsig : readLe32 (pointer data) flvalsigOffset = readLe32 (pointer data') flvalsigOffset :=
    readLe32_congr fun k hk => h _ (by rw [flvalsigOffset]; omega)
  have hmap : readLe32 (pointer data) 0x14 = readLe32 (pointer data') 0x14 :=
    readLe32_congr fun k hk => h _ (by omega)
  have hfrba : (readLe32 (pointer data') 0x14 >>> 16 &&& 0xFF).toNat <<< 4 ≤ 0xFF0 := by
    rw [UInt32.toNat_and, Nat.shiftLeft_eq]
    have hle : (readLe32 (pointer data') 0x14 >>> 16).toNat &&& (0xFF : UInt32).toNat ≤ 0xFF :=
      Nat.and_le_right
    omega
  unfold decode
  rw [hlength, hsig, hmap]
  simp only
  rw [regionsFrom_congr hlength _ regionNames 0 fun k hk => h k ?_]
  rw [show regionNames.length = 5 from rfl] at hk
  omega

/-! ### The line of the BIOS region -/

/-- The parts of a line between blanks. Kind: D -/
def fields (line : Line) : List Line := (line.splitOn 0x20).filter (· ≠ [])

lemma splitOn_append_cons {a : UInt8} {l rest : List UInt8} (h : a ∉ l) :
    (l ++ a :: rest).splitOn a = l :: rest.splitOn a := by
  refine List.splitOnP_append_cons_of_forall_mem (p := (· == a)) (fun x hx => ?_) a
    (beq_self_eq_true a) rest
  exact beq_eq_false_iff_ne.mpr fun hxa => h (hxa ▸ hx)

lemma splitOn_of_notMem {a : UInt8} {l : List UInt8} (h : a ∉ l) : l.splitOn a = [l] :=
  List.splitOnP_eq_singleton fun _ hx => beq_eq_false_iff_ne.mpr fun hxa => h (hxa ▸ hx)

lemma notMem_hexadecimal {a : UInt8} (width n : ℕ)
    (ha : ∀ d < 16, HexCase.lower.digit d ≠ a) :
    a ∉ hexadecimal .lower width n := by
  intro h
  obtain ⟨d, hd, rfl⟩ := mem_hexadecimal h
  exact ha d hd rfl

lemma range_text (r : Region) :
    (hex08 r.base ++ 0x3A :: hex08 r.limit).splitOn 0x3A =
      [hex08 r.base, hex08 r.limit] := by
  rw [splitOn_append_cons (notMem_hexadecimal 8 r.base (by decide)),
    splitOn_of_notMem (notMem_hexadecimal 8 r.limit (by decide))]

/-- A line of the layout has two parts, the range and the name. Kind: L -/
theorem fields_layoutLine (r : Region) :
    fields (layoutLine r) =
      [hex08 r.base ++ 0x3A :: hex08 r.limit, r.name.text] := by
  have hrange : (0x20 : UInt8) ∉ hex08 r.base ++ 0x3A :: hex08 r.limit := by
    rw [List.mem_append, List.mem_cons, not_or, not_or]
    exact ⟨notMem_hexadecimal 8 r.base (by decide), by decide,
      notMem_hexadecimal 8 r.limit (by decide)⟩
  have hname : (0x20 : UInt8) ∉ r.name.text ∧ r.name.text ≠ [] := by
    cases r.name <;> decide
  have hline : layoutLine r =
      (hex08 r.base ++ 0x3A :: hex08 r.limit) ++ 0x20 :: r.name.text := by
    rw [layoutLine, List.append_assoc, List.cons_append]
  have hfirst : hex08 r.base ++ 0x3A :: hex08 r.limit ≠ [] :=
    List.append_ne_nil_of_left_ne_nil (hexadecimal_ne_nil 7 r.base) _
  rw [fields, hline, splitOn_append_cons hrange, splitOn_of_notMem hname.1]
  simp [hname.2, hfirst]

lemma text_eq_bios_iff (name : RegionName) : name.text = ascii "bios" ↔ name = .bios := by
  cases name <;> decide

/-- A program that looks at the lines of the BIOS region only. Kind: L -/
theorem filterMap_layoutLine {β : Type*} {f : Line → Option β} {g : Region → β} :
    ∀ {regions : List Region},
      (∀ r ∈ regions, f (layoutLine r) = if r.name = .bios then some (g r) else none) →
      (regions.map layoutLine).filterMap f = (regions.filter (·.name = .bios)).map g
  | [], _ => rfl
  | r :: regions, h => by
      rw [List.forall_mem_cons] at h
      rw [List.map_cons, List.filterMap_cons, h.1, filterMap_layoutLine h.2]
      by_cases hname : r.name = .bios
      · rw [if_pos hname, List.filter_cons_of_pos (by simpa using hname), List.map_cons]
      · rw [if_neg hname, List.filter_cons_of_neg (by simpa using hname)]

lemma map_name_regionsFrom (data : List UInt8) (frba : ℕ) : ∀ (names : List RegionName) (i : ℕ),
    (regionsFrom data frba i names).map Region.name <+: names
  | [], _ => List.prefix_rfl
  | name :: names, i => by
      rw [regionsFrom]
      split_ifs
      · exact List.nil_prefix
      · rw [List.map_cons]
        exact (List.prefix_cons_inj name).mpr (map_name_regionsFrom data frba names (i + 1))

/-- No region is listed twice. Kind: L -/
theorem nodup_names_of_decode {data : List UInt8} {regions : List Region}
    (h : decode data = .ok regions) : (regions.map Region.name).Nodup := by
  unfold decode at h
  simp only at h
  split_ifs at h
  cases h
  exact (map_name_regionsFrom data _ regionNames 0).sublist.nodup (by decide)

/-- Under a key that comes once, looking for it is keeping it. Kind: L -/
theorem filter_eq_of_find? {used : List Region} (hnodup : (used.map Region.name).Nodup)
    {name : RegionName} {r : Region} (hfind : used.find? (·.name = name) = some r) :
    used.filter (·.name = name) = [r] := by
  induction used with
  | nil => cases hfind
  | cons x used ih =>
      rw [List.map_cons, List.nodup_cons] at hnodup
      by_cases hx : x.name = name
      · rw [List.find?_cons_of_pos (by simpa using hx)] at hfind
        cases hfind
        have hrest : used.filter (·.name = name) = [] := by
          refine List.filter_eq_nil_iff.mpr fun y hy hname => hnodup.1 ?_
          rw [hx, ← of_decide_eq_true hname]
          exact List.mem_map_of_mem hy
        rw [List.filter_cons_of_pos (by simpa using hx), hrest]
      · rw [List.find?_cons_of_neg (by simpa using hx)] at hfind
        rw [List.filter_cons_of_neg (by simpa using hx), ih hnodup.2 hfind]

/-- What `--expect-bios` lets through. Kind: L -/
theorem checkBios_eq_ok {expected : Line} {base limit : ℕ} {used : List Region}
    (hexpected : (expected.splitOn 0x3A).map int0 = [some base, some limit])
    (h : checkBios expected used = .ok ()) :
    used.find? (·.name = .bios) = some ⟨.bios, base, limit⟩ := by
  unfold checkBios at h
  rw [hexpected] at h
  rcases hfind : used.find? (·.name = .bios) with _ | ⟨name, b, l⟩
  · rw [hfind] at h
    cases h
  · have hname : name = .bios := by simpa using List.find?_some hfind
    rw [hfind] at h
    by_cases hbounds : (b, l) = (base, limit)
    · cases hbounds
      rw [hfind, hname]
    · simp only [ne_eq, hbounds, not_false_eq_true, if_true] at h
      cases h

/-- What `--layout` prints for a dump that has the bounds expected: the lines of its regions, among
them one for the BIOS region, which has these bounds. Kind: L -/
theorem layout_eq_ok {expected : Line} {base limit : ℕ} {data : List UInt8} {lines : List Line}
    (hexpected : (expected.splitOn 0x3A).map int0 = [some base, some limit])
    (h : layout (some expected) data = .ok lines) :
    layout none data = .ok lines ∧ ∃ sorted : List Region, lines = sorted.map layoutLine ∧
      sorted.filter (·.name = .bios) = [⟨.bios, base, limit⟩] := by
  unfold layout at h ⊢
  rcases hdecode : decode data with e | regions
  · rw [hdecode] at h
    cases h
  · rw [hdecode] at h
    set used := regions.filter Region.used with hused
    change (checkBios expected used >>= fun _ => _) = _ at h
    rcases hcheck : checkBios expected used with e | u
    · rw [hcheck] at h
      cases h
    · rw [hcheck] at h
      cases h
      refine ⟨rfl, _, rfl, ?_⟩
      -- sorting moves the line of the region, but there is only the one
      have hnodup : (used.map Region.name).Nodup :=
        (List.filter_sublist.map Region.name).nodup (nodup_names_of_decode hdecode)
      have hperm := (List.mergeSort_perm used fun a b => decide (a.base ≤ b.base)).filter
        fun r => decide (r.name = .bios)
      rwa [filter_eq_of_find? hnodup (checkBios_eq_ok hexpected hcheck),
        List.perm_singleton] at hperm

end NucBios.Flash
