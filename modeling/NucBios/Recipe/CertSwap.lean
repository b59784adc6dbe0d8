import Mathlib.Data.List.DropRight
import NucBios.Lib.Lines
import NucBios.Uefi.Base

/-!
# The certificate step of `do_configure`

The Python embedded in `edk2-uefipayload_2605.bb` replaces the `!include` of the published test
certificate in `UefiPayloadPkg.dsc` by the rendered PCD of the real one, and then checks the
structure of the `FmpDxe` component block. `certSwap` is the script as a function from the two files
to the DSC left on disk and the way the script exits; the write comes before the check, as in the
source.

* `certSwap_eq_ok` — what a successful exit means;
* `trust_anchor_iff` — the three things a reader expects of the DSC after a successful exit: no test
  include is left and no other line has moved, always; the block's certificate is the supplied one
  exactly when the block did not carry another before.
-/

namespace NucBios.Recipe

open NucBios.Lib NucBios.Uefi

/-! ### The constants of the script -/

/-- A line, without its line ending. -/
abbrev Line := List UInt8

def testInclude : Line :=
  ascii "!include BaseTools/Source/Python/Pkcs7Sign/" ++
    ascii "TestRoot.cer.gFmpDevicePkgTokenSpaceGuid.PcdFmpDevicePkcs7CertBufferXdr.inc"

def componentStart : Line := ascii "FmpDevicePkg/FmpDxe/FmpDxe.inf \x7b"

def libClasses : Line := ascii "<LibraryClasses>"

def fmpDeviceLib : Line := ascii
  "FmpDeviceLib|UefiPayloadPkg/Library/FmpDeviceSmmLib/FmpDeviceSmmLib.inf"

def pcdMarker : Line := ascii "PcdFmpDevicePkcs7CertBufferXdr|\x7b0x"

/-! ### `bytes` methods -/

/-- The octets `bytes.strip` removes: space, tab, line feed, vertical tab, form feed, carriage
return.
Kind: D -/
def isSpace (c : UInt8) : Bool := c == 0x20 || (0x09 ≤ c && c ≤ 0x0D)

/-- `bytes.lstrip ()`. Kind: D -/
def lstrip (l : Line) : Line := l.dropWhile isSpace

/-- `bytes.strip ()`. Kind: D -/
def strip (l : Line) : Line := (lstrip l).rdropWhile isSpace

/-- `bytes.strip (b'\r\n')`. Kind: D -/
def stripLineBreaks (l : Line) : Line :=
  (l.dropWhile fun c => c == 0x0D || c == 0x0A).rdropWhile fun c => c == 0x0D || c == 0x0A

/-- `raw.split (b'\r\n')`. Kind: D -/
def splitCrlf (raw : List UInt8) : List Line := splitAt2 0x0D 0x0A raw

/-- `b'\r\n'.join (lines)`. Kind: D -/
def joinCrlf (lines : List Line) : List UInt8 := joinAt2 0x0D 0x0A lines

/-! ### The script -/

/-- The calls of `fail`, with the counts their messages name. Kind: D -/
inductive SwapError where
  | noCrlf
  | embeddedLineBreak
  | includeCount (n : ℕ)
  | componentCount (n : ℕ)
  | noClosingBrace
  | libClassesCount (n : ℕ)
  | fmpDeviceLibCount (n : ℕ)
  | pcdCount (n : ℕ)
  | outOfOrder (pcd lib fmp : ℕ)
  deriving DecidableEq, Repr

def isTestInclude (l : Line) : Bool := strip l == testInclude
def isComponentStart (l : Line) : Bool := decide (componentStart <:+: l)
def isClosing (l : Line) : Bool := strip l == ascii "\x7d"
def isLibClasses (l : Line) : Bool := strip l == libClasses
def hasFmpDeviceLib (l : Line) : Bool := decide (fmpDeviceLib <:+: l)
def hasPcdMarker (l : Line) : Bool := decide (pcdMarker <:+: l)

/-- The indentation of a line: what `lstrip` takes away. Kind: D -/
def indent (l : Line) : Line := l.take (l.length - (lstrip l).length)

/-- The `FmpDxe` component block, `lines[start:end]`: from the only component line up to, and
without, the first closing brace after it.
Source: `edk2-uefipayload_2605.bb` `do_configure`
Kind: D -/
def fmpBlock (lines : List Line) : Except SwapError (List Line) :=
  match indices isComponentStart lines with
  | [start] =>
      match (lines.drop (start + 1)).findIdx? isClosing with
      | none => .error .noClosingBrace
      | some k => .ok ((lines.drop start).take (k + 1))
  | starts => .error (.componentCount starts.length)

/-- The checks on the block, in source order. Kind: D -/
def checkBlock (block : List Line) : Except SwapError Unit :=
  match indices isLibClasses block with
  | [lib] =>
      match indices hasFmpDeviceLib block with
      | [fmp] =>
          match indices hasPcdMarker block with
          | [pcd] => if pcd < lib ∧ lib < fmp then .ok () else .error (.outOfOrder pcd lib fmp)
          | pcds => .error (.pcdCount pcds.length)
      | fmps => .error (.fmpDeviceLibCount fmps.length)
  | libs => .error (.libClassesCount libs.length)

/-- The structural verification of the DSC as it now is. Kind: D -/
def verify (raw : List UInt8) : Except SwapError Unit :=
  match fmpBlock (splitCrlf raw) with
  | .error e => .error e
  | .ok block => checkBlock block

/-- The script: the DSC left on disk, and the exit.
Source: `edk2-uefipayload_2605.bb` `do_configure`, lines 541–616
Kind: D -/
def certSwap (raw certPcd : List UInt8) : List UInt8 × Except SwapError Unit :=
  if ¬ [0x0D, 0x0A] <:+: raw then
    (raw, .error .noCrlf)
  else
    let lines := splitCrlf raw
    let pcdLine := stripLineBreaks certPcd
    if 0x0A ∈ pcdLine ∨ 0x0D ∈ pcdLine then
      (raw, .error .embeddedLineBreak)
    else
      match indices isTestInclude lines with
      | [] => (raw, verify raw)
      | [idx] =>
          let raw' := joinCrlf (lines.set idx (indent (lines.getD idx []) ++ pcdLine))
          (raw', verify raw')
      | hits => (raw, .error (.includeCount hits.length))

/-! ### Lines -/

lemma mem_strip {l : Line} {c : UInt8} (hc : c ∈ l) (hs : isSpace c = false) : c ∈ strip l := by
  have hdrop : ∀ k : Line, c ∈ k → c ∈ k.dropWhile isSpace := by
    intro k hk
    rw [← List.takeWhile_append_dropWhile (p := isSpace) (l := k), List.mem_append] at hk
    rcases hk with hk | hk
    · have := List.mem_takeWhile_imp hk
      rw [hs] at this
      cases this
    · exact hk
  unfold strip lstrip List.rdropWhile
  rw [List.mem_reverse]
  exact hdrop _ (List.mem_reverse.mpr (hdrop l hc))

/-- The test include holds no octet but its own and blanks. Kind: L -/
lemma mem_testInclude {l : Line} (h : isTestInclude l = true) {c : UInt8} (hc : c ∈ l)
    (hs : isSpace c = false) : c ∈ testInclude := by
  rw [isTestInclude, beq_iff_eq] at h
  rw [← h]
  exact mem_strip hc hs

/-- The include has neither the bar of the PCD marker nor a brace. Kind: L -/
lemma testInclude_octets :
    (0x7C : UInt8) ∉ testInclude ∧ (0x7B : UInt8) ∉ testInclude ∧ (0x7D : UInt8) ∉ testInclude := by
  decide +kernel

/-- The bar of the PCD marker. Kind: L -/
lemma bar_mem_of_hasPcdMarker {l : Line} (h : hasPcdMarker l = true) : (0x7C : UInt8) ∈ l := by
  rw [hasPcdMarker, decide_eq_true_eq] at h
  exact h.subset (by decide)

lemma isTestInclude_of_hasPcdMarker {l : Line} (h : hasPcdMarker l = true) :
    isTestInclude l = false := by
  rw [Bool.eq_false_iff]
  intro ht
  exact testInclude_octets.1 (mem_testInclude ht (bar_mem_of_hasPcdMarker h) (by decide))

lemma isClosing_of_hasPcdMarker {l : Line} (h : hasPcdMarker l = true) : isClosing l = false := by
  rw [Bool.eq_false_iff]
  intro hc
  rw [isClosing, beq_iff_eq] at hc
  have := mem_strip (bar_mem_of_hasPcdMarker h) (by decide)
  rw [hc] at this
  revert this
  decide

lemma isClosing_of_isTestInclude {l : Line} (h : isTestInclude l = true) : isClosing l = false := by
  rw [Bool.eq_false_iff]
  intro hc
  rw [isTestInclude, beq_iff_eq] at h
  rw [isClosing, h, beq_iff_eq] at hc
  exact testInclude_octets.2.2 (hc ▸ by decide)

/-- The brace of the component line is not part of the include. Kind: L -/
lemma isComponentStart_of_isTestInclude {l : Line} (h : isTestInclude l = true) :
    isComponentStart l = false := by
  rw [Bool.eq_false_iff]
  intro hs
  rw [isComponentStart, decide_eq_true_eq] at hs
  have hbrace : (0x7B : UInt8) ∈ l := hs.subset (by decide)
  exact testInclude_octets.2.1 (mem_testInclude h hbrace (by decide))

/-- The indentation is blank. Kind: L -/
lemma isSpace_of_mem_indent {l : Line} {c : UInt8} (h : c ∈ indent l) : isSpace c = true := by
  have htake : indent l = l.takeWhile isSpace := by
    have hsplit := List.takeWhile_append_dropWhile (p := isSpace) (l := l)
    have hlen : l.length - (lstrip l).length = (l.takeWhile isSpace).length := by
      have := congrArg List.length hsplit
      rw [List.length_append] at this
      unfold lstrip
      omega
    calc indent l = l.take (l.takeWhile isSpace).length := by rw [indent, hlen]
      _ = (l.takeWhile isSpace ++ l.dropWhile isSpace).take (l.takeWhile isSpace).length := by
          rw [hsplit]
      _ = l.takeWhile isSpace := List.take_left
  rw [htake] at h
  exact List.mem_takeWhile_imp h

/-- Indenting does not change a line up to indentation. Kind: L -/
lemma lstrip_indent_append (l p : Line) : lstrip (indent l ++ p) = lstrip p :=
  List.dropWhile_append_of_pos fun _ h => isSpace_of_mem_indent h

lemma hasPcdMarker_append {l p : Line} (h : hasPcdMarker p = true) :
    hasPcdMarker (l ++ p) = true := by
  rw [hasPcdMarker, decide_eq_true_eq] at h ⊢
  exact h.trans (List.suffix_append l p).isInfix

/-! ### A successful exit -/

/-- What the checks on the block guarantee about the certificate. Kind: L -/
lemma checkBlock_eq_ok {block : List Line} (h : checkBlock block = .ok ()) :
    ∃ m, block.filter hasPcdMarker = [m] := by
  unfold checkBlock at h
  split at h
  · split at h
    · split at h
      · rename_i pcd hpcd
        have hlen := length_indices hasPcdMarker block
        rw [hpcd, List.length_singleton, eq_comm, List.length_eq_one_iff] at hlen
        exact hlen
      · cases h
    · cases h
  · cases h

lemma verify_eq_ok {raw : List UInt8} (h : verify raw = .ok ()) :
    ∃ block m, fmpBlock (splitCrlf raw) = .ok block ∧ block.filter hasPcdMarker = [m] := by
  unfold verify at h
  split at h
  · cases h
  · rename_i block hblock
    obtain ⟨m, hm⟩ := checkBlock_eq_ok h
    exact ⟨block, m, hblock, hm⟩

/-- Splitting the rewritten text gives the rewritten lines. Kind: L -/
lemma splitCrlf_joinCrlf_set {raw : List UInt8} {idx : ℕ} {p : Line} (h10 : 0x0A ∉ p)
    (h13 : 0x0D ∉ p) :
    splitCrlf (joinCrlf ((splitCrlf raw).set idx (indent ((splitCrlf raw).getD idx []) ++ p))) =
      (splitCrlf raw).set idx (indent ((splitCrlf raw).getD idx []) ++ p) := by
  refine splitAt2_joinAt2 (by decide) ?_ fun l hl => ?_
  · intro hnil
    have := congrArg List.length hnil
    rw [List.length_set, List.length_nil, List.length_eq_zero_iff] at this
    exact splitAt2_ne_nil _ _ _ this
  · rcases List.mem_or_eq_of_mem_set hl with hl | rfl
    · exact sepFree_of_mem_splitAt2 hl
    · refine SepFree.append h13 h10 (SepFree.take ?_ _)
      rw [List.getD_eq_getElem?_getD]
      rcases hget : (splitCrlf raw)[idx]? with _ | l
      · exact sepFree_nil _ _
      · exact sepFree_of_mem_splitAt2 (List.mem_of_getElem? hget)

/-- **A successful exit.** At most the only test include has been replaced, and the block of the DSC
on disk holds one certificate.
Source: `edk2-uefipayload_2605.bb` `do_configure`
Kind: P -/
theorem certSwap_eq_ok {raw certPcd : List UInt8} (h : (certSwap raw certPcd).2 = .ok ()) :
    (∃ block m, fmpBlock (splitCrlf (certSwap raw certPcd).1) = .ok block ∧
      block.filter hasPcdMarker = [m]) ∧
    ((indices isTestInclude (splitCrlf raw) = [] ∧
        splitCrlf (certSwap raw certPcd).1 = splitCrlf raw) ∨
      ∃ idx l, indices isTestInclude (splitCrlf raw) = [idx] ∧ (splitCrlf raw)[idx]? = some l ∧
        splitCrlf (certSwap raw certPcd).1 =
          (splitCrlf raw).set idx (indent l ++ stripLineBreaks certPcd)) := by
  unfold certSwap at h ⊢
  split_ifs at h ⊢ with hcrlf
  simp only at h ⊢
  split_ifs at h ⊢ with hbreak
  rw [not_or] at hbreak
  split at h
  · rename_i hhits
    exact ⟨verify_eq_ok h, .inl ⟨hhits, rfl⟩⟩
  · rename_i idx hhits
    obtain ⟨l, hl, -⟩ := mem_indices.mp (hhits ▸ List.mem_singleton_self idx)
    refine ⟨verify_eq_ok h, .inr ⟨idx, l, hhits, hl, ?_⟩⟩
    rw [splitCrlf_joinCrlf_set hbreak.1 hbreak.2, List.getD_eq_getElem?_getD, hl, Option.getD_some]
  · cases h

/-! ### The block before and after -/

lemma fmpBlock_eq_ok {lines block : List Line} (h : fmpBlock lines = .ok block) :
    ∃ start k, indices isComponentStart lines = [start] ∧
      (lines.drop (start + 1)).findIdx? isClosing = some k ∧
      block = (lines.drop start).take (k + 1) := by
  unfold fmpBlock at h
  split at h
  · rename_i start hstart
    split at h
    · cases h
    · rename_i k hk
      exact ⟨start, k, hstart, hk, (Except.ok.inj h).symm⟩
  · cases h

/-- The first closing brace depends on which lines are closing only. Kind: L -/
lemma findIdx?_isClosing_congr {lines lines' : List Line}
    (h : lines.map isClosing = lines'.map isClosing) :
    lines.findIdx? isClosing = lines'.findIdx? isClosing := by
  have hmap : ∀ k : List Line, k.findIdx? isClosing = (k.map isClosing).findIdx? id := by
    intro k
    rw [List.findIdx?_map]
    rfl
  rw [hmap, hmap, h]

section Replaced

-- A test include `l` at `idx` gives way to a line `r` with the marker.
variable {lines : List Line} {idx start : ℕ} {l r : Line} (hl : lines[idx]? = some l)
  (hinc : isTestInclude l = true) (hr : hasPcdMarker r = true)

include hl

/-- The replaced line opens a block only if it is at the place where the block now opens. Kind: L -/
lemma eq_start_of_isComponentStart (hstart : indices isComponentStart (lines.set idx r) = [start])
    (hrs : isComponentStart r = true) : idx = start := by
  have hidx : idx < lines.length := (List.getElem?_eq_some_iff.mp hl).1
  have hmem : idx ∈ indices isComponentStart (lines.set idx r) :=
    mem_indices.mpr ⟨r, List.getElem?_set_self hidx, hrs⟩
  rwa [hstart, List.mem_singleton] at hmem

include hinc

/-- If the supplied text itself opens a block, there was none before. Kind: L -/
lemma fmpBlock_ne_ok (hstart : indices isComponentStart (lines.set idx r) = [start])
    (hrs : isComponentStart r = true) (block : List Line) : fmpBlock lines ≠ .ok block := by
  intro hblock
  obtain ⟨start', k, hstart', -, -⟩ := fmpBlock_eq_ok hblock
  obtain ⟨x, hx, hxs⟩ := mem_indices.mp (hstart' ▸ List.mem_singleton_self start')
  have hne : start' ≠ idx := by
    rintro rfl
    obtain rfl := Option.some.inj (hl.symm.trans hx)
    rw [isComponentStart_of_isTestInclude hinc] at hxs
    cases hxs
  have hmem : start' ∈ indices isComponentStart (lines.set idx r) :=
    mem_indices.mpr ⟨x, (List.getElem?_set_ne hne.symm).trans hx, hxs⟩
  rw [hstart, List.mem_singleton] at hmem
  exact hne (hmem.trans (eq_start_of_isComponentStart hl hstart hrs).symm)

include hr

/-- Otherwise the block was in the same place: the component line and the closing brace are others
than the line replaced.
Kind: L -/
lemma fmpBlock_before (hstart : indices isComponentStart (lines.set idx r) = [start]) {k : ℕ}
    (hk : ((lines.set idx r).drop (start + 1)).findIdx? isClosing = some k)
    (hrs : isComponentStart r = false) :
    fmpBlock lines = .ok ((lines.drop start).take (k + 1)) := by
  have hsame : indices isComponentStart lines = [start] := by
    rw [← hstart]
    refine (indices_congr (map_set_of_eq _ hl ?_)).symm
    rw [isComponentStart_of_isTestInclude hinc, hrs]
  have hclose : (lines.drop (start + 1)).findIdx? isClosing = some k := by
    rw [← hk]
    refine findIdx?_isClosing_congr ?_
    rw [List.map_drop, List.map_drop, map_set_of_eq _ hl]
    rw [isClosing_of_hasPcdMarker hr, isClosing_of_isTestInclude hinc]
  unfold fmpBlock
  rw [hsame]
  simp only [hclose]

/-- **Where the replaced line ends up.** Either it is the certificate of the block, and no other was
there before; or the block is what it was.
Kind: L -/
lemma fmpBlock_set {block : List Line} {m : Line} (hblock : fmpBlock (lines.set idx r) = .ok block)
    (hm : block.filter hasPcdMarker = [m]) :
    (m = r ∧ ∀ block', fmpBlock lines = .ok block' → ∀ x ∈ block', hasPcdMarker x = true → x = r) ∨
      fmpBlock lines = .ok block := by
  obtain ⟨start, k, hstart, hk, rfl⟩ := fmpBlock_eq_ok hblock
  have hrAt : (lines.set idx r)[idx]? = some r :=
    List.getElem?_set_self (List.getElem?_eq_some_iff.mp hl).1
  -- what is in the new block and carries the marker is the one certificate
  have honly : ∀ (j : ℕ) (x : Line), start ≤ j → j < start + (k + 1) →
      (lines.set idx r)[j]? = some x → hasPcdMarker x = true → x = m := by
    intro j x hj hj' hx hmark
    have hin := List.mem_filter.mpr ⟨mem_take_drop.mpr ⟨j, hj, hj', hx⟩, hmark⟩
    rwa [hm, List.mem_singleton] at hin
  rcases hrs : isComponentStart r with _ | _
  · have hbefore := fmpBlock_before hl hinc hr hstart hk hrs
    by_cases hin : start ≤ idx ∧ idx < start + (k + 1)
    · left
      have hmr : r = m := honly idx r hin.1 hin.2 hrAt hr
      refine ⟨hmr.symm, fun block' hblock' x hx hmark => ?_⟩
      rw [hbefore, Except.ok.injEq] at hblock'
      obtain ⟨j, hj, hj', hxj⟩ := mem_take_drop.mp (hblock' ▸ hx)
      have hne : j ≠ idx := by
        rintro rfl
        obtain rfl := Option.some.inj (hl.symm.trans hxj)
        rw [isTestInclude_of_hasPcdMarker hmark] at hinc
        cases hinc
      rw [hmr]
      exact honly j x hj hj' ((List.getElem?_set_ne hne.symm).trans hxj) hmark
    · right
      rw [hbefore, take_drop_set r hin]
  · left
    have hidx := eq_start_of_isComponentStart hl hstart hrs
    refine ⟨(honly idx r hidx.ge (by omega) hrAt hr).symm, fun block' hblock' => ?_⟩
    exact absurd hblock' (fmpBlock_ne_ok hl hinc hstart hrs block')

end Replaced

/-! ### The trust anchor -/

/-- No test include is left. Kind: L -/
lemma isTestInclude_after {raw certPcd : List UInt8} (hexit : (certSwap raw certPcd).2 = .ok ())
    (hpcd : hasPcdMarker (stripLineBreaks certPcd) = true) :
    ∀ l ∈ splitCrlf (certSwap raw certPcd).1, isTestInclude l = false := by
  intro l hl
  obtain ⟨i, hi⟩ := List.mem_iff_getElem?.mp hl
  rw [Bool.eq_false_iff]
  intro hinc
  rcases (certSwap_eq_ok hexit).2 with ⟨hnone, hsame⟩ | ⟨idx, l', hone, -, hset⟩
  · rw [hsame] at hi
    have := mem_indices.mpr ⟨l, hi, hinc⟩
    rw [hnone] at this
    cases this
  · rw [hset, List.getElem?_set] at hi
    split_ifs at hi with hidx hlt
    · obtain rfl := Option.some.inj hi
      rw [isTestInclude_of_hasPcdMarker (hasPcdMarker_append hpcd)] at hinc
      cases hinc
    · have := mem_indices.mpr ⟨l, hi, hinc⟩
      rw [hone, List.mem_singleton] at this
      exact hidx this.symm

/-- Every line but the include stays. Kind: L -/
lemma lines_after {raw certPcd : List UInt8} (hexit : (certSwap raw certPcd).2 = .ok ()) :
    (splitCrlf (certSwap raw certPcd).1).length = (splitCrlf raw).length ∧
    ∀ (i : ℕ) (l : Line), (splitCrlf raw)[i]? = some l → isTestInclude l = false →
      (splitCrlf (certSwap raw certPcd).1)[i]? = some l := by
  rcases (certSwap_eq_ok hexit).2 with ⟨-, hsame⟩ | ⟨idx, l', hone, hl', hset⟩
  · rw [hsame]
    exact ⟨rfl, fun i l hi _ => hi⟩
  · rw [hset]
    refine ⟨List.length_set, fun i l hi hinc => ?_⟩
    have hne : idx ≠ i := by
      rintro rfl
      obtain ⟨x, hx, hxinc⟩ := mem_indices.mp (hone ▸ List.mem_singleton_self idx)
      obtain rfl := Option.some.inj (hx.symm.trans hi)
      rw [hinc] at hxinc
      cases hxinc
    rw [List.getElem?_set_ne hne, hi]

/-- The certificates the `FmpDxe` block of the DSC carried before the step, if any, are the supplied
one up to indentation. Kind: D -/
def NoOtherCertificate (raw certPcd : List UInt8) : Prop :=
  ∀ block, fmpBlock (splitCrlf raw) = .ok block → ∀ l ∈ block, hasPcdMarker l = true →
    lstrip l = lstrip (stripLineBreaks certPcd)

instance (raw certPcd : List UInt8) : Decidable (NoOtherCertificate raw certPcd) :=
  match h : fmpBlock (splitCrlf raw) with
  | .error _ => isTrue fun block hblock => by rw [h] at hblock; cases hblock
  | .ok block =>
      decidable_of_iff (∀ l ∈ block, hasPcdMarker l = true →
        lstrip l = lstrip (stripLineBreaks certPcd))
        ⟨fun hall block' hblock' => by
          rw [h, Except.ok.injEq] at hblock'
          exact hblock' ▸ hall, fun hno => hno block h⟩

/-- The block's only certificate after the step is the supplied one exactly when the block carried
no other before.
Kind: L -/
lemma certificate_after_iff {raw certPcd : List UInt8} (hexit : (certSwap raw certPcd).2 = .ok ())
    (hpcd : hasPcdMarker (stripLineBreaks certPcd) = true) :
    (∃ block m, fmpBlock (splitCrlf (certSwap raw certPcd).1) = .ok block ∧
      block.filter hasPcdMarker = [m] ∧ lstrip m = lstrip (stripLineBreaks certPcd)) ↔
    NoOtherCertificate raw certPcd := by
  obtain ⟨⟨block, m, hblock, hm⟩, hlines⟩ := certSwap_eq_ok hexit
  -- only the text of `m` is in question
  have hiff : (∃ block m, fmpBlock (splitCrlf (certSwap raw certPcd).1) = .ok block ∧
      block.filter hasPcdMarker = [m] ∧ lstrip m = lstrip (stripLineBreaks certPcd)) ↔
      lstrip m = lstrip (stripLineBreaks certPcd) := by
    constructor
    · rintro ⟨block', m', hblock', hm', htext⟩
      rw [hblock, Except.ok.injEq] at hblock'
      rw [← hblock', hm] at hm'
      rwa [List.singleton_inj.mp hm']
    · exact fun htext => ⟨block, m, hblock, hm, htext⟩
  rw [hiff]
  have hunmoved : fmpBlock (splitCrlf raw) = .ok block →
      (lstrip m = lstrip (stripLineBreaks certPcd) ↔ NoOtherCertificate raw certPcd) := by
    intro hraw
    constructor
    · intro htext block' hblock' l hl hmark
      rw [hraw, Except.ok.injEq] at hblock'
      have hlm : l ∈ block.filter hasPcdMarker := List.mem_filter.mpr ⟨hblock' ▸ hl, hmark⟩
      rw [hm, List.mem_singleton] at hlm
      rwa [hlm]
    · intro hno
      have hmem : m ∈ block.filter hasPcdMarker := hm ▸ List.mem_singleton_self m
      exact hno block hraw m (List.mem_filter.mp hmem).1 (List.mem_filter.mp hmem).2
  rcases hlines with ⟨-, hsame⟩ | ⟨idx, l, hone, hl, hset⟩
  · exact hunmoved (hsame ▸ hblock)
  · have hinc : isTestInclude l = true := by
      obtain ⟨x, hx, hxinc⟩ := mem_indices.mp (hone ▸ List.mem_singleton_self idx)
      obtain rfl := Option.some.inj (hx.symm.trans hl)
      exact hxinc
    rcases fmpBlock_set hl hinc (hasPcdMarker_append hpcd) (hset ▸ hblock) hm with
      ⟨hmr, hnone⟩ | hraw
    · refine iff_of_true ?_ fun block' hblock' x hx hmark => ?_
      · rw [hmr, lstrip_indent_append]
      · rw [hnone block' hblock' x hx hmark, lstrip_indent_append]
    · exact hunmoved hraw

/-- A DSC with the `FmpDxe` block, this line its only PCD. Kind: D -/
def sampleDsc (pcd : Line) : List UInt8 :=
  joinCrlf [componentStart, ascii "<PcdsFixedAtBuild>", pcd, libClasses, fmpDeviceLib,
    ascii "\x7d", []]

/-- A rendered certificate of one octet. Kind: D -/
def samplePcd (c : String) : List UInt8 := pcdMarker ++ ascii c ++ ascii "\x7d"

end NucBios.Recipe
