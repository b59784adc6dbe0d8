import Mathlib.Data.List.DropRight
import Mathlib.Data.Nat.Bitwise
import NucBios.Redfish.Drives

/-!
# `CopyIdentifyString`, access by access

`Redfish.Drives` has what `CopyIdentifyString` makes of its buffer. Here the function is run
statement by statement, over a field of which only the octets may be read and a buffer of which only
the first `writable` octets may be written; any other access ends the run (`none`).

* `runCopyIdentifyString_eq`: with a field of even width that is shorter than the buffer, and one
  octet more than the width writable, the run comes to its end and leaves what the model says.
* `copyIdentifyString_decodes`: what it leaves is the string of the specification, `identifyText`,
  with its terminator, and the rest of the buffer as it was.
-/

namespace NucBios.Redfish

open Uefi

/-! ### The run -/

section Run

/-- `Dest[index] = c`. Kind: D -/
def store (writable : ℕ) (dest : List UInt8) (index : ℕ) (c : UInt8) : Option (List UInt8) :=
  if index < writable ∧ index < dest.length then some (dest.set index c) else none

/-- `CopyMem (Dest, Dest + start, length)`. Kind: D -/
def copyMem (writable : ℕ) (dest : List UInt8) (start length : ℕ) : Option (List UInt8) :=
  if length ≤ writable ∧ start + length ≤ dest.length then
    some ((dest.drop start).take length ++ dest.drop length)
  else none

variable (writable : ℕ) (source : List UInt8) (swapPairs : Bool)

/-- The octet of the field that goes to a place of the buffer. Kind: D -/
def sourceIndex (index : ℕ) : ℕ := if swapPairs then index ^^^ 1 else index

/-- The copying loop, with `left` rounds to go. Kind: D -/
def identifyLoop : (left index : ℕ) → List UInt8 → Option (List UInt8)
  | 0, _, dest => some dest
  | left + 1, index, dest => do
      let c ← source[sourceIndex swapPairs index]?
      let dest ← store writable dest index c
      identifyLoop left (index + 1) dest

/-- `while ((Length > 0) && ((UINT8)Dest[Length - 1] <= ' ')) Length--;`. Kind: D -/
def trimLoop (dest : List UInt8) : ℕ → Option ℕ
  | 0 => some 0
  | length + 1 => do
      let c ← dest[length]?
      if c ≤ 0x20 then trimLoop dest length else some (length + 1)

/-- `while (Dest[Start] == ' ') Start++;`, from `start` on. Kind: D -/
def startLoop : List UInt8 → ℕ → Option ℕ
  | [], _ => none
  | c :: rest, start => if c = 0x20 then startLoop rest (start + 1) else some start

/-- Source: `NucRedfishInventory.c` `CopyIdentifyString`
Kind: D -/
def runCopyIdentifyString (dest : List UInt8) : Option (List UInt8) :=
  if dest.length = 0 then some dest
  else do
    let length := if dest.length ≤ source.length then dest.length - 1 else source.length
    let dest ← identifyLoop writable source swapPairs length 0 dest
    let length ← trimLoop dest length
    let dest ← store writable dest length 0
    let start ← startLoop dest 0
    if 0 < start then copyMem writable dest start (length - start + 1) else some dest

end Run

/-! ### What the run leaves alone -/

/-- The buffer keeps its size and what may not be written. Kind: D -/
structure Framed (writable : ℕ) (dest result : List UInt8) : Prop where
  length_eq : result.length = dest.length
  drop_eq : result.drop writable = dest.drop writable

lemma Framed.refl (writable : ℕ) (dest : List UInt8) : Framed writable dest dest := ⟨rfl, rfl⟩

lemma Framed.trans {writable : ℕ} {a b c : List UInt8} (hab : Framed writable a b)
    (hbc : Framed writable b c) : Framed writable a c :=
  ⟨hbc.length_eq.trans hab.length_eq, hbc.drop_eq.trans hab.drop_eq⟩

lemma framed_store {writable index : ℕ} {dest result : List UInt8} {c : UInt8}
    (h : store writable dest index c = some result) : Framed writable dest result := by
  unfold store at h
  split_ifs at h with hin
  cases h
  exact ⟨List.length_set, List.drop_set_of_lt hin.1⟩

lemma framed_copyMem {writable start length : ℕ} {dest result : List UInt8}
    (h : copyMem writable dest start length = some result) : Framed writable dest result := by
  unfold copyMem at h
  split_ifs at h with hin
  cases h
  have hlen : ((dest.drop start).take length).length = length := by
    rw [List.length_take, List.length_drop]
    omega
  refine ⟨?_, ?_⟩
  · rw [List.length_append, hlen, List.length_drop]
    omega
  · rw [List.drop_append, hlen, List.drop_drop, List.drop_eq_nil_of_le (hlen.trans_le hin.1),
      List.nil_append]
    congr 1
    omega

lemma framed_identifyLoop {writable : ℕ} {source : List UInt8} {swapPairs : Bool} :
    ∀ {left index : ℕ} {dest result : List UInt8},
      identifyLoop writable source swapPairs left index dest = some result →
        Framed writable dest result
  | 0, _, dest, _, h => by
      cases h
      exact .refl _ _
  | left + 1, index, dest, result, h => by
      simp only [identifyLoop, Option.bind_eq_bind, Option.bind_eq_some_iff] at h
      obtain ⟨c, -, next, hstore, hrest⟩ := h
      exact (framed_store hstore).trans (framed_identifyLoop hrest)

/-- A run that comes to its end wrote only where it may. Kind: L -/
theorem framed_run {writable : ℕ} {source dest result : List UInt8} {swapPairs : Bool}
    (h : runCopyIdentifyString writable source swapPairs dest = some result) :
    Framed writable dest result := by
  unfold runCopyIdentifyString at h
  by_cases hzero : dest.length = 0
  · rw [if_pos hzero] at h
    cases h
    exact .refl _ _
  · rw [if_neg hzero] at h
    simp only [Option.bind_eq_bind, Option.bind_eq_some_iff] at h
    obtain ⟨copied, hcopied, length, -, terminated, hterminated, start, -, hmoved⟩ := h
    refine ((framed_identifyLoop hcopied).trans (framed_store hterminated)).trans ?_
    split_ifs at hmoved
    · exact framed_copyMem hmoved
    · cases hmoved
      exact .refl _ _

/-! ### The run against the model -/

/-- Exchanging the octets of a word does not leave a field of even width. Kind: L -/
theorem sourceIndex_lt {swapPairs : Bool} {index width : ℕ} (heven : width % 2 = 0)
    (h : index < width) : sourceIndex swapPairs index < width := by
  unfold sourceIndex
  split_ifs
  · rcases Nat.even_or_odd index with hindex | hindex
    · rw [Nat.xor_one_of_even hindex]
      have := Nat.even_iff.mp hindex
      omega
    · rw [Nat.xor_one_of_odd hindex]
      omega
  · exact h

/-- The loop puts the octets it copies behind those it has copied. Kind: L -/
theorem identifyLoop_eq (writable : ℕ) {source : List UInt8} (swapPairs : Bool)
    (heven : source.length % 2 = 0) :
    ∀ (left : ℕ) (copied old : List UInt8), copied.length + left ≤ source.length →
      left ≤ old.length → copied.length + left ≤ writable →
      identifyLoop writable source swapPairs left copied.length (copied ++ old) =
        some (copied ++ ((List.range left).map fun i =>
          source.getD (sourceIndex swapPairs (copied.length + i)) 0) ++ old.drop left)
  | 0, copied, old, _, _, _ => by simp [identifyLoop]
  | left + 1, copied, [], _, hroom, _ => absurd hroom (by simp)
  | left + 1, copied, first :: old, hsource, hroom, hwritable => by
      have hread : sourceIndex swapPairs copied.length < source.length :=
        sourceIndex_lt heven (by omega)
      set c := source.getD (sourceIndex swapPairs copied.length) 0 with hc
      have hget : source[sourceIndex swapPairs copied.length]? = some c := by
        rw [hc, List.getElem?_eq_getElem hread, List.getD_eq_getElem _ _ hread]
      have hstore : store writable (copied ++ first :: old) copied.length c =
          some ((copied ++ [c]) ++ old) := by
        rw [store, if_pos ⟨by omega, by simp⟩, List.set_append_right _ _ le_rfl, Nat.sub_self,
          List.set_cons_zero, List.append_assoc, List.singleton_append]
      have hlen : (copied ++ [c]).length = copied.length + 1 := by simp
      have hrest := identifyLoop_eq writable swapPairs heven left (copied ++ [c]) old (by omega)
        (by simpa using hroom) (by omega)
      rw [hlen] at hrest
      simp only [identifyLoop, hget, hstore, Option.bind_eq_bind, Option.bind_some]
      rw [hrest, List.range_succ_eq_map, List.map_cons, List.map_map]
      simp only [Nat.add_zero, ← hc, List.append_assoc, List.cons_append, List.nil_append,
        List.drop_succ_cons, Function.comp_def, Nat.succ_eq_add_one, Nat.add_assoc,
        Nat.add_comm 1]

/-- The loop finds where the padding behind begins. Kind: L -/
theorem trimLoop_eq (dest : List UInt8) :
    ∀ {length : ℕ}, length ≤ dest.length →
      trimLoop dest length = some (trimmedLength (dest.take length))
  | 0, _ => by simp [trimLoop, trimmedLength]
  | length + 1, h => by
      have hlt : length < dest.length := h
      have hlast :
          (dest.take (length + 1)).reverse = dest[length] :: (dest.take length).reverse := by
        rw [List.take_succ_eq_append_getElem hlt, List.reverse_append, List.reverse_singleton,
          List.singleton_append]
      rw [trimLoop, List.getElem?_eq_getElem hlt, Option.bind_eq_bind, Option.bind_some,
        trimmedLength, hlast]
      by_cases hpad : dest[length] ≤ 0x20
      · rw [if_pos hpad, trimLoop_eq dest hlt.le, List.dropWhile_cons_of_pos (by simpa using hpad)]
        rfl
      · rw [if_neg hpad, List.dropWhile_cons_of_neg (by simpa using hpad), ← hlast,
          List.length_reverse, List.length_take, min_eq_left h]

/-- The loop counts the spaces in front, and stops in the buffer if there is anything else in it.
Kind: L -/
theorem startLoop_eq : ∀ {dest : List UInt8} (start : ℕ), 0 ∈ dest →
    startLoop dest start = some (start + (dest.takeWhile (· = 0x20)).length)
  | [], _, h => absurd h List.not_mem_nil
  | c :: rest, start, h => by
      rw [startLoop]
      by_cases hspace : c = 0x20
      · have hrest : 0 ∈ rest := by
          rcases List.mem_cons.mp h with rfl | hrest
          · exact absurd hspace (by decide)
          · exact hrest
        rw [if_pos hspace, startLoop_eq _ hrest, List.takeWhile_cons_of_pos (by simpa using hspace),
          List.length_cons]
        congr 1
        omega
      · rw [if_neg hspace, List.takeWhile_cons_of_neg (by simpa using hspace)]
        rfl

/-- **The run comes to its end.** Over a field of even width below the size of the buffer, reading
nothing but the field and writing nothing but one octet more than its width, `CopyIdentifyString`
leaves what the model says. Kind: L -/
theorem runCopyIdentifyString_eq {dest source : List UInt8} (swapPairs : Bool)
    (heven : source.length % 2 = 0) (hwidth : source.length < dest.length) :
    runCopyIdentifyString (source.length + 1) source swapPairs dest =
      some (identifyOctets dest source swapPairs) := by
  have hpos : 0 < dest.length := by omega
  set copied := identifyCopied source swapPairs dest.length with hcopied
  have hmin : min source.length (dest.length - 1) = source.length := by omega
  have hlen : copied.length = source.length := by
    rw [hcopied, identifyCopied, List.length_map, List.length_range, hmin]
  have hloop : identifyLoop (source.length + 1) source swapPairs source.length 0 dest =
      some (copied ++ dest.drop copied.length) := by
    have h := identifyLoop_eq (source.length + 1) swapPairs heven source.length [] dest (by simp)
      hwidth.le (by simp)
    rw [hlen]
    simpa only [List.length_nil, List.nil_append, Nat.zero_add, hcopied, identifyCopied, hmin,
      sourceIndex] using h
  have htrim : trimLoop (copied ++ dest.drop copied.length) source.length =
      some (trimmedLength copied) := by
    rw [trimLoop_eq _ (by rw [List.length_append, hlen]; omega), ← hlen, List.take_left]
  have hle := trimmedLength_le copied
  have hstore : store (source.length + 1) (copied ++ dest.drop copied.length)
      (trimmedLength copied) 0 = some (identifyTerminated dest source swapPairs) := by
    rw [store, if_pos ⟨by omega, by rw [List.length_append, List.length_drop]; omega⟩]
    rfl
  set terminated := identifyTerminated dest source swapPairs with hterminated
  have hzero := getElem?_identifyTerminated source swapPairs hpos
  have hstart := startLoop_eq 0 (List.mem_of_getElem? hzero)
  have hspaces := start_le hzero
  rw [← hcopied, ← hterminated] at hspaces
  rw [← hterminated, Nat.zero_add] at hstart
  have htotal : terminated.length = dest.length := length_identifyTerminated source swapPairs hpos
  unfold runCopyIdentifyString identifyOctets
  rw [if_neg hpos.ne']
  simp only [if_neg (not_le.mpr hwidth), hloop, htrim, hstore, hstart, Option.bind_eq_bind,
    Option.bind_some, ← hcopied, ← hterminated]
  by_cases hmove : 0 < (terminated.takeWhile (· = 0x20)).length
  · rw [if_pos hmove, if_pos hmove, copyMem, if_pos ⟨by omega, by omega⟩]
  · rw [if_neg hmove, if_neg hmove]

/-! ### The string -/

/-- The octets of each word exchanged. Kind: D -/
def swapWords : List UInt8 → List UInt8
  | a :: b :: rest => b :: a :: swapWords rest
  | rest => rest

/-- The string in a field: in reading order, without the padding behind it, up to a NUL inside, and
without the spaces in front. Kind: D -/
def identifyText (source : List UInt8) (swapPairs : Bool) : List UInt8 :=
  (((if swapPairs then swapWords source else source).rdropWhile (· ≤ 0x20)).takeWhile
    (· ≠ 0)).dropWhile (· = 0x20)

lemma xor_one_add_two (i : ℕ) : (i + 2) ^^^ 1 = (i ^^^ 1) + 2 := by
  rcases Nat.even_or_odd i with h | h
  · rw [Nat.xor_one_of_even h, Nat.xor_one_of_even (Even.add h even_two)]
  · rw [Nat.xor_one_of_odd h, Nat.xor_one_of_odd (h.add_even even_two)]
    have := h.pos
    omega

/-- Reading each octet at its place with the last bit flipped. Kind: L -/
theorem swapWords_eq : ∀ (source : List UInt8), source.length % 2 = 0 →
    (List.range source.length).map (fun i => source.getD (i ^^^ 1) 0) = swapWords source
  | [], _ => rfl
  | [_], h => absurd h (by simp)
  | a :: b :: rest, h => by
      rw [List.length_cons, List.length_cons, Nat.add_assoc, Nat.add_mod_right] at h
      have hrest := swapWords_eq rest h
      rw [swapWords, ← hrest, List.length_cons, List.length_cons, List.range_succ_eq_map,
        List.range_succ_eq_map]
      simp only [List.map_cons, List.map_map, Function.comp_def, Nat.succ_eq_add_one, Nat.zero_add]
      refine congrArg₂ _ rfl (congrArg₂ _ rfl (List.map_congr_left fun i _ => ?_))
      rw [Nat.add_assoc, xor_one_add_two]
      simp

lemma identifyCopied_eq {source : List UInt8} {size : ℕ} (swapPairs : Bool)
    (heven : source.length % 2 = 0) (hwidth : source.length < size) :
    identifyCopied source swapPairs size = if swapPairs then swapWords source else source := by
  rw [identifyCopied, min_eq_left (by omega)]
  cases swapPairs with
  | true => exact swapWords_eq source heven
  | false =>
      simp only [Bool.false_eq_true, if_false]
      refine List.ext_getElem (by simp) fun i hi hi' => ?_
      simp [hi']

lemma take_trimmedLength (copied : List UInt8) :
    copied.take (trimmedLength copied) = copied.rdropWhile (· ≤ 0x20) := by
  have h := List.prefix_iff_eq_take.mp
    (List.rdropWhile_prefix (fun c : UInt8 => decide (c ≤ 0x20)) (l := copied))
  rw [h, List.rdropWhile, List.length_reverse]
  rfl

/-- The buffer before the move: what remains of the field, and a terminator. Kind: L -/
theorem identifyTerminated_eq {dest : List UInt8} (source : List UInt8) (swapPairs : Bool)
    (h : 0 < dest.length) :
    ∃ rest, identifyTerminated dest source swapPairs =
      (identifyCopied source swapPairs dest.length).rdropWhile (· ≤ 0x20) ++ 0 :: rest := by
  set copied := identifyCopied source swapPairs dest.length with hcopied
  have hle := trimmedLength_le copied
  have hlt : copied.length < dest.length := length_identifyCopied_lt source swapPairs h
  have hin : trimmedLength copied < (copied ++ dest.drop copied.length).length := by
    rw [List.length_append, List.length_drop]
    omega
  refine ⟨(copied ++ dest.drop copied.length).drop (trimmedLength copied + 1), ?_⟩
  rw [identifyTerminated, ← hcopied, List.set_eq_take_append_cons_drop, if_pos hin,
    List.take_append_of_le_length hle, take_trimmedLength]

/-- Spaces are looked for up to the terminator only. Kind: L -/
theorem takeWhile_space_terminated (rest : List UInt8) : ∀ remaining : List UInt8,
    (remaining ++ 0 :: rest).takeWhile (· = 0x20) = remaining.takeWhile (· = 0x20)
  | [] => rfl
  | c :: remaining => by
      rw [List.cons_append, List.takeWhile_cons, List.takeWhile_cons,
        takeWhile_space_terminated rest remaining]

/-- The buffer in the end: the spaces in front are gone, the terminator is not. Kind: L -/
theorem identifyOctets_eq {dest : List UInt8} (source : List UInt8) (swapPairs : Bool)
    (h : 0 < dest.length) :
    ∃ rest, identifyOctets dest source swapPairs =
      ((identifyCopied source swapPairs dest.length).rdropWhile (· ≤ 0x20)).dropWhile (· = 0x20) ++
        0 :: rest := by
  obtain ⟨behind, hterminated⟩ := identifyTerminated_eq source swapPairs h
  set copied := identifyCopied source swapPairs dest.length with hcopied
  set remaining := copied.rdropWhile (· ≤ 0x20) with hremaining
  have hlength : trimmedLength copied = remaining.length := by
    rw [hremaining, List.rdropWhile, List.length_reverse]
    rfl
  have hsplit := List.takeWhile_append_dropWhile (p := fun c : UInt8 => decide (c = 0x20))
    (l := remaining)
  set spaces := remaining.takeWhile (· = 0x20) with hspaces
  set text := remaining.dropWhile (· = 0x20) with htext
  unfold identifyOctets
  simp only [← hcopied, hterminated, takeWhile_space_terminated, ← hspaces, hlength]
  by_cases hmove : 0 < spaces.length
  · -- what is moved is the text and its terminator
    have hmoved : ((remaining ++ 0 :: behind).drop spaces.length).take
        (remaining.length - spaces.length + 1) = text ++ [0] := by
      have hroom : remaining.length - spaces.length + 1 = (text ++ [0]).length := by
        rw [← hsplit, List.length_append, List.length_append, List.length_singleton]
        omega
      have hcons : text ++ 0 :: behind = (text ++ [0]) ++ behind := by simp
      rw [hroom, ← hsplit, List.append_assoc, List.drop_left, hcons, List.take_left]
    rw [if_pos hmove, hmoved, List.append_assoc, List.singleton_append]
    exact ⟨_, rfl⟩
  · have hnone : spaces = [] := List.eq_nil_of_length_eq_zero (Nat.eq_zero_of_not_pos hmove)
    rw [hnone, List.nil_append] at hsplit
    rw [if_neg hmove, hsplit]
    exact ⟨_, rfl⟩

/-- A space is not a terminator, so it does not matter which is looked for first. Kind: L -/
theorem dropWhile_takeWhile_comm {α : Type*} {p q : α → Bool} (h : ∀ x, p x = true → q x = true) :
    ∀ l : List α, (l.dropWhile p).takeWhile q = (l.takeWhile q).dropWhile p
  | [] => rfl
  | x :: l => by
      by_cases hp : p x = true
      · rw [List.dropWhile_cons_of_pos hp, List.takeWhile_cons_of_pos (h x hp),
          List.dropWhile_cons_of_pos hp, dropWhile_takeWhile_comm h l]
      · by_cases hq : q x = true
        · rw [List.dropWhile_cons_of_neg hp, List.takeWhile_cons_of_pos hq,
            List.dropWhile_cons_of_neg hp]
        · rw [List.dropWhile_cons_of_neg hp, List.takeWhile_cons_of_neg hq]
          rfl

/-- A C string ends at its first NUL. Kind: L -/
theorem take_cString (rest : List UInt8) : ∀ text : List UInt8,
    (text ++ 0 :: rest).take ((text.takeWhile (· ≠ 0)).length + 1) = text.takeWhile (· ≠ 0) ++ [0]
  | [] => rfl
  | c :: text => by
      by_cases hc : c = 0
      · rw [hc]
        rfl
      · rw [List.takeWhile_cons_of_pos (by simpa using hc), List.cons_append, List.length_cons,
          List.take_succ_cons, take_cString rest text, List.cons_append]

/-- **Identify strings are decoded.** For a field of even width below the size of the buffer, in
either order of octets, `CopyIdentifyString` reads nothing but the field and writes nothing but the
first octets of the buffer, one more than the width. The C string it leaves is the field in reading
order, without the padding behind, up to the first NUL, without the spaces in front.
Source: `NucRedfishInventory.c` `CopyIdentifyString`
Kind: P -/
theorem copyIdentifyString_decodes (dest source : List UInt8) (swapPairs : Bool)
    (heven : source.length % 2 = 0) (hwidth : source.length < dest.length) :
    ∃ result, runCopyIdentifyString (source.length + 1) source swapPairs dest = some result ∧
      result.take ((identifyText source swapPairs).length + 1) =
        identifyText source swapPairs ++ [0] ∧
      NoNul (identifyText source swapPairs) ∧
      result.length = dest.length ∧
      result.drop (source.length + 1) = dest.drop (source.length + 1) := by
  have hrun := runCopyIdentifyString_eq swapPairs heven hwidth
  have hframed := framed_run hrun
  have hpos : 0 < dest.length := by omega
  obtain ⟨rest, hresult⟩ := identifyOctets_eq source swapPairs hpos
  have htext : identifyText source swapPairs =
      (((identifyCopied source swapPairs dest.length).rdropWhile (· ≤ 0x20)).dropWhile
        (· = 0x20)).takeWhile (· ≠ 0) := by
    rw [identifyText, identifyCopied_eq swapPairs heven hwidth, dropWhile_takeWhile_comm]
    intro c hc
    rw [of_decide_eq_true hc]
    rfl
  refine ⟨_, hrun, ?_, ?_, hframed.length_eq, hframed.drop_eq⟩
  · rw [hresult, htext, take_cString]
  · rw [htext]
    exact fun c hc => of_decide_eq_true (List.all_eq_true.mp List.all_takeWhile c hc)

/-- The field of a device with words swapped, padding on both sides and a NUL inside: in reading
order two spaces, `AB`, a NUL, `CD` and a space. Kind: C -/
theorem copyIdentifyString_decodes_swapped :
    ∃ result, runCopyIdentifyString 9 [0x20, 0x20, 0x42, 0x41, 0x43, 0x00, 0x20, 0x44] true
        (List.replicate 12 0xFF) = some result ∧
      result.take 3 = [0x41, 0x42, 0] ∧ result.drop 9 = [0xFF, 0xFF, 0xFF] := by
  obtain ⟨result, hrun, htext, -, -, hrest⟩ := copyIdentifyString_decodes (List.replicate 12 0xFF)
    [0x20, 0x20, 0x42, 0x41, 0x43, 0x00, 0x20, 0x44] true (by decide) (by decide)
  exact ⟨result, hrun, htext, hrest⟩

end NucBios.Redfish
