import NucBios.Redfish.IdentifyString
import NucBios.Redfish.Smbios

/-!
# SMBIOS strings, access by access

`Redfish.Smbios` takes the strings of a record for a list. In memory they stand behind the formatted
area, each with its terminator, and a further NUL closes the set. Here `SmbiosGetString` and
`CopyInventoryString` are run statement by statement over the octets of one structure; reading
anything else ends the run (`none`), so a run that comes to its end stayed within the structure.

* `stringLoop_eq`: the walk of the pointer is the walk over the list, for any number of strings. The
  counter is a `UINT8`, but it meets the number asked for before it wraps (`counter_succ`).
* `runInventoryString_eq`: the field that is filled in holds what the model of the collectors says.
* `smbios_strings_looked_up`: what a number finds, and what is copied of it.

`AsciiStrLen` is taken as its header documents it.
-/

namespace NucBios.Redfish

open Uefi

/-! ### The structure in memory -/

/-- Strings in a row, each with its terminator. Kind: D -/
def stringOctets (strings : List SmbiosString) : List UInt8 :=
  strings.flatMap fun s => s.text ++ [0]

/-- The strings of a structure and the NUL that closes them, so that they end in two NULs. A set
without strings is two NULs as well.
Kind: D -/
def stringSet : List SmbiosString → List UInt8
  | [] => [0, 0]
  | s :: strings => stringOctets (s :: strings) ++ [0]

/-- A structure: its formatted area, the second octet of which is the length of the area, and its
strings.
Kind: D -/
structure SmbiosStructure where
  formatted : List UInt8
  strings : List SmbiosString
  length_octet : formatted[1]?.map UInt8.toNat = some formatted.length

namespace SmbiosStructure

/-- All octets of a structure, the terminating NULs included. Kind: D -/
def octets (r : SmbiosStructure) : List UInt8 := r.formatted ++ stringSet r.strings

/-- Where the string with `n` strings ahead of it begins. Kind: D -/
def address (r : SmbiosStructure) (n : ℕ) : ℕ :=
  r.formatted.length + (stringOctets (r.strings.take n)).length

end SmbiosStructure

/-! ### The run -/

/-- The loop of `AsciiStrLen`. Kind: D -/
def strLenLoop : List UInt8 → ℕ → Option ℕ
  | [], _ => none
  | c :: rest, length => if c = 0 then some length else strLenLoop rest (length + 1)

/-- `AsciiStrLen (Memory + string)`. Kind: D -/
def asciiStrLen (memory : List UInt8) (string : ℕ) : Option ℕ := strLenLoop (memory.drop string) 0

/-- The loop of `SmbiosGetString`: the pointer it returns, `none` for `NULL`. Kind: D -/
def stringLoop (memory : List UInt8) (index : UInt8) (walker : ℕ) (current : UInt8) :
    Option (Option ℕ) :=
  if hin : walker < memory.length then
    if memory[walker] = 0 then some none
    else if current = index then some (some walker)
    else
      match asciiStrLen memory walker with
      | none => none
      | some length => stringLoop memory index (walker + (length + 1)) (current + 1)
  else none
termination_by memory.length - walker

/-- The octets from `Header` on are `header`, `none` for `NULL`.
Source: `NucRedfishInventory.c` `SmbiosGetString`
Kind: D -/
def runSmbiosGetString (header : Option (List UInt8)) (index : UInt8) : Option (Option ℕ) :=
  match header with
  | none => some none
  | some memory =>
      if index = 0 then some none
      else do
        -- `Header->Length`
        let length ← memory[1]?
        stringLoop memory index length.toNat 1

/-- `CopyMem (Dest, Memory + source, length)`. Kind: D -/
def copyFrom (memory : List UInt8) (source : ℕ) (dest : List UInt8) (length : ℕ) :
    Option (List UInt8) :=
  if source + length ≤ memory.length ∧ length ≤ dest.length then
    some ((memory.drop source).take length ++ dest.drop length)
  else none

/-- The octets of `Dest` are `dest`, `[]` for `NULL`.
Source: `NucRedfishInventory.c` `CopyInventoryString`
Kind: D -/
def runCopyInventoryString (memory dest : List UInt8) (source : Option ℕ) : Option (List UInt8) :=
  if dest.length = 0 then some dest
  else do
    let dest ← store dest.length dest 0 0
    match source with
    | none => some dest
    | some source => do
        let length ← asciiStrLen memory source
        let length := if dest.length ≤ length then dest.length - 1 else length
        let dest ← copyFrom memory source dest length
        store dest.length dest length 0

/-- `CopyInventoryString (Dest, sizeof (Dest), SmbiosGetString (Record, index))`, as the collectors
fill in a field.
Kind: D -/
def runInventoryString (memory : List UInt8) (index : UInt8) (dest : List UInt8) :
    Option (List UInt8) := do
  let source ← runSmbiosGetString (some memory) index
  runCopyInventoryString memory dest source

/-! ### The walk -/

lemma stringOctets_cons (s : SmbiosString) (strings : List SmbiosString) :
    stringOctets (s :: strings) = s.text ++ 0 :: stringOctets strings := by
  rw [stringOctets, List.flatMap_cons, List.append_assoc]
  rfl

lemma stringOctets_append (strings strings' : List SmbiosString) :
    stringOctets (strings ++ strings') = stringOctets strings ++ stringOctets strings' :=
  List.flatMap_append

/-- The closing NUL is behind the strings, whether there are any or not. Kind: L -/
theorem stringSet_eq : ∀ strings : List SmbiosString,
    ∃ rest, stringSet strings = stringOctets strings ++ 0 :: rest
  | [] => ⟨[0], rfl⟩
  | _ :: _ => ⟨[], rfl⟩

/-- The length is counted up to the first NUL. Kind: L -/
theorem strLenLoop_eq (rest : List UInt8) : ∀ (text : List UInt8) (length : ℕ), NoNul text →
    strLenLoop (text ++ 0 :: rest) length = some (length + text.length)
  | [], _, _ => rfl
  | c :: text, length, hnoNul => by
      obtain ⟨hc, htext⟩ := List.forall_mem_cons.mp hnoNul
      rw [List.cons_append, strLenLoop, if_neg hc, strLenLoop_eq rest text (length + 1) htext,
        List.length_cons]
      congr 1
      omega

section Walk

variable {memory text rest : List UInt8} {walker : ℕ}

lemma asciiStrLen_eq (hdrop : memory.drop walker = text ++ 0 :: rest) (hnoNul : NoNul text) :
    asciiStrLen memory walker = some text.length := by
  rw [asciiStrLen, hdrop, strLenLoop_eq rest text 0 hnoNul, Nat.zero_add]

/-- What the pointer points at. Kind: L -/
theorem getElem_of_drop {c : UInt8} (hdrop : memory.drop walker = c :: rest) :
    ∃ hin : walker < memory.length, memory[walker] = c := by
  have hget : memory[walker]? = some c := by rw [← List.head?_drop, hdrop, List.head?_cons]
  exact List.getElem?_eq_some_iff.mp hget

/-- At the closing NUL the walk ends. Kind: L -/
theorem stringLoop_of_closed (index current : UInt8) (hdrop : memory.drop walker = 0 :: rest) :
    stringLoop memory index walker current = some none := by
  obtain ⟨hin, hnul⟩ := getElem_of_drop hdrop
  rw [stringLoop, dif_pos hin, if_pos hnul]

/-- At a string the walk ends or passes over it. Kind: L -/
theorem stringLoop_of_string (index current : UInt8) {s : SmbiosString}
    (hdrop : memory.drop walker = s.text ++ 0 :: rest) :
    stringLoop memory index walker current =
      if current = index then some (some walker)
      else stringLoop memory index (walker + (s.text.length + 1)) (current + 1) := by
  obtain ⟨c, text, htext⟩ := List.exists_cons_of_ne_nil s.nonempty
  have hc : c ≠ 0 := s.noNul c (by rw [htext]; exact List.mem_cons_self)
  have hcons : memory.drop walker = c :: (text ++ 0 :: rest) := by
    rw [hdrop, htext, List.cons_append]
  obtain ⟨hin, hfirst⟩ := getElem_of_drop hcons
  rw [stringLoop, dif_pos hin, hfirst, if_neg hc, asciiStrLen_eq hdrop s.noNul]

end Walk

/-- **The walk of the pointer.** Over any number of strings the loop finds the address of the string
that the walk over the list finds, as long as the counter has not passed the number asked for.
Kind: L -/
theorem stringLoop_eq {memory : List UInt8} {index : UInt8} (rest : List UInt8) :
    ∀ (strings : List SmbiosString) {walker : ℕ} {current : UInt8},
      memory.drop walker = stringOctets strings ++ 0 :: rest → current ≤ index →
      stringLoop memory index walker current =
        some ((stringWalk index current strings).map fun _ =>
          walker + (stringOctets (strings.take (index - current).toNat)).length)
  | [], _, _, hdrop, _ => stringLoop_of_closed _ _ hdrop
  | s :: strings, walker, current, hdrop, hle => by
      rw [stringOctets_cons, List.append_assoc, List.cons_append] at hdrop
      rw [stringLoop_of_string index current hdrop, stringWalk]
      by_cases heq : current = index
      · rw [if_pos heq, if_pos heq, heq, UInt8.sub_self]
        rfl
      · obtain ⟨hle', hsucc⟩ := counter_succ hle heq
        have hnext : memory.drop (walker + (s.text.length + 1)) =
            stringOctets strings ++ 0 :: rest := by
          rw [← List.drop_drop, hdrop, ← List.drop_drop, List.drop_left, List.drop_one,
            List.tail_cons]
        rw [if_neg heq, if_neg heq, stringLoop_eq rest strings hnext hle', hsucc,
          List.take_succ_cons, stringOctets_cons, List.length_append, List.length_cons]
        simp only [Nat.add_assoc, Nat.add_comm 1]

/-! ### What a number finds -/

namespace SmbiosStructure

variable (r : SmbiosStructure)

/-- A string is behind its address, terminator and all. Kind: L -/
theorem drop_address {n : ℕ} {s : SmbiosString} (h : r.strings[n]? = some s) :
    ∃ rest, r.octets.drop (r.address n) = s.text ++ 0 :: rest := by
  obtain ⟨closing, hset⟩ := stringSet_eq r.strings
  obtain ⟨hlt, rfl⟩ := List.getElem?_eq_some_iff.mp h
  have hsplit : stringOctets r.strings = stringOctets (r.strings.take n) ++
      (r.strings[n].text ++ 0 :: stringOctets (r.strings.drop (n + 1))) := by
    rw [← stringOctets_cons, ← List.drop_eq_getElem_cons hlt, ← stringOctets_append,
      List.take_append_drop]
  refine ⟨stringOctets (r.strings.drop (n + 1)) ++ 0 :: closing, ?_⟩
  rw [octets, address, hset, hsplit, List.append_assoc, ← List.append_assoc r.formatted,
    ← List.length_append, List.drop_left, List.append_assoc, List.cons_append]

/-- The pointer returned is the address of the string the model finds, `NULL` if it finds none.
Kind: L -/
theorem runSmbiosGetString_eq (index : UInt8) :
    runSmbiosGetString (some r.octets) index =
      some ((smbiosGetString r.strings index).map fun _ => r.address (index.toNat - 1)) := by
  unfold runSmbiosGetString smbiosGetString
  by_cases hzero : index = 0
  · simp only [if_pos hzero]
    rfl
  obtain ⟨closing, hset⟩ := stringSet_eq r.strings
  obtain ⟨length, hlength, hformatted⟩ := Option.map_eq_some_iff.mp r.length_octet
  have hread : r.octets[1]? = some length := by
    obtain ⟨hlt, -⟩ := List.getElem?_eq_some_iff.mp hlength
    rw [octets, List.getElem?_append_left hlt, hlength]
  have hdrop : r.octets.drop length.toNat = stringOctets r.strings ++ 0 :: closing := by
    rw [octets, hformatted, List.drop_left, hset]
  have hone : (1 : UInt8) ≤ index := one_le_of_ne_zero hzero
  simp only [if_neg hzero, hread, Option.bind_eq_bind, Option.bind_some]
  rw [stringLoop_eq closing r.strings hdrop hone, hformatted, UInt8.toNat_sub_of_le _ _ hone]
  rfl

end SmbiosStructure

/-! ### What is copied of it -/

/-- A field that holds a C string, and behind the terminator what it held before. Kind: D -/
def filled (text dest : List UInt8) : List UInt8 := text ++ 0 :: dest.drop (text.length + 1)

/-- The longest beginning of a text that leaves room for a terminator. Kind: D -/
structure LongestFit (size : ℕ) (text fit : List UInt8) : Prop where
  begins : fit <+: text
  fits : fit.length < size
  longest : ∀ other, other <+: text → other.length < size → other <+: fit

lemma longestFit_copyInventoryString {size : ℕ} (hsize : 0 < size) (s : SmbiosString) :
    LongestFit size s.text (copyInventoryString (some s) size hsize).text := by
  refine ⟨List.take_prefix _ _, (copyInventoryString (some s) size hsize).fits, ?_⟩
  intro other hother hfits
  have hle := hother.length_le
  refine List.prefix_take_iff.mpr ⟨hother, ?_⟩
  split_ifs <;> omega

section Copy

variable {memory dest : List UInt8} (hpos : 0 < dest.length)

include hpos

/-- Without a string the field becomes empty. Kind: L -/
theorem runCopyInventoryString_null :
    runCopyInventoryString memory dest none = some (filled [] dest) := by
  rw [runCopyInventoryString, if_neg hpos.ne', store, if_pos ⟨hpos, hpos⟩,
    List.set_eq_take_append_cons_drop, if_pos hpos]
  rfl

/-- Copying a string leaves what the model says. Kind: L -/
theorem runCopyInventoryString_eq {source : ℕ} {s : SmbiosString} {rest : List UInt8}
    (hdrop : memory.drop source = s.text ++ 0 :: rest) :
    runCopyInventoryString memory dest (some source) =
      some (filled (copyInventoryString (some s) dest.length hpos).text dest) := by
  set length := if dest.length ≤ s.text.length then dest.length - 1 else s.text.length with hlength
  have hroom : length < dest.length := by
    rw [hlength]
    split_ifs <;> omega
  have hwithin : length ≤ s.text.length := by
    rw [hlength]
    split_ifs <;> omega
  have htext : (copyInventoryString (some s) dest.length hpos).text = s.text.take length := rfl
  -- the source reaches as far as its terminator
  have hsource : source + length ≤ memory.length := by
    have hlen := congrArg List.length hdrop
    rw [List.length_drop, List.length_append, List.length_cons] at hlen
    omega
  have hfirst : store dest.length dest 0 0 = some (dest.set 0 0) := if_pos ⟨hpos, hpos⟩
  have hcopy : copyFrom memory source (dest.set 0 0) length =
      some (s.text.take length ++ (dest.set 0 0).drop length) := by
    rw [copyFrom, if_pos ⟨hsource, by rw [List.length_set]; exact hroom.le⟩, hdrop,
      List.take_append_of_le_length hwithin]
  set copied := s.text.take length ++ (dest.set 0 0).drop length with hcopied
  have htake : (s.text.take length).length = length := by
    rw [List.length_take, min_eq_left hwithin]
  have hsize : copied.length = dest.length := by
    rw [hcopied, List.length_append, htake, List.length_drop, List.length_set]
    omega
  have hlast : store copied.length copied length 0 = some (filled (s.text.take length) dest) := by
    have hin : length < (dest.set 0 0).length := by rwa [List.length_set]
    rw [store, if_pos ⟨hsize ▸ hroom, hsize ▸ hroom⟩, hcopied,
      List.set_append_right _ _ htake.le, htake, Nat.sub_self, List.drop_eq_getElem_cons hin,
      List.set_cons_zero, List.drop_set_of_lt (Nat.succ_pos length), filled, htake]
  rw [runCopyInventoryString, if_neg hpos.ne', hfirst, htext]
  simp only [Option.bind_eq_bind, Option.bind_some, asciiStrLen_eq hdrop s.noNul, List.length_set,
    ← hlength, hcopy, hlast]

end Copy

/-- **The run leaves what the model says.** A field that the collectors fill in over the octets of a
structure holds the string of the model, and the run reads nothing but the structure.
Kind: P -/
theorem runInventoryString_eq (r : SmbiosStructure) (index : UInt8) {dest : List UInt8}
    (hpos : 0 < dest.length) :
    runInventoryString r.octets index dest =
      some (filled (copyInventoryString (smbiosGetString r.strings index) dest.length hpos).text
        dest) := by
  rw [runInventoryString, r.runSmbiosGetString_eq, Option.bind_eq_bind, Option.bind_some]
  rcases hfind : smbiosGetString r.strings index with _ | s
  · exact runCopyInventoryString_null hpos
  · obtain ⟨rest, hdrop⟩ := r.drop_address (smbiosGetString_eq_some_iff.mp hfind).2
    exact runCopyInventoryString_eq hpos hdrop

/-! ### Both -/

/-- What the lookup of a number in a structure comes to, and the copy into a field. Kind: D -/
structure LookedUp (r : SmbiosStructure) (index : UInt8) (dest : List UInt8) : Prop where
  /-- The number of a string gives its address. -/
  found : ∀ n s, index.toNat = n + 1 → r.strings[n]? = some s →
    runSmbiosGetString (some r.octets) index = some (some (r.address n)) ∧
      ∃ rest, r.octets.drop (r.address n) = s.text ++ 0 :: rest
  /-- Any other number gives `NULL`. -/
  missing : index = 0 ∨ r.strings.length < index.toNat →
    runSmbiosGetString (some r.octets) index = some none
  copied : ∀ n s, index.toNat = n + 1 → r.strings[n]? = some s → dest ≠ [] →
    ∃ fit, LongestFit dest.length s.text fit ∧
      runInventoryString r.octets index dest = some (filled fit dest)
  blank : index = 0 ∨ r.strings.length < index.toNat → dest ≠ [] →
    runInventoryString r.octets index dest = some (filled [] dest)

/-- **The string a number names.** For every structure with any number of strings, every number and
every field: a number from 1 to the number of strings gives the address of that string, any other
`NULL`; the field then holds the longest beginning of the string that fits, or nothing. The counter
has eight bits and there may be more strings than it can count. Neither function reads past the NULs
that end the structure.
Source: `NucRedfishInventory.c` `SmbiosGetString`, `CopyInventoryString`
Kind: P -/
theorem smbios_strings_looked_up (r : SmbiosStructure) (index : UInt8) (dest : List UInt8) :
    LookedUp r index dest := by
  have hfind : ∀ n s, index.toNat = n + 1 → r.strings[n]? = some s →
      smbiosGetString r.strings index = some s := by
    intro n s hn hs
    have hzero : index ≠ 0 := by
      rintro rfl
      cases hn
    refine smbiosGetString_eq_some_iff.mpr ⟨hzero, ?_⟩
    rw [hn, Nat.add_sub_cancel, hs]
  refine ⟨?_, ?_, ?_, ?_⟩
  · intro n s hn hs
    refine ⟨?_, r.drop_address hs⟩
    rw [r.runSmbiosGetString_eq, hfind n s hn hs, hn, Option.map_some, Nat.add_sub_cancel]
  · intro hmissing
    rw [r.runSmbiosGetString_eq, smbiosGetString_eq_none_iff.mpr hmissing, Option.map_none]
  · intro n s hn hs hdest
    have hpos := List.length_pos_of_ne_nil hdest
    refine ⟨_, longestFit_copyInventoryString hpos s, ?_⟩
    rw [runInventoryString_eq r index hpos, hfind n s hn hs]
  · intro hmissing hdest
    rw [runInventoryString_eq r index (List.length_pos_of_ne_nil hdest),
      smbiosGetString_eq_none_iff.mpr hmissing]
    rfl

/-- A string of one octet. Kind: D -/
def sampleString (c : UInt8) (h : c ≠ 0) : SmbiosString where
  text := [c]
  nonempty := List.cons_ne_nil _ _
  noNul := List.forall_mem_singleton.mpr h

/-- More strings than the counter can count: 254 times `A`, then `B`, then `C` another 45 times.
Kind: D -/
def sampleStructure : SmbiosStructure where
  formatted := [0x11, 0x04, 0x00, 0x00]
  strings := List.replicate 254 (sampleString 0x41 (by decide)) ++
    sampleString 0x42 (by decide) :: List.replicate 45 (sampleString 0x43 (by decide))
  length_octet := rfl

/-- The last number an index can be finds its string. Kind: C -/
theorem smbios_strings_looked_up_last :
    255 < sampleStructure.strings.length ∧
      runSmbiosGetString (some sampleStructure.octets) 255 =
        some (some (sampleStructure.address 254)) ∧
      ∃ fit, LongestFit 4 [0x42] fit ∧
        runInventoryString sampleStructure.octets 255 [1, 2, 3, 4] =
          some (filled fit [1, 2, 3, 4]) := by
  have hlookup := smbios_strings_looked_up sampleStructure 255 [1, 2, 3, 4]
  have hstring : sampleStructure.strings[254]? = some (sampleString 0x42 (by decide)) := by
    rw [sampleStructure, List.getElem?_append_right (by rw [List.length_replicate])]
    rw [List.length_replicate]
    rfl
  refine ⟨?_, (hlookup.found 254 _ rfl hstring).1, hlookup.copied 254 _ rfl hstring ?_⟩
  · rw [sampleStructure, List.length_append, List.length_cons, List.length_replicate,
      List.length_replicate]
    decide
  · exact List.cons_ne_nil _ _

end NucBios.Redfish
