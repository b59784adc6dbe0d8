import NucBios.Lib.Json
import NucBios.Uefi.Print

/-!
# How the JSON bodies of the inventory are put together

The requests of `NucRedfishSyncDxe` are texts in a buffer of `NUC_REDFISH_JSON_MAX` octets, built
left to right by `AsciiSPrint` and `AsciiStrCatS`. This module has the parts all of them share,
and says what each part is to a JSON reader:

* `spells_decimal`: `%u` prints a JSON number, whose value is the number printed
  (`nat_num_decimal`);
* `appendJsonString_eq`: with room enough, `AppendJsonString` appends one member, and
  `quotes_escape` says that its value is the string given, control characters turned into spaces;
* `Append`: one optional member of a body together with the texts that make it up. A body is a list
  of them behind a fixed front: `Append.foldl_allTexts` reads it as an object if there is room for
  all, `Append.lookup_key` says what is found under each key.
-/

namespace NucBios.Redfish

open Lib Uefi

def nucRedfishJsonMax : ℕ := 1024

def nucRedfishStrMax : ℕ := 64

lemma nucRedfishStrMax_pos : 0 < nucRedfishStrMax := by decide

/-! ### Numbers -/

lemma isDigit_ofNat {n : ℕ} (h : n < 10) : Json.isDigit (UInt8.ofNat (0x30 + n)) = true := by
  interval_cases n <;> rfl

lemma isDigit_of_mem_decimal : ∀ {width n : ℕ} {c : UInt8}, c ∈ decimal width n →
    Json.isDigit c = true
  | 0, _, _, h => by cases h
  | width + 1, n, c, h => by
      unfold decimal at h
      split_ifs at h with hn
      · rw [List.mem_singleton.mp h]
        exact isDigit_ofNat hn
      · rcases List.mem_append.mp h with h | h
        · exact isDigit_of_mem_decimal h
        · rw [List.mem_singleton.mp h]
          exact isDigit_ofNat (Nat.mod_lt n (by decide))

/-- A positive number is printed without leading zeros. Kind: L -/
theorem decimal_eq_cons : ∀ {width n : ℕ}, 0 < n → n < 10 ^ width →
    ∃ c digits, decimal width n = c :: digits ∧ c ≠ 0x30
  | 0, n, hpos, hlt => by omega
  | width + 1, n, hpos, hlt => by
      unfold decimal
      split_ifs with hn
      · refine ⟨_, [], rfl, ?_⟩
        interval_cases n <;> decide
      · rw [Nat.pow_succ] at hlt
        have hdiv : n / 10 < 10 ^ width := by omega
        obtain ⟨c, digits, hdigits, hc⟩ := decimal_eq_cons (by omega : 0 < n / 10) hdiv
        exact ⟨c, digits ++ [_], by rw [hdigits, List.cons_append], hc⟩

/-- A positive number is a digit other than zero, and digits. Kind: L -/
theorem decimal_spec {width n : ℕ} (hpos : 0 < n) (h : n < 10 ^ width) :
    ∃ c digits, decimal width n = c :: digits ∧ Json.isDigit c = true ∧ c ≠ 0x30 ∧
      ∀ d ∈ digits, Json.isDigit d = true := by
  obtain ⟨c, digits, hdigits, hc⟩ := decimal_eq_cons hpos h
  have hmem : ∀ d ∈ c :: digits, Json.isDigit d = true := fun d hd =>
    isDigit_of_mem_decimal (hdigits ▸ hd)
  exact ⟨c, digits, hdigits, hmem c List.mem_cons_self, hc,
    fun d hd => hmem d (List.mem_cons_of_mem c hd)⟩

lemma spells_decimal {width n : ℕ} (hwidth : 0 < width) (h : n < 10 ^ width) :
    Json.Spells (decimal width n) (.num (decimal width n)) := by
  rcases Nat.eq_zero_or_pos n with rfl | hpos
  · obtain ⟨width, rfl⟩ := Nat.exists_eq_succ_of_ne_zero hwidth.ne'
    exact Json.spells_zero
  · obtain ⟨c, digits, heq, hc, hzero, hdigits⟩ := decimal_spec hpos h
    rw [heq]
    exact Json.spells_int hc hzero hdigits

/-- `%ld` prints a JSON number, whatever the sign. Kind: L -/
theorem spells_signedDecimal64 (n : UInt64) :
    Json.Spells (signedDecimal64 n) (.num (signedDecimal64 n)) := by
  have hlt := n.toNat_lt
  unfold signedDecimal64 signedDecimal
  split_ifs with hsign
  · exact spells_decimal (by decide) (hsign.trans (by decide))
  · obtain ⟨c, digits, heq, hc, hzero, hdigits⟩ :=
      @decimal_spec 19 (2 ^ 64 - n.toNat) (by omega) (by omega)
    have hminus : ascii "-" = [0x2D] := by decide +kernel
    rw [heq, hminus, List.singleton_append]
    exact Json.spells_neg hc hzero hdigits

lemma length_signedDecimal64_le (n : UInt64) : (signedDecimal64 n).length ≤ 20 := by
  have hdigits := length_decimal_le 19 n.toNat
  have hdigits' := length_decimal_le 19 (2 ^ 64 - n.toNat)
  have hminus : (ascii "-").length = 1 := by decide +kernel
  unfold signedDecimal64 signedDecimal
  split_ifs
  · omega
  · rw [List.length_append, hminus]
    omega

lemma natOfDigits_decimal : ∀ {width n : ℕ}, n < 10 ^ width →
    Json.natOfDigits (decimal width n) = n
  | 0, n, h => by
      rw [Nat.pow_zero, Nat.lt_one_iff] at h
      rw [h]
      rfl
  | width + 1, n, h => by
      have hdigit : ∀ d < 10, (UInt8.ofNat (0x30 + d)).toNat - 0x30 = d := by decide
      unfold decimal
      split_ifs with hn
      · exact (Nat.zero_add _).trans (hdigit n hn)
      · rw [Nat.pow_succ] at h
        have ih := natOfDigits_decimal (by omega : n / 10 < 10 ^ width)
        rw [Json.natOfDigits] at ih ⊢
        rw [List.foldl_append, ih, List.foldl_cons, List.foldl_nil,
          hdigit _ (Nat.mod_lt n (by decide))]
        omega

/-- A number printed is the number read. Kind: L -/
theorem nat_num_decimal {width n : ℕ} (h : n < 10 ^ width) :
    (Json.num (decimal width n)).nat = some n := by
  have hall : (decimal width n).all (fun c => 0x30 ≤ c && c ≤ 0x39) = true :=
    List.all_eq_true.mpr fun _ hc => isDigit_of_mem_decimal hc
  rw [Json.nat, hall, if_pos rfl, natOfDigits_decimal h]

lemma toNat_lt_ten_pow (n : UInt32) : n.toNat < 10 ^ 10 :=
  n.toNat_lt.trans (by decide)

/-- `"name":%u` Kind: D -/
def numberMember (name : List UInt8) (hname : ∀ c ∈ name, Json.Plain c) (n : UInt32) :
    Json.Member where
  key := name
  text := decimal32 n
  value := .num (decimal32 n)
  plain := hname
  spells := spells_decimal (by decide) (toNat_lt_ten_pow n)

/-- `CHAR8 Buffer[32]` of `AppendJsonNumber`. Kind: D -/
def numberText (name : List UInt8) (value : UInt32) : List UInt8 :=
  asciiSPrint 32 (ascii ",\"" ++ name ++ ascii "\":" ++ signedDecimal32 value)

/-- The append of a number, skipped when it is zero.
Source: `NucRedfishInventory.c` `AppendJsonNumber`
Kind: D -/
def appendJsonNumber (json : List UInt8) (jsonSize : ℕ) (name : List UInt8) (value : UInt32) :
    List UInt8 :=
  if value = 0 then json else asciiStrCatS jsonSize json (numberText name value)

/-- Below `2 ^ 31`, `%d` prints what `%u` does. Kind: L -/
theorem signedDecimal32_eq {n : UInt32} (h : n.toNat < 2 ^ 31) :
    signedDecimal32 n = decimal32 n := if_pos h

lemma length_numberMember_le {name : List UInt8} (hname : ∀ c ∈ name, Json.Plain c)
    (value : UInt32) : (0x2C :: (numberMember name hname value).written).length ≤
      name.length + 14 := by
  have hdigits : (decimal32 value).length ≤ 10 := length_decimal_le 10 value.toNat
  simp only [Json.Member.written, numberMember, List.length_cons, List.length_append]
  omega

/-- A name of up to seventeen characters leaves room for the digits. Kind: L -/
theorem numberText_eq {name : List UInt8} (hname : ∀ c ∈ name, Json.Plain c)
    (hlen : name.length ≤ 17) {value : UInt32} (hvalue : value.toNat < 2 ^ 31) :
    numberText name value = 0x2C :: (numberMember name hname value).written := by
  have hwritten := length_numberMember_le hname value
  have htext : ascii ",\"" ++ name ++ ascii "\":" ++ decimal32 value =
      0x2C :: (numberMember name hname value).written := by
    simp [ascii, Json.Member.written, numberMember]
  rw [numberText, signedDecimal32_eq hvalue, htext, asciiSPrint_of_lt (by omega)]

/-! ### Strings -/

/-- One octet of a value as `AppendJsonString` copies it. Kind: D -/
def escapeOctet (c : UInt8) : List UInt8 :=
  if c = 0x22 ∨ c = 0x5C then [0x5C, c] else if c < 0x20 then [0x20] else [c]

/-- The copying loop, over `CHAR8 Escaped[size]`, which holds `out` so far. Kind: D -/
def escapeLoop (size : ℕ) : List UInt8 → List UInt8 → List UInt8
  | out, [] => out
  | out, c :: value =>
      if out.length < size - 2 then escapeLoop size (out ++ escapeOctet c) value else out

/-- The append of one member, skipped when there is nothing to say.
Source: `NucRedfishInventory.c` `AppendJsonString`
Kind: D -/
def appendJsonString (json : List UInt8) (jsonSize : ℕ) (name value : List UInt8) : List UInt8 :=
  if value = [] then json
  else
    let escaped := escapeLoop (nucRedfishStrMax * 2) [] value
    [ascii ",\"", name, ascii "\":\"", escaped, ascii "\""].foldl (asciiStrCatS jsonSize) json

@[simp] theorem appendJsonString_nil (json : List UInt8) (jsonSize : ℕ) (name : List UInt8) :
    appendJsonString json jsonSize name [] = json := if_pos rfl

/-- Whatever is appended, the buffer does not overflow. Kind: L -/
theorem length_appendJsonString_lt {json : List UInt8} {jsonSize : ℕ} (h : json.length < jsonSize)
    (name value : List UInt8) : (appendJsonString json jsonSize name value).length < jsonSize := by
  unfold appendJsonString
  split_ifs
  · exact h
  · exact length_foldl_asciiStrCatS_lt _ h

lemma length_escapeOctet_le (c : UInt8) : (escapeOctet c).length ≤ 2 := by
  unfold escapeOctet
  split_ifs <;> simp

/-- With two octets of room for each character, the loop copies them all. Kind: L -/
theorem escapeLoop_eq {size : ℕ} : ∀ {value : List UInt8} (out : List UInt8),
    out.length + 2 * value.length < size →
    escapeLoop size out value = out ++ value.flatMap escapeOctet
  | [], out, _ => (List.append_nil out).symm
  | c :: value, out, h => by
      rw [List.length_cons] at h
      have hlen : (out ++ escapeOctet c).length ≤ out.length + 2 := by
        rw [List.length_append]
        exact Nat.add_le_add_left (length_escapeOctet_le c) _
      rw [escapeLoop, if_pos (by omega), escapeLoop_eq _ (by omega), List.flatMap_cons,
        List.append_assoc]

lemma length_flatMap_escapeOctet_le (value : List UInt8) :
    (value.flatMap escapeOctet).length ≤ 2 * value.length := by
  induction value with
  | nil => exact Nat.le_refl 0
  | cons c value ih =>
      have hc := length_escapeOctet_le c
      rw [List.flatMap_cons, List.length_append, List.length_cons]
      omega

/-- A control character reads as a space. Kind: D -/
def blank (c : UInt8) : UInt8 := if c < 0x20 then 0x20 else c

lemma quotes_escapeOctet (c : UInt8) : Json.Quotes (escapeOctet c) [blank c] := by
  unfold escapeOctet blank
  split_ifs with hspecial hctl hctl
  · rcases hspecial with rfl | rfl <;> exact absurd hctl (by decide)
  · exact Json.quotes_escaped hspecial
  · exact Json.quotes_plain (by decide)
  · rw [not_or] at hspecial
    exact Json.quotes_plain ⟨UInt8.not_lt.mp hctl, hspecial⟩

lemma quotes_escape : ∀ value : List UInt8,
    Json.Quotes (value.flatMap escapeOctet) (value.map blank)
  | [] => Json.quotes_nil
  | c :: value => (quotes_escapeOctet c).append (quotes_escape value)

/-- `"name":"value"`, the value escaped. Kind: D -/
def stringMember (name : List UInt8) (hname : ∀ c ∈ name, Json.Plain c) (value : List UInt8) :
    Json.Member where
  key := name
  text := 0x22 :: value.flatMap escapeOctet ++ [0x22]
  value := .str (value.map blank)
  plain := hname
  spells := Json.spells_str (quotes_escape value)

/-! Keys that several bodies have. -/

lemma plain_name : ∀ c ∈ ascii "Name", Json.Plain c := by decide +kernel

lemma plain_manufacturer : ∀ c ∈ ascii "Manufacturer", Json.Plain c := by decide +kernel

lemma plain_model : ∀ c ∈ ascii "Model", Json.Plain c := by decide +kernel

lemma plain_serialNumber : ∀ c ∈ ascii "SerialNumber", Json.Plain c := by decide +kernel

lemma plain_partNumber : ∀ c ∈ ascii "PartNumber", Json.Plain c := by decide +kernel

def odataTypeMember (type : List UInt8) : Json.Member :=
  stringMember (ascii "@odata.type") (by decide +kernel) type

/-- `"Status":{"State":"…","Health":"OK"}` Kind: D -/
def stateMember (state : List UInt8) : Json.Member :=
  .ofObj (ascii "Status") (by decide +kernel)
    (stringMember (ascii "State") (by decide +kernel) state)
    [stringMember (ascii "Health") (by decide +kernel) (ascii "OK")]

/-- The status of everything that is reported and works. Kind: D -/
def statusMember : Json.Member := stateMember (ascii "Enabled")

/-- The members `AppendJsonString` appends: one, or none for an empty value. Kind: D -/
def stringMembers (name : List UInt8) (hname : ∀ c ∈ name, Json.Plain c) (value : List UInt8) :
    List Json.Member :=
  if value = [] then [] else [stringMember name hname value]

lemma keys_stringMembers (name : List UInt8) (hname : ∀ c ∈ name, Json.Plain c)
    (value : List UInt8) :
    ((stringMembers name hname value).map Json.Member.key).Sublist [name] := by
  unfold stringMembers
  split_ifs
  · exact List.nil_sublist _
  · exact List.Sublist.refl _

lemma length_writtenAll_stringMembers_le_escaped (name : List UInt8)
    (hname : ∀ c ∈ name, Json.Plain c) (value : List UInt8) :
    (Json.writtenAll (stringMembers name hname value)).length ≤
      name.length + (value.flatMap escapeOctet).length + 6 := by
  unfold stringMembers
  split_ifs
  · exact Nat.zero_le _
  · simp only [Json.writtenAll, Json.Member.written, stringMember, List.flatMap_cons,
      List.flatMap_nil, List.length_append, List.length_cons, List.length_nil]
    omega

lemma length_writtenAll_stringMembers_le (name : List UInt8) (hname : ∀ c ∈ name, Json.Plain c)
    (value : List UInt8) : (Json.writtenAll (stringMembers name hname value)).length ≤
      name.length + 2 * value.length + 6 := by
  have h := length_writtenAll_stringMembers_le_escaped name hname value
  have hescape := length_flatMap_escapeOctet_le value
  omega

/-- The texts `AppendJsonString` appends, one by one. Kind: D -/
def stringTexts (name value : List UInt8) : List (List UInt8) :=
  if value = [] then []
  else [ascii ",\"", name, ascii "\":\"", escapeLoop (nucRedfishStrMax * 2) [] value, ascii "\""]

lemma appendJsonString_eq_foldl (json : List UInt8) (jsonSize : ℕ) (name value : List UInt8) :
    appendJsonString json jsonSize name value =
      (stringTexts name value).foldl (asciiStrCatS jsonSize) json := by
  unfold appendJsonString stringTexts
  split_ifs <;> rfl

/-- Together they are the member. Kind: L -/
theorem flatten_stringTexts {name : List UInt8} (hname : ∀ c ∈ name, Json.Plain c)
    {value : List UInt8} (hvalue : value.length < nucRedfishStrMax) :
    (stringTexts name value).flatten = Json.writtenAll (stringMembers name hname value) := by
  unfold stringTexts stringMembers
  split_ifs
  · rfl
  · have hloop : escapeLoop (nucRedfishStrMax * 2) [] value = value.flatMap escapeOctet := by
      rw [escapeLoop_eq [] (by rw [List.length_nil]; omega), List.nil_append]
    have hcomma : ascii ",\"" = [0x2C, 0x22] := by decide +kernel
    have hcolon : ascii "\":\"" = [0x22, 0x3A, 0x22] := by decide +kernel
    have hquote : ascii "\"" = [0x22] := by decide +kernel
    simp [hloop, hcomma, hcolon, hquote, Json.writtenAll, Json.Member.written, stringMember]

/-- What `AppendJsonString` does when everything fits. Kind: P -/
theorem appendJsonString_eq {json name : List UInt8} {jsonSize : ℕ}
    (hname : ∀ c ∈ name, Json.Plain c) {value : List UInt8}
    (hvalue : value.length < nucRedfishStrMax)
    (hfits : json.length + name.length + 2 * value.length + 6 < jsonSize) :
    appendJsonString json jsonSize name value =
      json ++ Json.writtenAll (stringMembers name hname value) := by
  have hlen := length_writtenAll_stringMembers_le name hname value
  rw [appendJsonString_eq_foldl, foldl_asciiStrCatS, flatten_stringTexts hname hvalue]
  rw [flatten_stringTexts hname hvalue]
  omega

/-! ### A body as a list of appends -/

/-- One optional member of a body: the texts handed to `AsciiStrCatS` one after the other, the
member they make up (or none), and how long it can get.
Kind: D -/
structure Append where
  key : List UInt8
  texts : List (List UInt8)
  members : List Json.Member
  bound : ℕ
  flatten_texts : texts.flatten = Json.writtenAll members
  keys_members : (members.map Json.Member.key).Sublist [key]
  length_le : texts.flatten.length ≤ bound

namespace Append

/-- What `AppendJsonString` appends. Kind: D -/
def string (name : List UInt8) (hname : ∀ c ∈ name, Json.Plain c) (value : List UInt8)
    (hvalue : value.length < nucRedfishStrMax) (bound : ℕ)
    (hbound : name.length + (value.flatMap escapeOctet).length + 6 ≤ bound) : Append where
  key := name
  texts := stringTexts name value
  members := stringMembers name hname value
  bound := bound
  flatten_texts := flatten_stringTexts hname hvalue
  keys_members := keys_stringMembers name hname value
  length_le := by
    rw [flatten_stringTexts hname hvalue]
    exact (length_writtenAll_stringMembers_le_escaped name hname value).trans hbound

/-- A field of a record: at worst, every character of it is escaped. Kind: D -/
def field (name : List UInt8) (hname : ∀ c ∈ name, Json.Plain c)
    (value : CString nucRedfishStrMax) : Append :=
  string name hname value.text value.fits (name.length + 132) <| by
    have hlen := length_flatMap_escapeOctet_le value.text
    have hfits : value.text.length < 64 := value.fits
    omega

lemma foldl_string (json : List UInt8) (jsonSize : ℕ) {name value : List UInt8}
    (hname : ∀ c ∈ name, Json.Plain c) (hvalue : value.length < nucRedfishStrMax) {bound : ℕ}
    (hbound : name.length + (value.flatMap escapeOctet).length + 6 ≤ bound) :
    (string name hname value hvalue bound hbound).texts.foldl (asciiStrCatS jsonSize) json =
      appendJsonString json jsonSize name value :=
  (appendJsonString_eq_foldl json jsonSize name value).symm

lemma foldl_field (json : List UInt8) (jsonSize : ℕ) {name : List UInt8}
    (hname : ∀ c ∈ name, Json.Plain c) (value : CString nucRedfishStrMax) :
    (field name hname value).texts.foldl (asciiStrCatS jsonSize) json =
      appendJsonString json jsonSize name value.text :=
  foldl_string json jsonSize hname _ _

/-- A member printed into a buffer of its own and appended whole, if there is something to say.
Kind: D -/
def printed (present : Prop) [Decidable present] (text : List UInt8) (m : Json.Member) (bound : ℕ)
    (htext : present → text = 0x2C :: m.written) (hbound : present → text.length ≤ bound) :
    Append where
  key := m.key
  texts := if present then [text] else []
  members := if present then [m] else []
  bound := bound
  flatten_texts := by
    split_ifs with h
    · rw [List.flatten_singleton, htext h]
      exact (List.append_nil _).symm
    · rfl
  keys_members := by
    split_ifs
    · exact List.Sublist.refl _
    · exact List.nil_sublist _
  length_le := by
    split_ifs with h
    · rw [List.flatten_singleton]
      exact hbound h
    · exact Nat.zero_le _

lemma foldl_printed (json : List UInt8) (jsonSize : ℕ) (present : Prop) [Decidable present]
    (text : List UInt8) (m : Json.Member) (bound : ℕ) (htext : present → text = 0x2C :: m.written)
    (hbound : present → text.length ≤ bound) :
    (printed present text m bound htext hbound).texts.foldl (asciiStrCatS jsonSize) json =
      if present then asciiStrCatS jsonSize json text else json := by
  show List.foldl _ json (if present then [text] else []) = _
  split_ifs <;> rfl

/-- What `AppendJsonNumber` appends. Kind: D -/
def number (name : List UInt8) (hname : ∀ c ∈ name, Json.Plain c) (hlen : name.length ≤ 17)
    (value : UInt32) (hvalue : value.toNat < 2 ^ 31) : Append :=
  printed (value ≠ 0) (numberText name value) (numberMember name hname value) (name.length + 14)
    (fun _ => numberText_eq hname hlen hvalue)
    (fun _ => numberText_eq hname hlen hvalue ▸ length_numberMember_le hname value)

lemma foldl_number (json : List UInt8) (jsonSize : ℕ) {name : List UInt8}
    (hname : ∀ c ∈ name, Json.Plain c) (hlen : name.length ≤ 17) {value : UInt32}
    (hvalue : value.toNat < 2 ^ 31) :
    (number name hname hlen value hvalue).texts.foldl (asciiStrCatS jsonSize) json =
      appendJsonNumber json jsonSize name value := by
  rw [number, foldl_printed, appendJsonNumber, ite_not]

variable (appends : List Append)

/-- All the texts, in the order they are appended. The closing brace is the last. Kind: D -/
def allTexts : List (List UInt8) := appends.flatMap texts ++ [ascii "\x7d"]

/-- One append after the other, then the brace. Kind: L -/
theorem foldl_allTexts_eq (size : ℕ) (front : List UInt8) :
    (allTexts appends).foldl (asciiStrCatS size) front =
      asciiStrCatS size
        (appends.foldl (fun body a => a.texts.foldl (asciiStrCatS size) body) front)
        (ascii "\x7d") := by
  rw [allTexts, List.foldl_append, List.foldl_flatMap]
  rfl

/-- The members there are. Kind: D -/
def allMembers : List Json.Member := appends.flatMap members

lemma flatten_flatMap_texts :
    (appends.flatMap texts).flatten = Json.writtenAll (allMembers appends) := by
  induction appends with
  | nil => rfl
  | cons a appends ih =>
      rw [List.flatMap_cons, List.flatten_append, a.flatten_texts, ih]
      exact List.flatMap_append.symm

lemma flatten_allTexts :
    (allTexts appends).flatten = Json.writtenAll (allMembers appends) ++ [0x7D] := by
  rw [allTexts, List.flatten_append, flatten_flatMap_texts, List.flatten_singleton]
  rfl

/-- The octets an append adds. Kind: D -/
def size (a : Append) : ℕ := a.texts.flatten.length

lemma length_flatten_allTexts :
    (allTexts appends).flatten.length = (appends.map size).sum + 1 := by
  rw [allTexts, List.flatten_append, List.length_append]
  refine congrArg (· + 1) ?_
  induction appends with
  | nil => rfl
  | cons a appends ih =>
      rw [List.flatMap_cons, List.flatten_append, List.length_append, ih, List.map_cons,
        List.sum_cons, size]

lemma length_flatten_allTexts_le :
    (allTexts appends).flatten.length ≤ (appends.map bound).sum + 1 := by
  rw [length_flatten_allTexts]
  exact Nat.add_le_add_right (List.sum_le_sum fun a _ => a.length_le) 1

/-- Whatever is there, the keys keep their order. Kind: L -/
theorem keys_allMembers :
    ((allMembers appends).map Json.Member.key).Sublist (appends.map key) := by
  induction appends with
  | nil => exact List.Sublist.refl _
  | cons a appends ih =>
      rw [allMembers, List.flatMap_cons, List.map_append, List.map_cons]
      exact a.keys_members.append ih

variable {appends} {front : List UInt8} {first : Json.Member} {firsts : List Json.Member}

/-- **A body that has room for all its appends is one object with all its members.** `first` and
`firsts` are the members the body starts with.
Kind: P -/
theorem foldl_allTexts (hfront : front = 0x7B :: (first.written ++ Json.writtenAll firsts))
    {size : ℕ} (hfits : front.length + (allTexts appends).flatten.length < size) :
    (allTexts appends).foldl (asciiStrCatS size) front = front ++ (allTexts appends).flatten ∧
      Json.decode (front ++ (allTexts appends).flatten) =
        some (.obj ((first :: (firsts ++ allMembers appends)).map Json.Member.pair)) := by
  refine ⟨foldl_asciiStrCatS hfits, ?_⟩
  rw [← Json.decode_obj, flatten_allTexts, hfront]
  simp [Json.writtenAll]

lemma map_fst_pair (ms : List Json.Member) :
    (ms.map Json.Member.pair).map Prod.fst = ms.map Json.Member.key := List.map_map

/-- An append that has nothing to say leaves its key out. Kind: L -/
theorem key_not_mem_of_members_eq_nil
    (hkeys : ((first :: firsts).map Json.Member.key ++ appends.map key).Nodup) {a : Append}
    (ha : a ∈ appends) (hnone : a.members = []) :
    a.key ∉ (first :: (firsts ++ allMembers appends)).map Json.Member.key := by
  obtain ⟨before, after, rfl⟩ := List.append_of_mem ha
  rw [List.map_append, List.map_cons, ← List.append_assoc] at hkeys
  have hnot := (List.nodup_cons.mp (List.nodup_middle.mp hkeys)).1
  have hall : allMembers (before ++ a :: after) = allMembers before ++ allMembers after := by
    simp [allMembers, hnone]
  have hsub : ((first :: (firsts ++ allMembers (before ++ a :: after))).map
      Json.Member.key).Sublist ((first :: firsts).map Json.Member.key ++ before.map key ++
        after.map key) := by
    rw [hall, ← List.append_assoc, ← List.cons_append, ← List.cons_append, List.map_append,
      List.map_append]
    exact ((List.Sublist.refl _).append (keys_allMembers before)).append (keys_allMembers after)
  exact fun hmem => hnot (hsub.subset hmem)

/-- Where no key occurs twice, every append is found under its key, or found missing. Kind: L -/
theorem lookup_key
    (hkeys : ((first :: firsts).map Json.Member.key ++ appends.map key).Nodup) {a : Append}
    (ha : a ∈ appends) :
    Json.lookup a.key ((first :: (firsts ++ allMembers appends)).map Json.Member.pair) =
      a.members.head?.map Json.Member.value := by
  rcases hmembers : a.members with _ | ⟨m, ms⟩
  · apply Json.lookup_eq_none
    rw [map_fst_pair]
    exact key_not_mem_of_members_eq_nil hkeys ha hmembers
  · have hkey : m.key = a.key := by
      have hsub := a.keys_members
      rw [hmembers, List.map_cons] at hsub
      exact List.mem_singleton.mp (hsub.subset List.mem_cons_self)
    have hm : m ∈ first :: (firsts ++ allMembers appends) := by
      refine List.mem_cons_of_mem _ (List.mem_append_right _ (List.mem_flatMap.mpr ⟨a, ha, ?_⟩))
      rw [hmembers]
      exact List.mem_cons_self
    have hsub : ((first :: (firsts ++ allMembers appends)).map Json.Member.key).Sublist
        ((first :: firsts).map Json.Member.key ++ appends.map key) := by
      rw [← List.cons_append, List.map_append]
      exact (List.Sublist.refl _).append (keys_allMembers appends)
    rw [← hkey]
    exact Json.lookup_of_mem (by rw [map_fst_pair]; exact hkeys.sublist hsub)
      (List.mem_map_of_mem hm)

/-- A string is found under its name, unless it is empty. Kind: L -/
theorem lookup_string_eq
    (hkeys : ((first :: firsts).map Json.Member.key ++ appends.map key).Nodup)
    {name value : List UInt8} {hname : ∀ c ∈ name, Json.Plain c}
    {hvalue : value.length < nucRedfishStrMax} {bound : ℕ}
    {hbound : name.length + (value.flatMap escapeOctet).length + 6 ≤ bound}
    (ha : string name hname value hvalue bound hbound ∈ appends) :
    Json.lookup name ((first :: (firsts ++ allMembers appends)).map Json.Member.pair) =
      if value = [] then none else some (.str (value.map blank)) := by
  refine (lookup_key hkeys ha).trans ?_
  show (stringMembers name hname value).head?.map _ = _
  unfold stringMembers
  split_ifs <;> rfl

end Append

end NucBios.Redfish
