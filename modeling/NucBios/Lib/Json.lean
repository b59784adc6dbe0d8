import NucBios.Lib.Machine

/-!
# JSON texts, octet by octet

`reader` is the JSON grammar as a pushdown machine over octets: its stack holds the containers
that are open, with what has been read of each, and its mode says where in the grammar the next
octet falls. `decode` runs it over a whole text.

The machine is built to be run *symbolically*, on texts part of which is not known:

* `Spells text v` says that `text`, met wherever a value may stand, is read as the value `v`.
  It is closed under the constructors of the grammar (`spells_str`, `spells_int`,
  `spells_obj`).
* `run_members`: a run of `,"key":value` texts appends those members to the object being read.
* `exists_str_of_run`: where `","key":` can be read, it is read from inside a string that is the
  value of a member. `run_front_of_decode` and `exists_obj_of_decode` draw the consequence for texts
  whose end is known and whose beginning is not.
* `raw_run`: what becomes of text put into a string without escaping it.

Octets from `0x80` up may stand in a string and are not looked into.
-/

namespace NucBios.Lib

/-- A JSON value. A string is its octets after unescaping; a number keeps the literal that
spells it.
Kind: D -/
inductive Json where
  | null
  | bool (b : Bool)
  | num (literal : List UInt8)
  | str (s : List UInt8)
  | arr (items : List Json)
  | obj (members : List (List UInt8 × Json))

namespace Json

/-- The value under a key of an object. Of several members of one name the last counts.
Kind: D -/
def lookup (key : List UInt8) (members : List (List UInt8 × Json)) : Option Json :=
  (members.reverse.find? fun m => m.1 == key).map Prod.snd

/-- The value under a key, when there is an object to look into. Kind: D -/
def field (key : List UInt8) : Json → Option Json
  | obj members => lookup key members
  | _ => none

lemma lookup_append (key : List UInt8) (ms ms' : List (List UInt8 × Json)) :
    lookup key (ms ++ ms') = (lookup key ms').or (lookup key ms) := by
  rw [lookup, List.reverse_append, List.find?_append, Option.map_or]
  rfl

lemma mem_of_lookup {key : List UInt8} {ms : List (List UInt8 × Json)} {v : Json}
    (h : lookup key ms = some v) : (key, v) ∈ ms := by
  obtain ⟨⟨k, w⟩, hfind, rfl⟩ := Option.map_eq_some_iff.mp h
  have hkey : k = key := by simpa using List.find?_some hfind
  rw [← hkey]
  exact List.mem_reverse.mp (List.mem_of_find?_eq_some hfind)

lemma lookup_eq_none {key : List UInt8} {ms : List (List UInt8 × Json)}
    (h : key ∉ ms.map Prod.fst) : lookup key ms = none := by
  rcases hv : lookup key ms with _ | v
  · rfl
  · exact absurd (List.mem_map_of_mem (f := Prod.fst) (mem_of_lookup hv)) h

/-- Where no key occurs twice, each member is found under its key. Kind: L -/
theorem lookup_of_mem {ms : List (List UInt8 × Json)} {m : List UInt8 × Json}
    (hkeys : (ms.map Prod.fst).Nodup) (h : m ∈ ms) : lookup m.1 ms = some m.2 := by
  obtain ⟨front, back, rfl⟩ := List.append_of_mem h
  rw [List.map_append, List.map_cons] at hkeys
  have hback : m.1 ∉ back.map Prod.fst := (List.nodup_cons.mp hkeys.of_append_right).1
  rw [← List.singleton_append, ← List.append_assoc, lookup_append, lookup_eq_none hback,
    lookup_append]
  simp [lookup]

/-- Decimal digits, most significant first. Kind: D -/
def natOfDigits (digits : List UInt8) : ℕ := digits.foldl (fun n c => 10 * n + (c.toNat - 0x30)) 0

/-- The number an integer literal without sign stands for. Kind: D -/
def nat : Json → Option ℕ
  | num literal =>
      if literal.all fun c => 0x30 ≤ c && c ≤ 0x39 then some (natOfDigits literal) else none
  | _ => none

/-! ### The grammar -/

/-- Space, tab, line feed, carriage return. Kind: D -/
def isSpace (c : UInt8) : Bool := c == 0x20 || c == 0x09 || c == 0x0A || c == 0x0D

def isDigit (c : UInt8) : Bool := 0x30 ≤ c && c ≤ 0x39

/-- Where in a number the next octet falls. Kind: D -/
inductive NumMode where
  | minus
  | zero
  | int
  | point
  | frac
  | exp
  | expSign
  | expInt
  deriving DecidableEq

/-- The number may end here. Kind: D -/
def NumMode.complete : NumMode → Bool
  | zero | int | frac | expInt => true
  | _ => false

/-- One more octet of a number. Kind: D -/
def NumMode.next : NumMode → UInt8 → Option NumMode
  | minus, c => if c = 0x30 then some zero else if isDigit c then some int else none
  | zero, c => if c = 0x2E then some point else if c = 0x65 ∨ c = 0x45 then some exp else none
  | int, c =>
      if isDigit c then some int else if c = 0x2E then some point
      else if c = 0x65 ∨ c = 0x45 then some exp else none
  | point, c => if isDigit c then some frac else none
  | frac, c => if isDigit c then some frac else if c = 0x65 ∨ c = 0x45 then some exp else none
  | exp, c =>
      if isDigit c then some expInt else if c = 0x2B ∨ c = 0x2D then some expSign else none
  | expSign, c => if isDigit c then some expInt else none
  | expInt, c => if isDigit c then some expInt else none

/-- The three words. Kind: D -/
inductive Word where
  | true
  | false
  | null

def Word.text : Word → List UInt8
  | true => [0x74, 0x72, 0x75, 0x65]
  | false => [0x66, 0x61, 0x6C, 0x73, 0x65]
  | null => [0x6E, 0x75, 0x6C, 0x6C]

def Word.value : Word → Json
  | true => .bool Bool.true
  | false => .bool Bool.false
  | null => .null

/-- A container part way through. In an object, `key` is the name whose value is being read, and
empty between members.
Kind: D -/
inductive Frame where
  | arr (items : List Json)
  | obj (members : List (List UInt8 × Json)) (key : List UInt8)

/-- Where in the grammar the next octet falls. A string remembers whether it is a key.
Kind: D -/
inductive Mode where
  | value
  | valueOrEnd
  | key
  | keyOrEnd
  | colon
  | after
  | str (isKey : Bool) (read : List UInt8)
  | esc (isKey : Bool) (read : List UInt8)
  | hex (isKey : Bool) (read : List UInt8) (unit more : ℕ)
  | num (m : NumMode) (read : List UInt8)
  | word (w : Word) (read : ℕ)
  | done (v : Json)

structure State where
  stack : List Frame
  mode : Mode

/-- A value is complete: it goes into the innermost container, or is the whole text's.
Kind: D -/
def deliver : List Frame → Json → State
  | [], v => ⟨[], .done v⟩
  | .arr items :: fs, v => ⟨.arr (items ++ [v]) :: fs, .after⟩
  | .obj members key :: fs, v => ⟨.obj (members ++ [(key, v)]) [] :: fs, .after⟩

/-- What may follow a complete value: space, a comma, the end of its container. Kind: D -/
def follow (s : State) (c : UInt8) : Option State :=
  if isSpace c then some s
  else match s.stack with
    | [] => none
    | .arr items :: fs =>
        if c = 0x2C then some ⟨.arr items :: fs, .value⟩
        else if c = 0x5D then some (deliver fs (.arr items)) else none
    | .obj members key :: fs =>
        if c = 0x2C then some ⟨.obj members key :: fs, .key⟩
        else if c = 0x7D then some (deliver fs (.obj members)) else none

/-- The first octet of a value. Kind: D -/
def openValue (fs : List Frame) (c : UInt8) : Option State :=
  if c = 0x22 then some ⟨fs, .str false []⟩
  else if c = 0x7B then some ⟨.obj [] [] :: fs, .keyOrEnd⟩
  else if c = 0x5B then some ⟨.arr [] :: fs, .valueOrEnd⟩
  else if c = 0x2D then some ⟨fs, .num .minus [c]⟩
  else if c = 0x30 then some ⟨fs, .num .zero [c]⟩
  else if isDigit c then some ⟨fs, .num .int [c]⟩
  else if c = 0x74 then some ⟨fs, .word .true 1⟩
  else if c = 0x66 then some ⟨fs, .word .false 1⟩
  else if c = 0x6E then some ⟨fs, .word .null 1⟩
  else none

/-- The closing quote of a string. Kind: D -/
def closeStr (fs : List Frame) (isKey : Bool) (read : List UInt8) : Option State :=
  if isKey then
    match fs with
    | .obj members _ :: fs => some ⟨.obj members read :: fs, .colon⟩
    | _ => none
  else some (deliver fs (.str read))

/-- The octet an escape of two characters stands for. Kind: D -/
def unescape (c : UInt8) : Option UInt8 :=
  if c = 0x22 ∨ c = 0x5C ∨ c = 0x2F then some c
  else if c = 0x62 then some 0x08 else if c = 0x66 then some 0x0C
  else if c = 0x6E then some 0x0A else if c = 0x72 then some 0x0D
  else if c = 0x74 then some 0x09 else none

def hexDigit (c : UInt8) : Option ℕ :=
  if isDigit c then some (c.toNat - 0x30)
  else if 0x61 ≤ c ∧ c ≤ 0x66 then some (c.toNat - 0x57)
  else if 0x41 ≤ c ∧ c ≤ 0x46 then some (c.toNat - 0x37)
  else none

/-- The octets of a 16-bit unit. The two halves of a surrogate pair stay apart. Kind: D -/
def utf8 (u : ℕ) : List UInt8 :=
  if u < 0x80 then [UInt8.ofNat u]
  else if u < 0x800 then [UInt8.ofNat (0xC0 + u / 64), UInt8.ofNat (0x80 + u % 64)]
  else [UInt8.ofNat (0xE0 + u / 4096), UInt8.ofNat (0x80 + u / 64 % 64),
    UInt8.ofNat (0x80 + u % 64)]

/-- One octet of a text. Kind: D -/
def step (s : State) (c : UInt8) : Option State :=
  match s.mode with
  | .value => if isSpace c then some s else openValue s.stack c
  | .valueOrEnd =>
      if isSpace c then some s
      else if c = 0x5D then follow ⟨s.stack, .after⟩ c else openValue s.stack c
  | .key => if isSpace c then some s else if c = 0x22 then some ⟨s.stack, .str true []⟩ else none
  | .keyOrEnd =>
      if isSpace c then some s
      else if c = 0x7D then follow ⟨s.stack, .after⟩ c
      else if c = 0x22 then some ⟨s.stack, .str true []⟩ else none
  | .colon => if isSpace c then some s else if c = 0x3A then some ⟨s.stack, .value⟩ else none
  | .after => follow s c
  | .str isKey read =>
      if c = 0x22 then closeStr s.stack isKey read
      else if c = 0x5C then some ⟨s.stack, .esc isKey read⟩
      else if c < 0x20 then none
      else some ⟨s.stack, .str isKey (read ++ [c])⟩
  | .esc isKey read =>
      if c = 0x75 then some ⟨s.stack, .hex isKey read 0 3⟩
      else (unescape c).map fun o => ⟨s.stack, .str isKey (read ++ [o])⟩
  | .hex isKey read unit more =>
      (hexDigit c).map fun d =>
        match more with
        | 0 => ⟨s.stack, .str isKey (read ++ utf8 (16 * unit + d))⟩
        | more + 1 => ⟨s.stack, .hex isKey read (16 * unit + d) more⟩
  | .num m read =>
      match m.next c with
      | some m => some ⟨s.stack, .num m (read ++ [c])⟩
      -- A number has no closing octet: the one that follows it ends it and counts.
      | none => if m.complete then follow (deliver s.stack (.num read)) c else none
  | .word w read =>
      if w.text[read]? = some c then
        some (if read + 1 = w.text.length then deliver s.stack w.value
          else ⟨s.stack, .word w (read + 1)⟩)
      else none
  | .done _ => follow s c

/-- The grammar as a machine. Kind: D -/
def reader : Machine State UInt8 := ⟨step⟩

/-- The value of a text, when the text is JSON. Kind: D -/
def decode (text : List UInt8) : Option Json :=
  (reader.run ⟨[], .value⟩ text).bind fun s =>
    match s.stack, s.mode with
    | [], .done v => some v
    | [], .num m read => if m.complete then some (.num read) else none
    | _, _ => none

@[simp] theorem reader_step : reader.step = step := rfl

@[simp] theorem step_deliver (fs : List Frame) (v : Json) (c : UInt8) :
    step (deliver fs v) c = follow (deliver fs v) c := by
  match fs with
  | [] => rfl
  | .arr _ :: _ => rfl
  | .obj _ _ :: _ => rfl

/-! ### Inside a string -/

/-- An octet that stands for itself in a string. Kind: D -/
def Plain (c : UInt8) : Prop := 0x20 ≤ c ∧ c ≠ 0x22 ∧ c ≠ 0x5C

instance : DecidablePred Plain := fun _ => inferInstanceAs (Decidable (_ ∧ _ ∧ _))

-- by the text itself, not by going through all octets
instance (text : List UInt8) : Decidable (∀ c ∈ text, Plain c) := List.decidableBAll Plain text

/-- Inside a string, `text` is read as `s`. Kind: D -/
def Quotes (text s : List UInt8) : Prop :=
  ∀ fs isKey read, reader.run ⟨fs, .str isKey read⟩ text = some ⟨fs, .str isKey (read ++ s)⟩

lemma quotes_nil : Quotes [] [] := by
  intro fs isKey read
  rw [Machine.run_nil, List.append_nil]

lemma Quotes.append {text text' s s' : List UInt8} (h : Quotes text s) (h' : Quotes text' s') :
    Quotes (text ++ text') (s ++ s') := by
  intro fs isKey read
  rw [Machine.run_append, h, Option.bind_some, h', List.append_assoc]

lemma quotes_plain {c : UInt8} (h : Plain c) : Quotes [c] [c] := by
  intro fs isKey read
  obtain ⟨hctl, hquote, hslash⟩ := h
  have hge : ¬ c < 0x20 := UInt8.not_lt.mpr hctl
  simp [step, hquote, hslash, hge]

/-- An escaped quote or backslash. Kind: L -/
theorem quotes_escaped {c : UInt8} (h : c = 0x22 ∨ c = 0x5C) : Quotes [0x5C, c] [c] := by
  intro fs isKey read
  rcases h with rfl | rfl <;> simp [step, unescape]

lemma quotes_self : ∀ {text : List UInt8}, (∀ c ∈ text, Plain c) → Quotes text text
  | [], _ => quotes_nil
  | c :: text, h => by
      have htext := quotes_self fun c hc => h c (List.mem_cons_of_mem _ hc)
      exact (quotes_plain (h c List.mem_cons_self)).append htext

/-! ### Where a value may stand -/

/-- The two states take the same course at any octet that can end a value. A number that has been
read and not yet been ended settles into its delivery.
Kind: D -/
def Settles (s t : State) : Prop :=
  ∀ c : UInt8, c = 0x2C ∨ c = 0x5D ∨ c = 0x7D → step s c = step t c

/-- Met where a value may stand, `text` is read as `v`. Kind: D -/
def Spells (text : List UInt8) (v : Json) : Prop :=
  ∀ fs, ∃ s, reader.run ⟨fs, .value⟩ text = some s ∧ Settles s (deliver fs v)

lemma spells_of_run {text : List UInt8} {v : Json}
    (h : ∀ fs, reader.run ⟨fs, .value⟩ text = some (deliver fs v)) : Spells text v :=
  fun fs => ⟨_, h fs, fun _ _ => rfl⟩

lemma spells_str {text s : List UInt8} (h : Quotes text s) :
    Spells (0x22 :: text ++ [0x22]) (.str s) := by
  apply spells_of_run
  intro fs
  have hopen : step ⟨fs, .value⟩ 0x22 = some ⟨fs, .str false []⟩ := rfl
  rw [List.cons_append, Machine.run_cons, reader_step, hopen, Option.bind_some,
    Machine.run_append, h, Option.bind_some]
  rfl

lemma spells_word (w : Word) : Spells w.text w.value :=
  spells_of_run fun _ => by cases w <;> rfl

/-- A number whose reading has come to a complete end. Kind: L -/
theorem settles_num {fs : List Frame} {m : NumMode} (read : List UInt8)
    (hm : m = .zero ∨ m = .int) : Settles ⟨fs, .num m read⟩ (deliver fs (.num read)) := by
  intro c hc
  rw [step_deliver]
  rcases hm with rfl | rfl <;> rcases hc with rfl | rfl | rfl <;> rfl

lemma spells_zero : Spells [0x30] (.num [0x30]) :=
  fun _ => ⟨_, rfl, settles_num _ (.inl rfl)⟩

/-- The digits that follow the first, if that is not a zero. Kind: L -/
theorem run_int_of_digits {fs : List Frame} : ∀ {digits : List UInt8} (read : List UInt8),
    (∀ c ∈ digits, isDigit c = true) →
    reader.run ⟨fs, .num .int read⟩ digits = some ⟨fs, .num .int (read ++ digits)⟩
  | [], read, _ => by rw [Machine.run_nil, List.append_nil]
  | c :: digits, read, h => by
      have hc : step ⟨fs, .num .int read⟩ c = some ⟨fs, .num .int (read ++ [c])⟩ := by
        simp [step, NumMode.next, h c List.mem_cons_self]
      rw [Machine.run_cons, reader_step, hc, Option.bind_some,
        run_int_of_digits _ fun c hc => h c (List.mem_cons_of_mem _ hc), List.append_assoc,
        List.singleton_append]

lemma spells_int {c : UInt8} {digits : List UInt8} (hc : isDigit c = true) (hzero : c ≠ 0x30)
    (hdigits : ∀ c ∈ digits, isDigit c = true) : Spells (c :: digits) (.num (c :: digits)) := by
  intro fs
  have hbounds : 0x30 ≤ c ∧ c ≤ 0x39 := by simpa [isDigit] using hc
  have hopen : step ⟨fs, .value⟩ c = some ⟨fs, .num .int [c]⟩ := by
    have hne : ∀ d : UInt8, d < 0x30 ∨ 0x39 < d → c ≠ d := by
      rintro d (hd | hd) rfl
      · exact absurd hbounds.1 (UInt8.not_le.mpr hd)
      · exact absurd hbounds.2 (UInt8.not_le.mpr hd)
    have hspace : isSpace c = false := by
      simp [isSpace, hne 0x20 (by decide), hne 0x09 (by decide), hne 0x0A (by decide),
        hne 0x0D (by decide)]
    simp [step, openValue, hspace, hc, hzero, hne 0x22 (by decide), hne 0x7B (by decide),
      hne 0x5B (by decide), hne 0x2D (by decide)]
  refine ⟨⟨fs, .num .int (c :: digits)⟩, ?_, settles_num _ (.inr rfl)⟩
  rw [Machine.run_cons, reader_step, hopen, Option.bind_some, run_int_of_digits _ hdigits,
    List.singleton_append]

lemma spells_neg {c : UInt8} {digits : List UInt8} (hc : isDigit c = true) (hzero : c ≠ 0x30)
    (hdigits : ∀ c ∈ digits, isDigit c = true) :
    Spells (0x2D :: c :: digits) (.num (0x2D :: c :: digits)) := by
  intro fs
  have hopen : step ⟨fs, .value⟩ 0x2D = some ⟨fs, .num .minus [0x2D]⟩ := rfl
  have hfirst : step ⟨fs, .num .minus [0x2D]⟩ c = some ⟨fs, .num .int [0x2D, c]⟩ := by
    simp [step, NumMode.next, hzero, hc]
  refine ⟨⟨fs, .num .int (0x2D :: c :: digits)⟩, ?_, settles_num _ (.inr rfl)⟩
  rw [Machine.run_cons, reader_step, hopen, Option.bind_some, Machine.run_cons, reader_step, hfirst,
    Option.bind_some, run_int_of_digits _ hdigits]
  rfl

/-! ### Members -/

/-- A member as it is written: a key that needs no escaping, and a text that spells its value.
Kind: D -/
structure Member where
  key : List UInt8
  text : List UInt8
  value : Json
  plain : ∀ c ∈ key, Plain c
  spells : Spells text value

/-- `"key":text` Kind: D -/
def Member.written (m : Member) : List UInt8 := 0x22 :: m.key ++ 0x22 :: 0x3A :: m.text

/-- `,"key":text` for each of the members. Kind: D -/
def writtenAll (ms : List Member) : List UInt8 := ms.flatMap fun m => 0x2C :: m.written

def Member.pair (m : Member) : List UInt8 × Json := (m.key, m.value)

variable (fs : List Frame)

lemma run_written (m : Member) {mode : Mode} (members : List (List UInt8 × Json))
    (hmode : mode = .key ∨ mode = .keyOrEnd) :
    ∃ s, reader.run ⟨.obj members [] :: fs, mode⟩ m.written = some s ∧
      Settles s ⟨.obj (members ++ [m.pair]) [] :: fs, .after⟩ := by
  obtain ⟨s, hrun, hs⟩ := m.spells (.obj members m.key :: fs)
  refine ⟨s, ?_, hs⟩
  have hopen : step ⟨.obj members [] :: fs, mode⟩ 0x22 =
      some ⟨.obj members [] :: fs, .str true []⟩ := by
    rcases hmode with rfl | rfl <;> rfl
  have hclose : step ⟨.obj members [] :: fs, .str true ([] ++ m.key)⟩ 0x22 =
      some ⟨.obj members m.key :: fs, .colon⟩ := rfl
  have hcolon : step ⟨.obj members m.key :: fs, .colon⟩ 0x3A =
      some ⟨.obj members m.key :: fs, .value⟩ := rfl
  rw [Member.written, List.cons_append, Machine.run_cons, reader_step, hopen, Option.bind_some,
    Machine.run_append, quotes_self m.plain, Option.bind_some, Machine.run_cons, reader_step,
    hclose, Option.bind_some, Machine.run_cons, reader_step, hcolon, Option.bind_some, hrun]

/-- Between members, members are appended. Kind: P -/
theorem run_members : ∀ (ms : List Member) {s : State} {members : List (List UInt8 × Json)},
    Settles s ⟨.obj members [] :: fs, .after⟩ →
    ∃ t, reader.run s (writtenAll ms) = some t ∧
      Settles t ⟨.obj (members ++ ms.map Member.pair) [] :: fs, .after⟩
  | [], s, members, hs => ⟨s, rfl, by rwa [List.map_nil, List.append_nil]⟩
  | m :: ms, s, members, hs => by
      obtain ⟨t, ht, hsettles⟩ := run_written fs m members (.inl rfl)
      obtain ⟨u, hu, hsettles'⟩ := run_members ms hsettles
      have hcomma : step s 0x2C = some ⟨.obj members [] :: fs, .key⟩ := by
        rw [hs 0x2C (.inl rfl)]
        rfl
      refine ⟨u, ?_, by simpa using hsettles'⟩
      rw [writtenAll, List.flatMap_cons, Machine.run_append, Machine.run_cons, reader_step,
        hcomma, Option.bind_some, ht, Option.bind_some]
      exact hu

/-- The brace that closes an object. Kind: L -/
theorem step_close_of_settles {fs : List Frame} {s : State} {members : List (List UInt8 × Json)}
    (h : Settles s ⟨.obj members [] :: fs, .after⟩) :
    step s 0x7D = some (deliver fs (.obj members)) := by
  rw [h 0x7D (.inr (.inr rfl))]
  rfl

/-- An object, up to where the next comma or the closing brace is due. Kind: L -/
theorem run_unclosed (m : Member) (ms : List Member) :
    ∃ t, reader.run ⟨fs, .value⟩ (0x7B :: (m.written ++ writtenAll ms)) = some t ∧
      Settles t ⟨.obj ((m :: ms).map Member.pair) [] :: fs, .after⟩ := by
  obtain ⟨s, hs, hsettles⟩ := run_written fs m [] (.inr rfl)
  obtain ⟨t, ht, hsettles'⟩ := run_members fs ms hsettles
  have hopen : step ⟨fs, .value⟩ 0x7B = some ⟨.obj [] [] :: fs, .keyOrEnd⟩ := rfl
  refine ⟨t, ?_, hsettles'⟩
  rw [Machine.run_cons, reader_step, hopen, Option.bind_some, Machine.run_append, hs,
    Option.bind_some, ht]

lemma run_obj (m : Member) (ms : List Member) :
    reader.run ⟨fs, .value⟩ (0x7B :: (m.written ++ writtenAll ms) ++ [0x7D]) =
      some (deliver fs (.obj ((m :: ms).map Member.pair))) := by
  obtain ⟨t, ht, hsettles⟩ := run_unclosed fs m ms
  rw [Machine.run_append, ht, Option.bind_some, Machine.run_cons, reader_step,
    step_close_of_settles hsettles]
  rfl

lemma spells_obj (m : Member) (ms : List Member) :
    Spells (0x7B :: (m.written ++ writtenAll ms) ++ [0x7D]) (.obj ((m :: ms).map Member.pair)) :=
  spells_of_run fun fs => run_obj fs m ms

lemma decode_obj (m : Member) (ms : List Member) :
    decode (0x7B :: (m.written ++ writtenAll ms) ++ [0x7D]) =
      some (.obj ((m :: ms).map Member.pair)) := by
  rw [decode, run_obj, Option.bind_some]
  rfl

/-- Without its closing brace an object is no JSON text. Kind: L -/
theorem decode_unclosed (m : Member) (ms : List Member) :
    decode (0x7B :: (m.written ++ writtenAll ms)) = none := by
  obtain ⟨t, ht, hsettles⟩ := run_unclosed [] m ms
  have hcomma : step t 0x2C = some ⟨[.obj ((m :: ms).map Member.pair) []], .key⟩ :=
    hsettles 0x2C (.inl rfl)
  rw [decode, ht, Option.bind_some]
  -- Where the text could end, a comma could not follow.
  rcases t with ⟨stack, mode⟩
  match stack, mode with
  | [], .done v => cases hcomma
  | [], .num m read => cases m <;> cases hcomma
  | [], .value | [], .valueOrEnd | [], .key | [], .keyOrEnd | [], .colon | [], .after => rfl
  | [], .str _ _ | [], .esc _ _ | [], .hex _ _ _ _ | [], .word _ _ => rfl
  | _ :: _, _ => rfl

/-- The beginning of an object, up to the opening quote of a member's string. Kind: L -/
theorem run_open_member (m : Member) (ms : List Member) {key : List UInt8}
    (hkey : ∀ c ∈ key, Plain c) :
    reader.run ⟨fs, .value⟩ (0x7B :: (m.written ++ writtenAll ms) ++
        (0x2C :: 0x22 :: key ++ [0x22, 0x3A, 0x22])) =
      some ⟨.obj ((m :: ms).map Member.pair) key :: fs, .str false []⟩ := by
  obtain ⟨t, ht, hsettles⟩ := run_unclosed fs m ms
  have hcomma : step t 0x2C = some ⟨.obj ((m :: ms).map Member.pair) [] :: fs, .key⟩ := by
    rw [hsettles 0x2C (.inl rfl)]
    rfl
  have hquote : step ⟨.obj ((m :: ms).map Member.pair) [] :: fs, .key⟩ 0x22 =
      some ⟨.obj ((m :: ms).map Member.pair) [] :: fs, .str true []⟩ := rfl
  rw [Machine.run_append, ht, Option.bind_some, List.cons_append, Machine.run_cons, reader_step,
    hcomma, Option.bind_some, List.cons_append, Machine.run_cons, reader_step, hquote,
    Option.bind_some, Machine.run_append, quotes_self hkey, Option.bind_some]
  rfl

/-- An array of one value. Kind: L -/
theorem spells_singleton {c : UInt8} {text : List UInt8} {v : Json} (hspace : isSpace c = false)
    (hclose : c ≠ 0x5D) (h : Spells (c :: text) v) :
    Spells (0x5B :: (c :: text) ++ [0x5D]) (.arr [v]) := by
  apply spells_of_run
  intro fs
  obtain ⟨s, hs, hsettles⟩ := h (.arr [] :: fs)
  have hopen : step ⟨fs, .value⟩ 0x5B = some ⟨.arr [] :: fs, .valueOrEnd⟩ := rfl
  have hfirst : step ⟨.arr [] :: fs, .valueOrEnd⟩ c = step ⟨.arr [] :: fs, .value⟩ c := by
    simp [step, hspace, hclose]
  have hrun : reader.run ⟨.arr [] :: fs, .valueOrEnd⟩ (c :: text) = some s := by
    rw [← hs, Machine.run_cons, Machine.run_cons, reader_step, hfirst]
  rw [List.cons_append, Machine.run_cons, reader_step, hopen, Option.bind_some,
    Machine.run_append, hrun, Option.bind_some, Machine.run_cons, reader_step,
    hsettles 0x5D (.inr (.inl rfl))]
  rfl

/-- A member whose value is an object. Kind: D -/
def Member.ofObj (key : List UInt8) (plain : ∀ c ∈ key, Plain c) (m : Member) (ms : List Member) :
    Member where
  key := key
  text := 0x7B :: (m.written ++ writtenAll ms) ++ [0x7D]
  value := .obj ((m :: ms).map Member.pair)
  plain := plain
  spells := spells_obj m ms

/-! ### What the end of a text says about its beginning -/

/-- An octet that stands for itself in a string and continues nothing outside of one.
Kind: D -/
def Foreign (c : UInt8) : Prop :=
  Plain c ∧ isSpace c = false ∧ c ≠ 0x2C ∧ c ≠ 0x3A ∧ c ≠ 0x5D ∧ c ≠ 0x7D

instance : DecidablePred Foreign := fun _ => inferInstanceAs (Decidable (_ ∧ _))

lemma follow_eq_none (s : State) {c : UInt8}
    (h : isSpace c = false ∧ c ≠ 0x2C ∧ c ≠ 0x5D ∧ c ≠ 0x7D) : follow s c = none := by
  obtain ⟨hspace, hcomma, hbracket, hbrace⟩ := h
  unfold follow
  rw [hspace]
  match s.stack with
  | [] => rfl
  | .arr _ :: _ => simp [hcomma, hbracket]
  | .obj _ _ :: _ => simp [hcomma, hbrace]

lemma step_num_quote (fs : List Frame) (m : NumMode) (read : List UInt8) :
    step ⟨fs, .num m read⟩ 0x22 = none := by
  have hfollow := follow_eq_none (deliver fs (.num read)) (c := 0x22) (by decide)
  cases m <;> simp [step, NumMode.next, isDigit, hfollow]

lemma step_word_quote (fs : List Frame) (w : Word) (read : ℕ) :
    step ⟨fs, .word w read⟩ 0x22 = none := by
  have hne : w.text[read]? ≠ some 0x22 := by
    intro h
    have hmem := List.mem_of_getElem? h
    cases w <;> revert hmem <;> decide
  simp [step, hne]

/-- A quote opens a string, keeps one open behind a backslash, or closes one. Kind: L -/
theorem step_quote_cases {s t : State} (h : step s 0x22 = some t) :
    (∃ isKey read, t = ⟨s.stack, .str isKey read⟩) ∨
    ∃ isKey read, s.mode = .str isKey read ∧ closeStr s.stack isKey read = some t := by
  obtain ⟨fs, mode⟩ := s
  have hfollow : ∀ s, follow s 0x22 = none := fun s => follow_eq_none s (by decide)
  cases mode with
  | value | valueOrEnd | key | keyOrEnd | esc => exact .inl ⟨_, _, (Option.some.inj h).symm⟩
  | colon => cases h
  | hex => cases h
  | after =>
      rw [show step ⟨fs, .after⟩ 0x22 = follow ⟨fs, .after⟩ 0x22 from rfl, hfollow] at h
      cases h
  | done v =>
      rw [show step ⟨fs, .done v⟩ 0x22 = follow ⟨fs, .done v⟩ 0x22 from rfl, hfollow] at h
      cases h
  | num m read =>
      rw [step_num_quote] at h
      cases h
  | word w read =>
      rw [step_word_quote] at h
      cases h
  | str isKey read => exact .inr ⟨isKey, read, rfl, h⟩

/-- Where a string ends and its closing quote is followed by a foreign octet, the text is no JSON.
Kind: L -/
theorem closeStr_bind_eq_none (fs : List Frame) (isKey : Bool) (read : List UInt8) {c : UInt8}
    (hc : Foreign c) : (closeStr fs isKey read).bind (step · c) = none := by
  obtain ⟨-, hspace, hcomma, hcolon, hbracket, hbrace⟩ := hc
  cases isKey with
  | false =>
      show step (deliver fs (.str read)) c = none
      rw [step_deliver]
      exact follow_eq_none _ ⟨hspace, hcomma, hbracket, hbrace⟩
  | true =>
      match fs with
      | [] => rfl
      | .arr _ :: _ => rfl
      | .obj _ _ :: _ => simp [closeStr, step, hspace, hcolon]

lemma run_str_comma_quote (fs : List Frame) (isKey : Bool) (read : List UInt8) {c : UInt8}
    (hc : Foreign c) (rest : List UInt8) :
    reader.run ⟨fs, .str isKey read⟩ (0x2C :: 0x22 :: c :: rest) = none := by
  have hcomma : step ⟨fs, .str isKey read⟩ 0x2C = some ⟨fs, .str isKey (read ++ [0x2C])⟩ := rfl
  have hquote : step ⟨fs, .str isKey (read ++ [0x2C])⟩ 0x22 =
    closeStr fs isKey (read ++ [0x2C]) := rfl
  have hnone := closeStr_bind_eq_none fs isKey (read ++ [0x2C]) hc
  simp only [Machine.run_cons, reader_step, hcomma, hquote, Option.bind_some]
  rw [← Option.bind_assoc, hnone, Option.bind_none]

/-- **The end of a text tells its middle.** Where `","key":` can be read, with a key that starts
with a foreign octet, it is read from inside a string that is the value of a member.
Kind: P -/
theorem exists_str_of_run {s t : State} {c : UInt8} {key rest : List UInt8} (hc : Foreign c)
    (hkey : ∀ d ∈ key, Plain d)
    (h : reader.run s (0x22 :: 0x2C :: 0x22 :: c :: (key ++ 0x22 :: 0x3A :: rest)) = some t) :
    ∃ fs members name read, s = ⟨.obj members name :: fs, .str false read⟩ := by
  obtain ⟨u, hu, hrun⟩ := reader.run_cons_eq_some.mp h
  rcases step_quote_cases hu with ⟨isKey, read, rfl⟩ | ⟨isKey, read, hmode, hclose⟩
  · rw [run_str_comma_quote _ _ _ hc] at hrun
    cases hrun
  obtain ⟨fs, mode⟩ := s
  cases hmode
  cases isKey with
  | true =>
      match fs with
      | [] => cases hclose
      | .arr _ :: _ => cases hclose
      | .obj _ _ :: _ =>
          cases hclose
          cases hrun
  | false =>
      match fs with
      | [] =>
          cases hclose
          cases hrun
      | .obj members name :: fs => exact ⟨fs, members, name, read, rfl⟩
      | .arr items :: fs =>
          -- In an array `"key"` is an item, and the colon has no place.
          cases hclose
          have hplain : Quotes (c :: key) (c :: key) := quotes_self (by simpa using ⟨hc.1, hkey⟩)
          have hkey' : reader.run ⟨.arr (items ++ [.str read]) :: fs, .str false []⟩
              (c :: key ++ 0x22 :: 0x3A :: rest) = some t := hrun
          rw [Machine.run_append, hplain] at hkey'
          cases hkey'

/-- Behind the string of a member, the closing quote, more members and the brace finish the object.
Kind: L -/
theorem run_close_members (fs : List Frame) (members : List (List UInt8 × Json))
    (name read : List UInt8) (ms : List Member) :
    reader.run ⟨.obj members name :: fs, .str false read⟩ (0x22 :: writtenAll ms ++ [0x7D]) =
      some (deliver fs (.obj (members ++ (name, .str read) :: ms.map Member.pair))) := by
  obtain ⟨t, ht, hsettles⟩ := run_members fs ms
    (s := deliver (.obj members name :: fs) (.str read)) (fun _ _ => rfl)
  have hquote : step ⟨.obj members name :: fs, .str false read⟩ 0x22 =
      some (deliver (.obj members name :: fs) (.str read)) := rfl
  rw [List.cons_append, Machine.run_cons, reader_step, hquote, Option.bind_some,
    Machine.run_append, ht, Option.bind_some, Machine.run_cons, reader_step,
    step_close_of_settles hsettles, List.append_assoc, List.singleton_append]
  rfl

lemma decode_of_run_front {front : List UInt8} {members : List (List UInt8 × Json)}
    {name read : List UInt8} (ms : List Member)
    (h : reader.run ⟨[], .value⟩ front = some ⟨[.obj members name], .str false read⟩) :
    decode (front ++ (0x22 :: writtenAll ms ++ [0x7D])) =
      some (.obj (members ++ (name, .str read) :: ms.map Member.pair)) := by
  rw [decode, Machine.run_append, h, Option.bind_some, run_close_members]
  rfl

/-- A text that ends in the closing quote of something, some members and a brace is, if it is JSON
at all, one object, and the quote closes the string of one of its members.
Kind: P -/
theorem run_front_of_decode {front : List UInt8} {m : Member} {ms : List Member} {c : UInt8}
    {key : List UInt8} {v : Json} (hkey : m.key = c :: key) (hc : Foreign c)
    (h : decode (front ++ (0x22 :: writtenAll (m :: ms) ++ [0x7D])) = some v) :
    ∃ members name read,
      reader.run ⟨[], .value⟩ front = some ⟨[.obj members name], .str false read⟩ ∧
        v = .obj (members ++ (name, .str read) :: (m :: ms).map Member.pair) := by
  obtain ⟨u, hu, hend⟩ := Option.bind_eq_some_iff.mp h
  rw [Machine.run_append, Option.bind_eq_some_iff] at hu
  obtain ⟨s, hfront, htail⟩ := hu
  have hplain : ∀ d ∈ key, Plain d := fun d hd =>
    m.plain d (hkey ▸ List.mem_cons_of_mem c hd)
  obtain ⟨fs, members, name, read, rfl⟩ := exists_str_of_run (s := s) (t := u) hc hplain <| by
    simpa [writtenAll, Member.written, hkey] using htail
  rw [run_close_members] at htail
  cases htail
  -- It is the whole text only if nothing is open around it.
  match fs with
  | [] => exact ⟨members, name, read, hfront, (Option.some.inj hend).symm⟩
  | .arr _ :: _ => cases hend
  | .obj _ _ :: _ => cases hend

/-- The end of such a text cannot be displaced: its beginning, whatever it is, adds members and a
string but leaves the members at the end the last.
Kind: P -/
theorem exists_obj_of_decode {front : List UInt8} {m : Member} {ms : List Member} {c : UInt8}
    {key : List UInt8} {v : Json} (hkey : m.key = c :: key) (hc : Foreign c)
    (h : decode (front ++ (0x22 :: writtenAll (m :: ms) ++ [0x7D])) = some v) :
    ∃ members, v = .obj (members ++ (m :: ms).map Member.pair) := by
  obtain ⟨members, name, read, -, rfl⟩ := run_front_of_decode hkey hc h
  exact ⟨members ++ [(name, .str read)], by rw [List.append_assoc, List.singleton_append]⟩

/-! ### Text that stands in a string unescaped -/

/-- The strings that are values of members are among the `known` ones or shorter than `n`.
Kind: D -/
def Frame.Short (known : List (List UInt8 × Json)) (n : ℕ) : Frame → Prop
  | .arr _ => True
  | .obj members _ => ∀ k s, (k, Json.str s) ∈ members → (k, Json.str s) ∈ known ∨ s.length < n

/-- The string being read is shorter than `n`; inside an escape, by as much as the escape has used
up.
Kind: D -/
def Mode.Short (n : ℕ) : Mode → Prop
  | .str _ read => read.length < n
  | .esc _ read => read.length < n
  | .hex _ read _ more => read.length + 5 ≤ n + more ∧ more ≤ 3
  | _ => True

def State.Short (known : List (List UInt8 × Json)) (n : ℕ) (s : State) : Prop :=
  (∀ f ∈ s.stack, f.Short known n) ∧ s.mode.Short n

section Short

variable {known : List (List UInt8 × Json)} {n : ℕ}

lemma Frame.Short.succ {f : Frame} (h : f.Short known n) : f.Short known (n + 1) := by
  cases f with
  | arr items => trivial
  | obj members key => exact fun k s hs => (h k s hs).imp_right Nat.lt_succ_of_lt

/-- A value is delivered: if it is a string, it is a short one. Kind: L -/
theorem short_deliver {fs : List Frame} {v : Json} (hfs : ∀ f ∈ fs, f.Short known n)
    (hv : ∀ s, v = .str s → s.length < n) : (deliver fs v).Short known n := by
  match fs with
  | [] => exact ⟨fun _ hf => (nomatch hf), trivial⟩
  | .arr items :: fs =>
      refine ⟨List.forall_mem_cons.mpr ⟨trivial, fun f hf => ?_⟩, trivial⟩
      exact hfs f (List.mem_cons_of_mem _ hf)
  | .obj members key :: fs =>
      refine ⟨List.forall_mem_cons.mpr ⟨fun k s hs => ?_, fun f hf => ?_⟩, trivial⟩
      · rcases List.mem_append.mp hs with hs | hs
        · exact hfs _ List.mem_cons_self k s hs
        · rw [List.mem_singleton, Prod.mk.injEq] at hs
          exact .inr (hv s hs.2.symm)
      · exact hfs f (List.mem_cons_of_mem _ hf)

lemma short_follow {s t : State} {c : UInt8} (hs : s.Short known n) (h : follow s c = some t) :
    t.Short known n := by
  unfold follow at h
  by_cases hspace : isSpace c = true
  · rw [if_pos hspace] at h
    cases h
    exact hs
  rw [if_neg hspace] at h
  obtain ⟨fs, mode⟩ := s
  obtain ⟨hfs, -⟩ := hs
  match fs with
  | [] => cases h
  | .arr items :: fs =>
      simp only at h
      split_ifs at h
      · cases h
        exact ⟨hfs, trivial⟩
      · cases h
        exact short_deliver (fun f hf => hfs f (List.mem_cons_of_mem _ hf)) (fun s hs => nomatch hs)
  | .obj members key :: fs =>
      simp only at h
      split_ifs at h
      · cases h
        exact ⟨hfs, trivial⟩
      · cases h
        exact short_deliver (fun f hf => hfs f (List.mem_cons_of_mem _ hf)) (fun s hs => nomatch hs)

lemma short_openValue {fs : List Frame} {c : UInt8} {t : State}
    (hfs : ∀ f ∈ fs, f.Short known n) (h : openValue fs c = some t) : t.Short known (n + 1) := by
  have hfs' : ∀ f ∈ fs, f.Short known (n + 1) := fun f hf => (hfs f hf).succ
  unfold openValue at h
  split_ifs at h <;> cases h
  · exact ⟨hfs', Nat.succ_pos n⟩
  · exact ⟨List.forall_mem_cons.mpr ⟨fun k s hs => (nomatch hs), hfs'⟩, trivial⟩
  · exact ⟨List.forall_mem_cons.mpr ⟨trivial, hfs'⟩, trivial⟩
  all_goals exact ⟨hfs', trivial⟩

lemma short_closeStr {fs : List Frame} {isKey : Bool} {read : List UInt8} {t : State}
    (hfs : ∀ f ∈ fs, f.Short known n) (hread : read.length < n)
    (h : closeStr fs isKey read = some t) : t.Short known n := by
  cases isKey with
  | false =>
      cases h
      exact short_deliver hfs fun s hs => by cases hs; exact hread
  | true =>
      match fs with
      | [] => cases h
      | .arr _ :: _ => cases h
      | .obj members key :: fs =>
          cases h
          refine ⟨List.forall_mem_cons.mpr ⟨?_, fun f hf => hfs f (List.mem_cons_of_mem _ hf)⟩,
            trivial⟩
          exact hfs (.obj members key) List.mem_cons_self

lemma length_utf8_le (u : ℕ) : (utf8 u).length ≤ 3 := by
  unfold utf8
  split_ifs <;> simp

/-- One octet lengthens no string by more than one. Kind: L -/
theorem short_step {s t : State} {c : UInt8} (hs : s.Short known n) (h : step s c = some t) :
    t.Short known (n + 1) := by
  obtain ⟨fs, mode⟩ := s
  obtain ⟨hfs, hmode⟩ := hs
  have hfs' : ∀ f ∈ fs, f.Short known (n + 1) := fun f hf => (hfs f hf).succ
  cases mode with
  | value =>
      simp only [step] at h
      split_ifs at h
      · cases h; exact ⟨hfs', trivial⟩
      · exact short_openValue hfs h
  | valueOrEnd =>
      simp only [step] at h
      split_ifs at h
      · cases h; exact ⟨hfs', trivial⟩
      · exact short_follow (s := ⟨fs, .after⟩) ⟨hfs', trivial⟩ h
      · exact short_openValue hfs h
  | key =>
      simp only [step] at h
      split_ifs at h
      · cases h; exact ⟨hfs', trivial⟩
      · cases h; exact ⟨hfs', Nat.succ_pos n⟩
  | keyOrEnd =>
      simp only [step] at h
      split_ifs at h
      · cases h; exact ⟨hfs', trivial⟩
      · exact short_follow (s := ⟨fs, .after⟩) ⟨hfs', trivial⟩ h
      · cases h; exact ⟨hfs', Nat.succ_pos n⟩
  | colon =>
      simp only [step] at h
      split_ifs at h <;> cases h <;> exact ⟨hfs', trivial⟩
  | after => exact short_follow (s := ⟨fs, .after⟩) ⟨hfs', trivial⟩ h
  | done v => exact short_follow (s := ⟨fs, .done v⟩) ⟨hfs', trivial⟩ h
  | str isKey read =>
      have hread : read.length < n := hmode
      simp only [step] at h
      split_ifs at h
      · exact short_closeStr hfs' (Nat.lt_succ_of_lt hread) h
      · cases h; exact ⟨hfs', Nat.lt_succ_of_lt hread⟩
      · cases h
        refine ⟨hfs', ?_⟩
        show (read ++ [c]).length < n + 1
        rw [List.length_append, List.length_singleton]
        omega
  | esc isKey read =>
      have hread : read.length < n := hmode
      simp only [step] at h
      split_ifs at h
      · cases h
        exact ⟨hfs', show read.length + 5 ≤ n + 1 + 3 ∧ 3 ≤ 3 by omega⟩
      · obtain ⟨o, -, rfl⟩ := Option.map_eq_some_iff.mp h
        refine ⟨hfs', ?_⟩
        show (read ++ [o]).length < n + 1
        rw [List.length_append, List.length_singleton]
        omega
  | hex isKey read unit more =>
      obtain ⟨hread, hmore⟩ : read.length + 5 ≤ n + more ∧ more ≤ 3 := hmode
      simp only [step] at h
      obtain ⟨d, -, rfl⟩ := Option.map_eq_some_iff.mp h
      match more with
      | 0 =>
          have hlen := length_utf8_le (16 * unit + d)
          refine ⟨hfs', ?_⟩
          show (read ++ utf8 (16 * unit + d)).length < n + 1
          rw [List.length_append]
          omega
      | more + 1 =>
          exact ⟨hfs', show read.length + 5 ≤ n + 1 + more ∧ more ≤ 3 by omega⟩
  | num m read =>
      simp only [step] at h
      split at h
      · cases h; exact ⟨hfs', trivial⟩
      · split_ifs at h
        exact short_follow (short_deliver hfs' (v := .num read) (fun s hs => nomatch hs)) h
  | word w read =>
      simp only [step] at h
      split_ifs at h with hc hend
      · cases h
        exact short_deliver hfs' fun s hs => by cases w <;> cases hs
      · cases h; exact ⟨hfs', trivial⟩

end Short

section Raw

variable {members : List (List UInt8 × Json)} {key : List UInt8}

/-- A string of an object under way has been fed `text`: either all of it is plain and the string
holds just that, or every string read since the object was met is shorter than `text`.
Kind: D -/
def Raw (members : List (List UInt8 × Json)) (key text : List UInt8) (s : State) : Prop :=
  (∀ c ∈ text, Plain c) ∧ s = ⟨[.obj members key], .str false text⟩ ∨ s.Short members text.length

lemma raw_step {text : List UInt8} {s t : State} {c : UInt8} (hs : Raw members key text s)
    (h : step s c = some t) : Raw members key (text ++ [c]) t := by
  rw [Raw, List.length_append, List.length_singleton]
  rcases hs with ⟨hplain, rfl⟩ | hs
  swap
  · exact .inr (short_step hs h)
  have hfs : ∀ f ∈ [Frame.obj members key], f.Short members (text.length + 1) := by
    intro f hf
    rw [List.mem_singleton.mp hf]
    exact fun k s hs => .inl hs
  simp only [step] at h
  split_ifs at h with hquote hslash hctl
  · exact .inr (short_closeStr hfs (Nat.lt_succ_self _) h)
  · cases h
    exact .inr ⟨hfs, Nat.lt_succ_self _⟩
  · cases h
    refine .inl ⟨fun d hd => ?_, rfl⟩
    rcases List.mem_append.mp hd with hd | hd
    · exact hplain d hd
    · rw [List.mem_singleton.mp hd]
      exact ⟨UInt8.not_lt.mp hctl, hquote, hslash⟩

/-- **Text that is not escaped** is read as itself where it is plain throughout, and otherwise no
string as long as the text comes out of it.
Kind: P -/
theorem raw_run : ∀ {text read : List UInt8} {s t : State}, Raw members key read s →
    reader.run s text = some t → Raw members key (read ++ text) t
  | [], read, s, t, hs, h => by
      cases h
      rwa [List.append_nil]
  | c :: text, read, s, t, hs, h => by
      obtain ⟨u, hu, hrun⟩ := reader.run_cons_eq_some.mp h
      have hnext := raw_run (raw_step hs hu) hrun
      rwa [List.append_assoc, List.singleton_append] at hnext

end Raw

end Json

end NucBios.Lib
