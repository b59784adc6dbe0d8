import NucBios.Uefi.Base

/-!
# The forms language of the setup browser

The setup menu is not drawn by the driver that owns it. The driver hands a stream of opcodes (IFR)
to the browser, which evaluates it against the current values of the questions. This file is that
target: the opcodes the driver uses, what a stream of them means, and what is asked of a browser.

A stream is read from left to right. An opcode may open a scope, which an `END` closes. After
`SUPPRESS_IF` or `GRAY_OUT_IF` comes a condition, a single opcode or a postfix expression in a
scope of its own; what follows, up to the end of the `IF`'s scope, is subject to it. `Reading` is
that, as the language defines it.

The browser of the payload is a parameter. A `Browser` draws what a stream means if the stream is
`WellFormed`: the length in the header of each opcode is its size, and all that is opened is closed.
What it makes of any other stream is left open.

`Shows value ops s conditions` says that a piece of a stream, wherever it stands, contributes the
statement `s` under `conditions` and leaves no scope open. The rule `shows_conditional` builds such
pieces; `Draws value ops entries` is what a whole stream comes to, and `Draws.append` reads it off
the pieces.
-/

namespace NucBios.Setup

open NucBios.Uefi

/-! ### Opcodes -/

/-- `EFI_STRING_ID`. Kind: D -/
abbrev StringId := ℕ

/-- The header of a question: what it asks, where its value is kept, whether it may be changed.
Kind: D -/
structure Question where
  questionId : UInt16
  varStoreId : UInt16
  prompt : StringId
  help : StringId
  readOnly : Bool
  deriving DecidableEq, Repr

/-- The opcodes of the menu. A question carries the options and the default in its scope, as the
library call that makes it does. `length` is the seven-bit length field of an opcode's header, for
the one whose size is not fixed and not checked.
Kind: D -/
inductive IfrOp where
  | label (number : UInt16)
  | varStore (id size : UInt16) (name : List UInt8)
  | suppressIf
  | grayOutIf
  | trueOp
  | eqIdVal (question value : UInt16)
  | eqIdValList (length : BitVec 7) (question listLength : UInt16) (values : List UInt16)
  | notOp
  | endOp
  | subtitle (prompt help : StringId)
  | text (prompt help : StringId)
  | oneOf (question : Question) (options : List (StringId × UInt32)) (default : UInt32)
  | numeric (question : Question) (hex : Bool) (min max step default : UInt32)
  | string (question : Question) (minSize maxSize : UInt8) (default : StringId)
  deriving DecidableEq, Repr

/-- `sizeof (EFI_IFR_EQ_ID_VAL_LIST)` with `n` values: header, question, count, values. Kind: D -/
def eqIdValListSize (n : ℕ) : ℕ := 6 + n * 2

/-- The length in the opcode's header is its size, and the values are as many as it says. Kind: D -/
def IfrOp.Sized : IfrOp → Prop
  | .eqIdValList length _ listLength values =>
      length.toNat = eqIdValListSize values.length ∧ listLength.toNat = values.length
  | _ => True

/-! ### What a stream means -/

/-- An open scope: which of the two `IF`s it is, and the truth of its condition. Kind: D -/
structure Scope where
  gray : Bool
  truth : Bool
  deriving DecidableEq, Repr

/-- What is expected next: a statement, the condition of an `IF`, or the rest of a
condition whose value so far is known. Kind: D -/
inductive Mode where
  | statements
  | condition (gray : Bool)
  | inCondition (gray truth : Bool)
  deriving DecidableEq, Repr

/-- A line of the menu. Kind: D -/
structure Entry where
  statement : IfrOp
  grayed : Bool
  deriving DecidableEq, Repr

/-- A stream, as far as it has been read. Kind: D -/
structure Reading where
  mode : Mode
  scopes : List Scope
  entries : List Entry
  deriving DecidableEq, Repr

/-- The beginning of a stream. Kind: D -/
def Reading.start : Reading := ⟨.statements, [], []⟩

/-- The lines a statement gives under open scopes: none if one of them suppresses it. Kind: D -/
def entriesUnder (scopes : List Scope) (statement : IfrOp) : List Entry :=
  if ⟨false, true⟩ ∈ scopes then [] else [⟨statement, decide (⟨true, true⟩ ∈ scopes)⟩]

/-- Add a statement under the scopes that are open. Kind: D -/
def Reading.add (b : Reading) (statement : IfrOp) : Reading :=
  { b with entries := b.entries ++ entriesUnder b.scopes statement }

/-- Open a scope, and expect statements in it. Kind: D -/
def Reading.push (b : Reading) (scope : Scope) : Reading :=
  { b with mode := .statements, scopes := scope :: b.scopes }

/-- One opcode where a statement is expected. Kind: D -/
def Reading.statement (b : Reading) : IfrOp → Option Reading
  | .label _ | .varStore _ _ _ => some b
  | .suppressIf => some { b with mode := .condition false }
  | .grayOutIf => some { b with mode := .condition true }
  | op@(.subtitle _ _) | op@(.text _ _) | op@(.oneOf _ _ _) | op@(.numeric _ _ _ _ _ _)
  | op@(.string _ _ _ _) => some (b.add op)
  | .endOp =>
      match b.scopes with
      | [] => none
      | _ :: scopes => some { b with scopes }
  | .trueOp | .eqIdVal _ _ | .eqIdValList _ _ _ _ | .notOp => none

/-- One opcode, with the values of the questions; `none` where it may not stand. Kind: D -/
def Reading.step (value : UInt16 → ℕ) (b : Reading) (op : IfrOp) : Option Reading :=
  match b.mode with
  | .statements => b.statement op
  | .condition gray =>
      match op with
      | .trueOp => some (b.push ⟨gray, true⟩)
      | .eqIdVal question v =>
          some { b with mode := .inCondition gray (decide (value question = v.toNat)) }
      | .eqIdValList _ question _ values =>
          some { b with
            mode := .inCondition gray (decide (value question ∈ values.map UInt16.toNat)) }
      | _ => none
  | .inCondition gray truth =>
      match op with
      | .notOp => some { b with mode := .inCondition gray !truth }
      | .endOp => some (b.push ⟨gray, truth⟩)
      | _ => none

/-- A stream. Kind: D -/
def Reading.run (value : UInt16 → ℕ) (b : Reading) (ops : List IfrOp) : Option Reading :=
  ops.foldlM (Reading.step value) b

@[simp] theorem Reading.run_nil (value : UInt16 → ℕ) (b : Reading) : b.run value [] = some b := rfl

@[simp] theorem Reading.run_cons (value : UInt16 → ℕ) (b : Reading) (op : IfrOp)
    (ops : List IfrOp) :
    b.run value (op :: ops) = (b.step value op).bind fun b' => b'.run value ops := rfl

theorem Reading.run_append (value : UInt16 → ℕ) (b : Reading) (ops ops' : List IfrOp) :
    b.run value (ops ++ ops') = (b.run value ops).bind fun b' => b'.run value ops' := by
  rw [Reading.run, List.foldlM_append]
  rfl

/-! ### The browser -/

/-- Every opcode has the size its header says and stands where it may, whatever the values of the
questions are, and every scope is closed. Kind: D -/
structure WellFormed (ops : List IfrOp) : Prop where
  sized : ∀ op ∈ ops, op.Sized
  nested : ∀ value, ∃ b, Reading.start.run value ops = some b ∧ b.mode = .statements ∧ b.scopes = []

/-- A browser: what it draws for a stream and the values of the questions. Kind: D -/
structure Browser where
  draw : (UInt16 → ℕ) → List IfrOp → Option (List Entry)
  draw_wellFormed : ∀ {value ops b}, WellFormed ops → Reading.start.run value ops = some b →
    draw value ops = some b.entries

/-- The browser that goes by the language alone. Kind: D -/
def Browser.plain : Browser where
  draw value ops := (Reading.start.run value ops).map Reading.entries
  draw_wellFormed _ hrun := by rw [hrun, Option.map_some]

/-! ### Pieces of a stream -/

/-- The piece shows `statement` under `conditions` and closes what it opens. Kind: D -/
def Shows (value : UInt16 → ℕ) (ops : List IfrOp) (statement : IfrOp)
    (conditions : List Scope) : Prop :=
  ∀ b : Reading, b.mode = .statements → b.run value ops =
    some { b with entries := b.entries ++ entriesUnder (conditions ++ b.scopes) statement }

/-- The piece is passed over. Kind: D -/
def Silent (value : UInt16 → ℕ) (ops : List IfrOp) : Prop :=
  ∀ b : Reading, b.mode = .statements → b.run value ops = some b

/-- The opcodes between `IF` and what is subject to it have the given truth. Kind: D -/
def Means (value : UInt16 → ℕ) (condition : List IfrOp) (truth : Bool) : Prop :=
  ∀ (b : Reading) (gray : Bool), b.mode = .condition gray →
    b.run value condition = some (b.push ⟨gray, truth⟩)

variable {value : UInt16 → ℕ}

/-- The two `IF`s. Kind: D -/
def ifOp (gray : Bool) : IfrOp := if gray then .grayOutIf else .suppressIf

/-- A piece under one more condition. Kind: P -/
theorem shows_conditional {condition body : List IfrOp} {truth : Bool} {statement : IfrOp}
    {conditions : List Scope} (gray : Bool) (hcondition : Means value condition truth)
    (hbody : Shows value body statement conditions) :
    Shows value (ifOp gray :: condition ++ body ++ [.endOp]) statement
      (conditions ++ [⟨gray, truth⟩]) := by
  intro b hb
  have hopen : b.step value (ifOp gray) = some { b with mode := .condition gray } := by
    cases gray <;> simp [Reading.step, hb, ifOp, Reading.statement]
  have hinside := hcondition { b with mode := .condition gray } gray rfl
  have hshown := hbody (({ b with mode := .condition gray } : Reading).push
    ⟨gray, truth⟩) rfl
  rw [Reading.run_append, Reading.run_append, Reading.run_cons, hopen, Option.bind_some, hinside,
    Option.bind_some, hshown, Option.bind_some]
  simp [Reading.push, Reading.step, Reading.statement, hb]

/-- A stream, outside all scopes, draws these lines. Kind: D -/
def Draws (value : UInt16 → ℕ) (ops : List IfrOp) (entries : List Entry) : Prop :=
  ∀ b : Reading, b.mode = .statements → b.scopes = [] →
    b.run value ops = some { b with entries := b.entries ++ entries }

lemma draws_nil : Draws value [] [] := by
  intro b _ _
  simp

lemma Silent.draws {ops : List IfrOp} (h : Silent value ops) : Draws value ops [] := by
  intro b hb _
  rw [h b hb, List.append_nil]

lemma Shows.draws {ops : List IfrOp} {statement : IfrOp} {conditions : List Scope}
    (h : Shows value ops statement conditions) :
    Draws value ops (entriesUnder conditions statement) := by
  intro b hb hscopes
  rw [h b hb, hscopes, List.append_nil]

/-- Streams one after the other draw their lines one after the other. Kind: P -/
theorem Draws.append {ops ops' : List IfrOp} {entries entries' : List Entry}
    (h : Draws value ops entries) (h' : Draws value ops' entries') :
    Draws value (ops ++ ops') (entries ++ entries') := by
  intro b hb hscopes
  rw [Reading.run_append, h b hb hscopes, Option.bind_some]
  rw [h' { b with entries := b.entries ++ entries } hb hscopes, List.append_assoc]

lemma means_true : Means value [.trueOp] true := by
  intro b gray hb
  simp [Reading.step, hb]

end NucBios.Setup
