import Mathlib.Logic.Function.Basic
import NucBios.Setup.Cfr

/-!
# The variables behind the options

Every option that has a value keeps it in an EFI variable of the option's name. The setup menu
creates the variable if it does not exist, with the default of the option, and locks it if the
option is read-only; it never writes one that is there.

`Variables` is what the variable driver keeps in one boot: the variables, and the names that are
locked until the next one. `produceVariable` is what the menu does for one option; `Produced` says
all that it can change.
-/

namespace NucBios.Setup

/-- A null-terminated `CHAR16` string, without its end. Kind: D -/
abbrev Text := List UInt16

/-- The characters of a record up to the first that is zero; there must be one.
Source: `SetupMenuCfr.c` `CfrConvertVarBinaryToStrings`
Kind: D -/
def VarBinary.text? (v : VarBinary) : Option Text :=
  if 0 ∈ v.data then some ((v.data.takeWhile (· != 0)).map UInt8.toUInt16) else none

/-- An EFI variable. Kind: D -/
structure Variable where
  nonVolatile : Bool
  runtime : Bool
  data : List UInt8
  deriving DecidableEq, Repr

/-- The variables under the GUID of coreboot's settings, and which of them are locked. Kind: D -/
structure Variables where
  get : Text → Option Variable
  locked : Text → Bool

/-- `SetVariable` by whoever calls it: a locked variable stays. Kind: D -/
def Variables.write (vars : Variables) (name : Text) (v : Option Variable) : Variables :=
  if vars.locked name then vars else { vars with get := Function.update vars.get name v }

/-- Writes, one after the other. Kind: D -/
def Variables.writeAll (vars : Variables) (writes : List (Text × Option Variable)) : Variables :=
  writes.foldl (fun vars w => vars.write w.1 w.2) vars

/-- A new boot: volatile variables are gone, and no variable is locked. Kind: D -/
def Variables.restart (vars : Variables) : Variables :=
  ⟨fun name => (vars.get name).filter (·.nonVolatile), fun _ => false⟩

/-- The services the menu depends on: whether a new variable of a name can be written, and the
variable policy, if it was found: whether it registers a lock. Kind: D -/
structure Services where
  canWrite : Text → Bool
  variablePolicy : Option (Text → Bool)

/-- A lock is taken: `mVariablePolicy` is not null and `RegisterBasicVariablePolicy` succeeds. The
driver goes on without the lock otherwise. Kind: D -/
def Services.canLock (services : Services) (name : Text) : Bool :=
  services.variablePolicy.any fun registers => registers name

/-- What an option asks the variable driver for. Kind: D -/
structure Request where
  name : Text
  initial : Variable
  readOnly : Bool
  deriving DecidableEq, Repr

/-- The variable of an option: created if there is none, locked if it is read-only.
Source: `SetupMenuCfr.c` `CfrProduceStorageForOption`, up to the `varstore`
Kind: D -/
def produceVariable (services : Services) (request : Request) (vars : Variables) :
    Except Stop Variables :=
  if vars.get request.name = none ∧
      (services.canWrite request.name = false ∨ vars.locked request.name) then .error .assert
  else .ok {
    get := if vars.get request.name = none then
        Function.update vars.get request.name (some request.initial) else vars.get
    locked := if request.readOnly && services.canLock request.name then
        Function.update vars.locked request.name true else vars.locked }

lemma Variables.get_write_of_ne {vars : Variables} {name name' : Text} {v : Option Variable}
    (h : name' ≠ name) : (vars.write name' v).get name = vars.get name := by
  rw [Variables.write]
  split
  · rfl
  · exact Function.update_of_ne h.symm _ _

lemma Variables.get_write_of_locked {vars : Variables} {name name' : Text} {v : Option Variable}
    (h : vars.locked name) : (vars.write name' v).get name = vars.get name := by
  by_cases hname : name' = name
  · rw [Variables.write, hname, if_pos h]
  · exact get_write_of_ne hname

lemma Variables.get_write_of_unlocked {vars : Variables} {name : Text} {v : Option Variable}
    (h : vars.locked name = false) : (vars.write name v).get name = v := by
  rw [Variables.write, h]
  exact Function.update_self _ _ _

@[simp] theorem Variables.locked_write (vars : Variables) (name : Text) (v : Option Variable) :
    (vars.write name v).locked = vars.locked := by
  rw [Variables.write]
  split <;> rfl

@[simp] theorem Variables.locked_writeAll (vars : Variables)
    (writes : List (Text × Option Variable)) : (vars.writeAll writes).locked = vars.locked := by
  induction writes generalizing vars with
  | nil => rfl
  | cons w writes ih => exact (ih _).trans (vars.locked_write w.1 w.2)

lemma Variables.get_writeAll_of_ne {writes : List (Text × Option Variable)} {vars : Variables}
    {name : Text} (h : ∀ w ∈ writes, w.1 ≠ name) :
    (vars.writeAll writes).get name = vars.get name := by
  induction writes generalizing vars with
  | nil => rfl
  | cons w writes ih =>
      rw [List.forall_mem_cons] at h
      exact (ih h.2).trans (get_write_of_ne h.1)

lemma Variables.get_writeAll_of_locked {writes : List (Text × Option Variable)} {vars : Variables}
    {name : Text} (h : vars.locked name) : (vars.writeAll writes).get name = vars.get name := by
  induction writes generalizing vars with
  | nil => rfl
  | cons w writes ih =>
      have hlocked : (vars.write w.1 w.2).locked name := by rwa [locked_write]
      exact (ih hlocked).trans (get_write_of_locked h)

/-- All that a request can change. Kind: D -/
structure Produced (services : Services) (request : Request) (vars vars' : Variables) : Prop where
  kept : ∀ name v, vars.get name = some v → vars'.get name = some v
  created : vars.get request.name = none → vars'.get request.name = some request.initial
  other : ∀ name, name ≠ request.name → vars'.get name = vars.get name
  lock : ∀ name, vars'.locked name =
    (vars.locked name || decide (name = request.name) && request.readOnly && services.canLock name)

lemma produced_of_eq_ok {services : Services} {request : Request} {vars vars' : Variables}
    (h : produceVariable services request vars = .ok vars') :
    Produced services request vars vars' := by
  unfold produceVariable at h
  split at h
  · exact nomatch h
  · injection h with h
    subst h
    refine ⟨?_, ?_, ?_, ?_⟩
    · intro name v hv
      by_cases hname : name = request.name
      · subst hname
        simp [hv]
      · split <;> simp [Function.update_of_ne hname, hv]
    · intro hnone
      simp [hnone]
    · intro name hname
      split <;> simp [Function.update_of_ne hname]
    · intro name
      by_cases hname : name = request.name
      · subst hname
        cases hlock : (request.readOnly && services.canLock request.name) <;> simp_all
      · dsimp only
        split <;> simp [hname]

/-- A request succeeds if its variable is there, or can be written. Kind: L -/
theorem produceVariable_ok {services : Services} {request : Request} {vars : Variables}
    (h : vars.get request.name ≠ none ∨
      services.canWrite request.name ∧ vars.locked request.name = false) :
    ∃ vars', produceVariable services request vars = .ok vars' := by
  unfold produceVariable
  rw [if_neg]
  · exact ⟨_, rfl⟩
  · rintro ⟨hnone, hfail⟩
    rcases h with h | ⟨hwrite, hlocked⟩
    · exact h hnone
    · simp [hwrite, hlocked] at hfail

/-- Only a variable that exists is locked. Kind: D -/
def Variables.Sound (vars : Variables) : Prop := ∀ name, vars.locked name → vars.get name ≠ none

/-- Whatever is written in a new boot, nothing is locked yet. Kind: L -/
theorem Variables.sound_writeAll_restart (vars : Variables)
    (writes : List (Text × Option Variable)) : (vars.restart.writeAll writes).Sound := by
  intro name h
  rw [locked_writeAll] at h
  exact absurd h Bool.false_ne_true

lemma Variables.sound_restart (vars : Variables) : vars.restart.Sound :=
  vars.sound_writeAll_restart []

/-- A request locks only what it has made sure of. Kind: L -/
theorem Produced.sound {services : Services} {request : Request} {vars vars' : Variables}
    (h : Produced services request vars vars') (hsound : vars.Sound) : vars'.Sound := by
  intro name hlocked
  have hexists : ∀ v, vars.get name = some v → vars'.get name ≠ none := by
    intro v hv
    rw [h.kept name v hv]
    exact Option.some_ne_none v
  rw [h.lock, Bool.or_eq_true] at hlocked
  cases hget : vars.get name with
  | some v => exact hexists v hget
  | none =>
      rcases hlocked with hlocked | hlocked
      · exact absurd hget (hsound name hlocked)
      · simp only [Bool.and_eq_true, decide_eq_true_eq] at hlocked
        obtain ⟨⟨rfl, -⟩, -⟩ := hlocked
        rw [h.created hget]
        exact Option.some_ne_none _

end NucBios.Setup
