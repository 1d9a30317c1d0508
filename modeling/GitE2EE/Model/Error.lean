import GitE2EE.Lib.Wire
import GitE2EE.Lib.Action

/-!
# Errors

An error is the failure it started from and the context added on the way out.
Recovery looks at the *types* found there, never at the text, because messages can
carry strings that storage chose; so the types are told apart here and the text is
carried along.

`InvalidState` only ever enters an error as context (`proven_invalid`), on top of
whatever failure proved the content bad.
-/

namespace GitE2EE

open Wire Effect

/-- `std::io::ErrorKind`, as far as the code tells kinds apart. -/
inductive IoKind where
  | notFound
  | invalidData
  | unexpectedEof
  | interrupted
  | other
deriving DecidableEq, Repr

/-- `PushRejection`. -/
inductive PushRejection where
  | nonFastForward (reference : Text)
  | fetchFirst (reference : Text)
  | alreadyExists (reference : Text)
deriving DecidableEq

/-- The failure an error started from. -/
inductive Cause where
  /-- `anyhow!`, `bail!`, or a library error nothing asks the type of. -/
  | message (text : String)
  | unsupported (text : String)
  | notActiveReader
  | foreignRepository
  | objectUnavailable (storage : String) (id : Text) (source : Option IoKind)
  | missingStorageHead
  | budgetExhausted (text : String)
  | io (kind : IoKind) (text : String)
  | casConflict (expected actual : Option Text)
  | storageOccupied (text : String)
  | readOnlyDevice
  | pushRejection (rejection : PushRejection)
deriving DecidableEq

/-- One layer of context. -/
inductive Note where
  | message (text : String)
  | invalidState
deriving DecidableEq

structure Error where
  cause : Cause
  /-- Outermost first. -/
  notes : List Note
deriving DecidableEq

/-- `anyhow::Result`. -/
abbrev Result := Except Error

namespace Error

def of (cause : Cause) : Error := ⟨cause, []⟩

def msg (text : String) : Error := of (.message text)

def context (e : Error) (text : String) : Error := { e with notes := .message text :: e.notes }

/-- `error.chain().any(|cause| cause.is::<Unsupported>())`. -/
def isUnsupported (e : Error) : Bool :=
  match e.cause with
  | .unsupported _ => true
  | _ => false

/-- `error.downcast_ref::<StorageOccupied>().is_some()`. -/
def isStorageOccupied (e : Error) : Bool :=
  match e.cause with
  | .storageOccupied _ => true
  | _ => false

end Error

/-- `bail!(text)`. -/
def bail {α : Type} (text : String) : Result α := .error (.msg text)

/-- `if condition { bail!(text) }`. -/
def bailIf (condition : Prop) [Decidable condition] (text : String) : Result Unit :=
  if condition then bail text else .ok ()

/-- `.context(text)?` on an option. -/
def orBail {α : Type} (value : Option α) (text : String) : Result α :=
  match value with
  | some a => .ok a
  | none => bail text

/-- `.context(text)?` on a result. -/
def withContext {α : Type} (r : Result α) (text : String) : Result α :=
  r.mapError (·.context text)

@[simp] theorem bailIf_eq_ok {c : Prop} [Decidable c] {text : String} {u : Unit} :
    bailIf c text = .ok u ↔ ¬ c := by
  unfold bailIf bail
  split <;> simp_all

theorem bailIf_pos {c : Prop} [Decidable c] {text : String} (h : c) : bailIf c text = bail text :=
  if_pos h

theorem bailIf_neg {c : Prop} [Decidable c] {text : String} (h : ¬ c) : bailIf c text = .ok () :=
  if_neg h

@[simp] theorem orBail_eq_ok {α : Type} {value : Option α} {text : String} {a : α} :
    orBail value text = .ok a ↔ value = some a := by
  unfold orBail bail
  cases value <;> simp

@[simp] theorem withContext_eq_ok {α : Type} {r : Result α} {text : String} {a : α} :
    withContext r text = .ok a ↔ r = .ok a := by
  cases r <;> simp [withContext, Except.mapError]

/-- `checked_add` on `u64`. -/
def checkedAdd (a b : Nat) : Option Nat := if a + b < 2 ^ 64 then some (a + b) else none

@[simp] theorem checkedAdd_eq_some {a b c : Nat} :
    checkedAdd a b = some c ↔ a + b = c ∧ c < 2 ^ 64 := by
  unfold checkedAdd
  split
  · rename_i h
    constructor
    · intro e; injection e with e; subst e; exact ⟨rfl, h⟩
    · rintro ⟨rfl, _⟩; rfl
  · rename_i h
    constructor
    · intro e; cases e
    · rintro ⟨rfl, h'⟩; exact absurd h' h

end GitE2EE
