import GitE2EE.Lib.Json

/-!
# Records in JSON documents

How a derived deserializer reads a record. From an object: every key must be a
field of the record, none may come twice, and the order does not matter. From an
array: the fields by position. A missing field is an error unless the field is
optional, in which case it reads as absent, as an explicit `null` does.

A probe reads one field and ignores the rest of the object, so it still succeeds
on a record with a different set of fields.
-/

namespace Wire.Json

/-- The value of a key in a list of members. -/
def lookup (key : Text) : List (Text × Json) → Option Json
  | [] => none
  | (k, v) :: rest => if k = key then some v else lookup key rest

/-- The fields of a record that refuses unknown fields. -/
def fields (names : List Text) : Json → Option (Text → Option Json)
  | .obj members =>
    if (members.map Prod.fst).Nodup ∧ ∀ m ∈ members, m.1 ∈ names then
      some fun name => lookup name members
    else none
  | .arr elements =>
    if elements.length = names.length then some fun name => lookup name (names.zip elements)
    else none
  | _ => none

/-- One field of a record that ignores its other fields. -/
def probe (name : Text) : Json → Option Json
  | .obj members =>
    match members.filter fun m => m.1 = name with
    | [m] => some m.2
    | _ => none
  | .arr [v] => some v
  | _ => none

def asText : Json → Option Text
  | .str s => some s
  | _ => none

def asBool : Json → Option Bool
  | .bool b => some b
  | _ => none

/-- An unsigned integer of the given width. -/
def asUnsigned (width : Nat) : Json → Option Nat
  | .nat n => if n < 2 ^ width then some n else none
  | _ => none

def asList {α : Type} (read : Json → Option α) : Json → Option (List α)
  | .arr elements => elements.mapM read
  | _ => none

/-- A field that may be missing or `null`. -/
def optional {α : Type} (read : Json → Option α) : Option Json → Option (Option α)
  | none => some none
  | some .null => some none
  | some v => (read v).map some

/-- A field that must be there. -/
def required {α : Type} (read : Json → Option α) : Option Json → Option α
  | none => none
  | some v => read v

/-- The value an optional field is written as. -/
def orNull {α : Type} (write : α → Json) : Option α → Json
  | none => .null
  | some a => write a

@[simp] theorem asUnsigned_nat {width n : Nat} (h : n < 2 ^ width) :
    asUnsigned width (.nat n) = some n := by simp [asUnsigned, h]

theorem optional_text (value : Option Text) :
    optional asText (some (orNull .str value)) = some value := by
  cases value <;> rfl

/-- A probe that finds a field finds the one the record has under that name. -/
theorem field_of_probe {names : List Text} {name : Text} {v m : Json} {field : Text → Option Json}
    (hfields : fields names v = some field) (hprobe : probe name v = some m)
    (hnames : 1 < names.length) : field name = some m := by
  cases v with
  | obj members =>
    simp only [fields] at hfields
    split at hfields
    · cases hfields
      -- the only member of that name is the first one
      have hfirst : ∀ members : List (Text × Json), ∀ found,
          (members.filter fun m => m.1 = name) = [found] → lookup name members = some found.2 := by
        intro members
        induction members with
        | nil => exact fun _ h => by cases h
        | cons first rest ih =>
          intro found h
          by_cases hname : first.1 = name
          · rw [List.filter_cons_of_pos (by simpa using hname)] at h
            rw [lookup, if_pos hname, (List.cons.inj h).1]
          · rw [List.filter_cons_of_neg (by simpa using hname)] at h
            rw [lookup, if_neg hname]
            exact ih found h
      simp only [probe] at hprobe
      split at hprobe
      · rename_i found hfound
        cases hprobe
        exact hfirst members found hfound
      · cases hprobe
    · cases hfields
  | arr elements =>
    simp only [fields] at hfields
    split at hfields
    · rename_i hlength
      -- a probe reads arrays of one element only
      rcases elements with _ | ⟨_, _ | _⟩
      · cases hprobe
      · rw [← hlength] at hnames
        exact absurd hnames (Nat.lt_irrefl 1)
      · cases hprobe
    · cases hfields
  | _ => cases hfields

end Wire.Json
