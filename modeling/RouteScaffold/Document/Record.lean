import RouteScaffold.Json.Mismatch

/-!
# Reading records

A record is read from an object by its keys or from an array by the order of its fields.  Reading
goes through an object in the order of the text and fails at the first field that does not fit; then
the first field that is missing counts.  An array has to hold all fields up to the last one that has
no default, and nothing after the last.

A record is read into a draft that is filled field by field.
-/

namespace RouteScaffold.Document

open Json (Mismatch)

/-- What it means that a field is missing. -/
inductive Absence where
  /-- The field has to be there. -/
  | refused
  /-- The field may be missing from an object but not from an array. -/
  | allowed
  /-- The field has a default. -/
  | defaulted
  deriving DecidableEq, Repr

/-- A field of a record with drafts of type `σ`. -/
structure Field (σ : Type) where
  key : String
  absence : Absence
  /-- Fills the field of a draft from a tree. -/
  fill : σ → Json → Except Mismatch σ

namespace Field

variable {σ : Type}

/-- Fills the fields of a draft from the members of an object. -/
def fillMembers (fields : List (Field σ)) : σ → List (String × Json) → Except Mismatch σ
  | draft, [] => .ok draft
  | draft, (key, tree) :: rest =>
    match fields.find? (·.key = key) with
    | none => fillMembers fields draft rest
    | some field => do fillMembers fields (← field.fill draft tree) rest

/-- Fills the fields of a draft from the items of an array; `total` and `index` count the fields of
the record and those before the current ones. -/
def fillItems (record : String) (total : Nat) :
    Nat → List (Field σ) → σ → List Json → Except Mismatch σ
  | index, [], draft, items =>
    if items.isEmpty then .ok draft else .error (.tooLong (index + items.length))
  | index, field :: fields, draft, [] =>
    if field.absence = .defaulted then fillItems record total (index + 1) fields draft []
    else .error (.tooShort index record total)
  | index, field :: fields, draft, item :: items => do
    fillItems record total (index + 1) fields (← field.fill draft item) items

/-- Fills a draft from a tree. -/
def fillRecord (record : String) (fields : List (Field σ)) (draft : σ) :
    Json → Except Mismatch σ
  | .obj members => do
    let draft ← fillMembers fields draft members
    match fields.find? fun field =>
        field.absence = .refused && !members.any (·.1 = field.key) with
    | some field => .error (.missingField field.key)
    | none => .ok draft
  | .arr items => fillItems record fields.length 0 fields draft items
  | found => .error (.kind found ("struct " ++ record))

end Field

/-- Reads null as nothing and everything else by a reading. -/
def readOptional {α : Type} (read : Json → Except Mismatch α) : Json → Except Mismatch (Option α)
  | .null => .ok none
  | tree => (read tree).map some

/-- Reads each value of an object. -/
def readTable {α : Type} (read : Json → Except Mismatch α) (tree : Json) :
    Except Mismatch (List (String × α)) := do
  (← tree.readMembers).mapM fun (key, value) => return (key, ← read value)

end RouteScaffold.Document
