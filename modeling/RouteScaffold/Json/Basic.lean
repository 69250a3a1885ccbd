import RouteScaffold.Number.Basic

/-!
# JSON trees

The tree a document is read into.  Objects keep their members in the order of the text, and a
repeated key keeps the place of its first appearance and takes the value of its last.
-/

namespace RouteScaffold

/-- A JSON tree. -/
inductive Json where
  | null
  | bool (value : Bool)
  | num (value : Number)
  | str (text : String)
  | arr (items : List Json)
  | obj (members : List (String × Json))
  deriving Repr, Inhabited

/-- Puts a value under a key: in place when the key is there already, at the end when it is new. -/
def putMember {κ α : Type} [DecidableEq κ] (key : κ) (value : α) : List (κ × α) → List (κ × α)
  | [] => [(key, value)]
  | (k, v) :: rest => if k = key then (key, value) :: rest else (k, v) :: putMember key value rest

namespace Json

/-- The members of an object; none for any other tree. -/
def members : Json → List (String × Json)
  | obj members => members
  | _ => []

/-- The value under a key of an object. -/
def get? (tree : Json) (key : String) : Option Json :=
  tree.members.lookup key

/-- The text of a string. -/
def text? : Json → Option String
  | str text => some text
  | _ => none

/-- The text under a key of an object, when a string stands there. -/
def getText? (tree : Json) (key : String) : Option String :=
  (tree.get? key).bind text?

end Json

/-! ## Putting members -/

theorem lookup_putMember_self {κ α : Type} [DecidableEq κ] (key : κ) (value : α)
    (members : List (κ × α)) : (putMember key value members).lookup key = some value := by
  induction members with
  | nil => simp [putMember]
  | cons member rest ih =>
    obtain ⟨k, v⟩ := member
    by_cases h : k = key
    · simp [putMember, h]
    · have hne : (key == k) = false := by simpa using Ne.symm h
      simp [putMember, h, List.lookup_cons, hne, ih]

theorem lookup_putMember_ne {κ α : Type} [DecidableEq κ] {key other : κ} (h : other ≠ key)
    (value : α) (members : List (κ × α)) :
    (putMember key value members).lookup other = members.lookup other := by
  have hne : (other == key) = false := by simpa using h
  induction members with
  | nil => simp [putMember, List.lookup_cons, hne]
  | cons member rest ih =>
    obtain ⟨k, v⟩ := member
    by_cases hk : k = key
    · subst hk
      simp [putMember, List.lookup_cons, hne]
    · simp [putMember, hk, List.lookup_cons, ih]

end RouteScaffold
