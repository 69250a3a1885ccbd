import RouteScaffold.Json.Mismatch

/-!
# Things that may stand by reference

At many places a description holds either a thing or a reference to one that is defined elsewhere.
-/

namespace RouteScaffold.OpenApi

/-- A thing, or the text of a reference to one. -/
inductive OrReference (α : Type) where
  | reference (text : String)
  | item (value : α)
  deriving Repr

namespace OrReference

/-- Reads a reference, or a thing by its own reading. -/
def read {α : Type} (readItem : Json → Except Json.Mismatch α) (tree : Json) :
    Except Json.Mismatch (OrReference α) :=
  match tree.reference? with
  | some text => .ok (reference text)
  | none => (readItem tree).map item

/-- The thing, if it is not a reference. -/
def item? {α : Type} : OrReference α → Option α
  | reference _ => none
  | item value => some value

end OrReference

end RouteScaffold.OpenApi
