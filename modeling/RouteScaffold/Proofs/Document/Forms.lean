import RouteScaffold.Document.Record
import RouteScaffold.OpenApi.Method

/-!
# The forms of the parts of a document

What a tree has to be like so that it can be read as a part of a document is told here part by part, and without the
readings.  Most parts are records: objects with something of the right form under the keys that count, or arrays
with such things in the order of the slots (`IsRecord`).  Where a part may stand by reference nothing is asked of a
reference.
-/

namespace RouteScaffold.Document

open OpenApi (Method)

/-! ## Records -/

/-- What stands under a key of some members satisfies a condition. -/
def Under (members : List (String × Json)) (key : String) (P : Json → Prop) : Prop :=
  ∀ child, (key, child) ∈ members → P child

@[simp] theorem under_true {members : List (String × Json)} {key : String} :
    Under members key fun _ => True := fun _ _ => trivial

/-- A slot of a record, with the form of what stands in it. -/
structure Slot where
  key : String
  absence : Absence
  form : Json → Prop

/-- Items in the slots of a record in their order.  The slots that are left have defaults. -/
inductive InOrder : List Slot → List Json → Prop
  | done {slots : List Slot} (hleft : ∀ slot ∈ slots, slot.absence = .defaulted) : InOrder slots []
  | next {slot : Slot} {slots : List Slot} {item : Json} {items : List Json} (hitem : slot.form item)
      (hrest : InOrder slots items) : InOrder (slot :: slots) (item :: items)

/-- A record with some slots. -/
inductive IsRecord (slots : List Slot) : Json → Prop
  | object {members : List (String × Json)} (hforms : ∀ slot ∈ slots, Under members slot.key slot.form)
      (hkeys : ∀ slot ∈ slots, slot.absence = .refused → slot.key ∈ members.map (·.1)) :
      IsRecord slots (.obj members)
  | array {items : List Json} (hitems : InOrder slots items) : IsRecord slots (.arr items)

section

variable {slot : Slot} {slots : List Slot}

theorem inOrder_nil : InOrder slots [] ↔ ∀ slot ∈ slots, slot.absence = .defaulted := by
  constructor
  · intro h
    cases h with
    | done hleft => exact hleft
  · exact .done

theorem not_inOrder_nil_cons {item : Json} {items : List Json} : ¬ InOrder [] (item :: items) := by
  intro h
  cases h

theorem inOrder_cons {item : Json} {items : List Json} :
    InOrder (slot :: slots) (item :: items) ↔ slot.form item ∧ InOrder slots items := by
  constructor
  · intro h
    cases h with
    | next hitem hrest => exact ⟨hitem, hrest⟩
  · intro h
    exact .next h.1 h.2

theorem isRecord_obj {members : List (String × Json)} : IsRecord slots (.obj members) ↔
    (∀ slot ∈ slots, Under members slot.key slot.form) ∧
      ∀ slot ∈ slots, slot.absence = .refused → slot.key ∈ members.map (·.1) := by
  constructor
  · intro h
    cases h with
    | object hforms hkeys => exact ⟨hforms, hkeys⟩
  · intro h
    exact .object h.1 h.2

theorem isRecord_arr {items : List Json} : IsRecord slots (.arr items) ↔ InOrder slots items := by
  constructor
  · intro h
    cases h with
    | array hitems => exact hitems
  · exact .array

theorem not_isRecord_null : ¬ IsRecord slots .null := by
  intro h
  cases h

end

/-! ## Texts, lists and tables -/

def IsText (tree : Json) : Prop := ∃ text, tree = .str text

def IsFlag (tree : Json) : Prop := ∃ value, tree = .bool value

/-- Null in the place of a form that may be left out. -/
def OrNull (form : Json → Prop) (tree : Json) : Prop := tree = .null ∨ form tree

/-- A reference in the place of a form. -/
def OrLink (form : Json → Prop) (tree : Json) : Prop := tree.reference? = none → form tree

def IsList (form : Json → Prop) (tree : Json) : Prop := ∃ items, tree = .arr items ∧ ∀ item ∈ items, form item

/-- A table with entries of a form. -/
def IsTable (form : Json → Prop) (tree : Json) : Prop :=
  ∃ members, tree = .obj members ∧ ∀ member ∈ members, form member.2

/-- A location, by its name or with null under its name as the only key. -/
def IsLocation (tree : Json) : Prop :=
  ∃ name ∈ ["header", "path", "query", "cookie"], tree = .str name ∨ tree = .obj [(name, .null)]

/-! ## The parts of a document -/

def parameterSlots : List Slot := [
  ⟨"name", .refused, IsText⟩,
  ⟨"in", .refused, IsLocation⟩,
  ⟨"required", .defaulted, IsFlag⟩,
  ⟨"schema", .allowed, fun _ => True⟩,
  ⟨"description", .allowed, OrNull IsText⟩]

def IsParameter : Json → Prop := IsRecord parameterSlots

/-- A list of parameters that may stand by reference. -/
def IsParameterList : Json → Prop := IsList (OrLink IsParameter)

def mediaTypeSlots : List Slot := [⟨"schema", .allowed, fun _ => True⟩]

def requestBodySlots : List Slot := [
  ⟨"required", .defaulted, IsFlag⟩,
  ⟨"content", .defaulted, IsTable (IsRecord mediaTypeSlots)⟩]

def IsRequestBody : Json → Prop := IsRecord requestBodySlots

def operationSlots : List Slot := [
  ⟨"parameters", .allowed, OrNull IsParameterList⟩,
  ⟨"requestBody", .allowed, OrNull (OrLink IsRequestBody)⟩]

def IsOperation : Json → Prop := IsRecord operationSlots

/-- A path item: an object of which the parameters and the names of methods count. -/
def IsPathItem (tree : Json) : Prop :=
  ∃ members, tree = .obj members ∧ Under members "parameters" IsParameterList ∧
    ∀ method : Method, Under members method.name IsOperation

def componentsSlots : List Slot := [
  ⟨"schemas", .defaulted, IsTable fun _ => True⟩,
  ⟨"parameters", .defaulted, IsTable IsParameter⟩,
  ⟨"requestBodies", .defaulted, IsTable IsRequestBody⟩]

def IsComponents : Json → Prop := IsRecord componentsSlots

def infoSlots : List Slot := [⟨"title", .refused, IsText⟩, ⟨"version", .refused, IsText⟩]

def IsInfo : Json → Prop := IsRecord infoSlots

def documentSlots : List Slot := [
  ⟨"info", .refused, IsInfo⟩,
  ⟨"paths", .defaulted, IsTable IsPathItem⟩,
  ⟨"components", .defaulted, IsComponents⟩]

def IsDocument : Json → Prop := IsRecord documentSlots

end RouteScaffold.Document
