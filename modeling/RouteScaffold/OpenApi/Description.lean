import RouteScaffold.OpenApi.Check
import RouteScaffold.OpenApi.Method
import RouteScaffold.OpenApi.Reference

/-!
# What strict checks read of a description

A tree that has the shape of a description is read into the parts that strict checks and summaries
look at.  The reading is total: where the shape promises a key, its absence would only show as an
empty text.

Paths are the keys that start with a slash; every other key beside them is free.
-/

namespace RouteScaffold.OpenApi

/-- A parameter as strict checks see it. -/
structure DescribedParameter where
  location : String
  name : String
  deriving Repr

/-- A request body as strict checks see it. -/
structure DescribedBody where
  required : Bool
  deriving Repr

/-- An operation as strict checks see it. -/
structure DescribedOperation where
  operationId : Option String
  parameters : List (OrReference DescribedParameter)
  requestBody : Option (OrReference DescribedBody)
  deriving Repr

/-- A path item as strict checks see it, its operations in the order in which methods are
declared. -/
structure DescribedPath where
  parameters : List (OrReference DescribedParameter)
  operations : List (Method × DescribedOperation)
  deriving Repr

/-- A description as strict checks see it. -/
structure Description where
  openapi : String
  title : String
  version : String
  paths : List (String × OrReference DescribedPath)
  /-- The parameters that references may name. -/
  parameters : List (String × OrReference DescribedParameter)
  /-- The request bodies that references may name. -/
  requestBodies : List (String × OrReference DescribedBody)
  deriving Repr

/-- Views a tree as a reference or as a thing. -/
def viewReference {α : Type} (view : Json → α) (tree : Json) : OrReference α :=
  match tree.reference? with
  | some text => .reference text
  | none => .item (view tree)

/-- The text under a key, empty when there is none. -/
def textAt (tree : Json) (key : String) : String := (tree.getText? key).getD ""

/-- The items of the array under a key, none when there is none. -/
def itemsAt (tree : Json) (key : String) : List Json :=
  match tree.get? key with
  | some (.arr items) => items
  | _ => []

/-- The members of the object under a key, none when there is none. -/
def membersAt (tree : Json) (key : String) : List (String × Json) :=
  ((tree.get? key).getD .null).members

/-- What stands under a key, null counting as nothing. -/
def presentAt (tree : Json) (key : String) : Option Json :=
  match tree.get? key with
  | some .null => none
  | found => found

/-- The name of the part that a tree selects by its tag, empty when there is none. -/
def selectedName (part : Part) (tree : Json) : String :=
  match layout part with
  | .tagged _ tag parts => ((tree.get? tag).bind (tagName? parts)).getD ""
  | .record .. => ""

/-- Views a tree as a parameter. -/
def DescribedParameter.ofTree (tree : Json) : DescribedParameter :=
  ⟨selectedName .parameter tree, textAt tree "name"⟩

/-- Views a tree as a request body. -/
def DescribedBody.ofTree (tree : Json) : DescribedBody :=
  match tree.get? "required" with
  | some (.bool required) => ⟨required⟩
  | _ => ⟨false⟩

/-- The parameters under a tree's key for them. -/
def parametersAt (tree : Json) : List (OrReference DescribedParameter) :=
  (itemsAt tree "parameters").map (viewReference DescribedParameter.ofTree)

/-- Views a tree as an operation. -/
def DescribedOperation.ofTree (tree : Json) : DescribedOperation where
  operationId := tree.getText? "operationId"
  parameters := parametersAt tree
  requestBody := (presentAt tree "requestBody").map (viewReference DescribedBody.ofTree)

/-- Views a tree as a path item. -/
def DescribedPath.ofTree (tree : Json) : DescribedPath where
  parameters := parametersAt tree
  operations := Method.all.filterMap fun method =>
    (presentAt tree method.name).map fun operation =>
      (method, DescribedOperation.ofTree operation)

/-- Views a tree as a description. -/
def Description.ofTree (tree : Json) : Description :=
  let info := (tree.get? "info").getD .null
  let components := (tree.get? "components").getD .null
  { openapi := textAt tree "openapi"
    title := textAt info "title"
    version := textAt info "version"
    paths := ((membersAt tree "paths").filter fun path => KeyClass.path.has path.1).map
      fun (template, item) => (template, viewReference DescribedPath.ofTree item)
    parameters := (membersAt components "parameters").map
      fun (name, tree) => (name, viewReference DescribedParameter.ofTree tree)
    requestBodies := (membersAt components "requestBodies").map
      fun (name, tree) => (name, viewReference DescribedBody.ofTree tree) }

/-- The description a tree holds, or why it holds none. -/
def describe (tree : Json) : Except Json.Mismatch Description :=
  (checkDescription tree).map fun _ => Description.ofTree tree

end RouteScaffold.OpenApi
