import RouteScaffold.Document.Basic
import RouteScaffold.Document.Record

/-!
# Reading documents

A document is read from the tree of a source.  Path items are objects of which only the parameters
and the keys of methods count; all other parts are records.
-/

namespace RouteScaffold.Document

open Json (Mismatch)
open OpenApi (Method OrReference)

/-! ## Parameters and bodies -/

/-- Reads the location of a parameter. -/
def readLocation (tree : Json) : Except Mismatch Location := do
  let name ← tree.readName (Location.all.map Location.name) false
  match Location.all.find? (·.name = name) with
  | some location => .ok location
  | none => .error (.unknownName name (Location.all.map Location.name))

/-- The fields of a parameter. -/
def parameterFields : List (Field Parameter) := [
  ⟨"name", .refused, fun draft tree => return { draft with name := ← tree.readText }⟩,
  ⟨"in", .refused, fun draft tree => return { draft with location := ← readLocation tree }⟩,
  ⟨"required", .defaulted, fun draft tree => return { draft with required := ← tree.readFlag }⟩,
  ⟨"schema", .allowed, fun draft tree => return { draft with schema := ← readOptional .ok tree }⟩,
  ⟨"description", .allowed, fun draft tree =>
    return { draft with description := ← readOptional Json.readText tree }⟩]

/-- Reads a parameter. -/
def Parameter.read : Json → Except Mismatch Parameter :=
  Field.fillRecord "Parameter" parameterFields { name := "", location := .header }

/-- The fields of a media type. -/
def mediaTypeFields : List (Field MediaType) := [
  ⟨"schema", .allowed, fun draft tree => return { draft with schema := ← readOptional .ok tree }⟩]

/-- Reads a media type. -/
def MediaType.read : Json → Except Mismatch MediaType :=
  Field.fillRecord "MediaType" mediaTypeFields {}

/-- The fields of a request body. -/
def requestBodyFields : List (Field RequestBody) := [
  ⟨"required", .defaulted, fun draft tree => return { draft with required := ← tree.readFlag }⟩,
  ⟨"content", .defaulted, fun draft tree =>
    return { draft with content := ← readTable MediaType.read tree }⟩]

/-- Reads a request body. -/
def RequestBody.read : Json → Except Mismatch RequestBody :=
  Field.fillRecord "RequestBody" requestBodyFields {}

/-! ## Operations and paths -/

/-- Reads a list of parameters. -/
def readParameters (tree : Json) : Except Mismatch (List (OrReference Parameter)) := do
  (← tree.readItems).mapM (OrReference.read Parameter.read)

/-- The fields of an operation. -/
def operationFields : List (Field Operation) := [
  ⟨"parameters", .allowed, fun draft tree =>
    return { draft with parameters := ← readOptional readParameters tree }⟩,
  ⟨"requestBody", .allowed, fun draft tree => return { draft with
    requestBody := ← readOptional (OrReference.read RequestBody.read) tree }⟩]

/-- Reads an operation. -/
def Operation.read : Json → Except Mismatch Operation :=
  Field.fillRecord "Operation" operationFields {}

/-- Extends a path item by a member of its object. -/
def PathItem.extend (item : PathItem) (key : String) (tree : Json) : Except Mismatch PathItem :=
  if key = "parameters" then
    match readParameters tree with
    | .ok parameters => .ok { item with parameters }
    | .error cause => .error (.within "path parameters" cause)
  else
    match Method.ofName? key with
    | none => .ok item
    | some method =>
      match Operation.read tree with
      | .ok operation =>
        .ok { item with operations := putMember method operation item.operations }
      | .error cause => .error (.within ("`" ++ key ++ "` operation") cause)

/-- Reads a path item. -/
def PathItem.read (tree : Json) : Except Mismatch PathItem := do
  (← tree.readMembers).foldlM (fun item (key, value) => item.extend key value) {}

/-! ## Components and documents -/

/-- The fields of the components. -/
def componentsFields : List (Field Components) := [
  ⟨"schemas", .defaulted, fun draft tree => return { draft with schemas := ← readTable .ok tree }⟩,
  ⟨"parameters", .defaulted, fun draft tree =>
    return { draft with parameters := ← readTable Parameter.read tree }⟩,
  ⟨"requestBodies", .defaulted, fun draft tree =>
    return { draft with requestBodies := ← readTable RequestBody.read tree }⟩]

/-- Reads the components. -/
def Components.read : Json → Except Mismatch Components :=
  Field.fillRecord "Components" componentsFields {}

/-- The title and the version of a document. -/
structure Info where
  title : String := ""
  version : String := ""

/-- The fields of the title and the version. -/
def infoFields : List (Field Info) := [
  ⟨"title", .refused, fun draft tree => return { draft with title := ← tree.readText }⟩,
  ⟨"version", .refused, fun draft tree => return { draft with version := ← tree.readText }⟩]

/-- Reads the title and the version. -/
def Info.read : Json → Except Mismatch Info :=
  Field.fillRecord "Info" infoFields {}

/-- The fields of a document. -/
def documentFields : List (Field Document) := [
  ⟨"info", .refused, fun draft tree => do
    let info ← Info.read tree
    return { draft with title := info.title, version := info.version }⟩,
  ⟨"paths", .defaulted, fun draft tree =>
    return { draft with paths := ← readTable PathItem.read tree }⟩,
  ⟨"components", .defaulted, fun draft tree =>
    return { draft with components := ← Components.read tree }⟩]

/-- Reads a document. -/
def read : Json → Except Mismatch Document :=
  Field.fillRecord "Document" documentFields { title := "", version := "" }

end RouteScaffold.Document
