import Mathlib
import RouteScaffold.OpenApi.Strict
import RouteScaffold.Proofs.Document.Reader
import RouteScaffold.Proofs.OpenApi.Fits

/-!
# Variables that are declared

Strict checks look at a description, and scaffolds are made from a document; both are views of one
tree.  Where the checks find nothing, the paths of the document are those under `paths`, in their
order, and each that the checks see declares the variables of its template
(`guarded_of_violations_eq_nil`).  They see a path when its key starts with a slash and its item is no
reference: of the keys only these belong to a description, so that none is ever told not to start with
a slash, and an item with a text under `$ref` counts as a reference whatever operations it has.  The
document has the other paths and their operations too (`not_guarded_loose`).
-/

namespace RouteScaffold

open Json (Distinct)

/-! ## What a document declares -/

namespace Document

open OpenApi (OrReference)

/-- The parameter an entry stands for. -/
def Components.parameterOf? (components : Components) : OrReference Parameter → Option Parameter
  | .item parameter => some parameter
  | .reference text => components.parameter? text

/-- A name is that of a parameter in the path, given by an entry or by what it refers to. -/
def Components.Declares (components : Components) (entries : List (OrReference Parameter))
    (name : String) : Prop :=
  ∃ entry ∈ entries, ∃ parameter, components.parameterOf? entry = some parameter ∧
    parameter.location = .path ∧ parameter.name = name

/-- Each operation of a path declares the variables of its template, or the path does. -/
def PathItem.DeclaresVariables (item : PathItem) (components : Components) (template : String) :
    Prop :=
  ∀ operation ∈ item.operations, ∀ name ∈ Route.templateVariables template,
    components.Declares (operation.2.parameters.getD []) name ∨
      components.Declares item.parameters name

/-- A path whose template starts with a slash and has its variables declared. -/
def Guarded (components : Components) (path : String × PathItem) : Prop :=
  path.1.toList.head? = some '/' ∧ path.2.DeclaresVariables components path.1

end Document

namespace OpenApi

open Document (Components Operation Parameter PathItem ReadFrom)

/-! ## Parameters in both views -/

/-- The forms of a parameter by the name of their location. -/
def parameterParts : List (String × Part) :=
  match layout .parameter with
  | .tagged _ _ parts => parts
  | .record .. => []

theorem location_of_readLocation {tag : Json} {location : Document.Location}
    (hread : Document.readLocation tag = .ok location)
    (hpath : (tagName? parameterParts tag).getD "" = "path") : location = .path := by
  cases tag with
  | str name =>
      have hname : name = "path" := hpath
      subst hname
      exact (Except.ok.inj hread).symm
  | obj members => simp [tagName?, tagPlace?] at hpath
  | _ => simp [Document.readLocation, Json.readName, bind, Except.bind] at hread

/-- A parameter that a description has in the path is there in the document, with its name. -/
theorem parameter_of_location {tree : Json} {parameter : Parameter} (hdistinct : tree.Distinct)
    (hread : Parameter.read tree = .ok parameter)
    (hpath : (DescribedParameter.ofTree tree).location = "path") :
    parameter.location = .path ∧ parameter.name = (DescribedParameter.ofTree tree).name := by
  have hlocation : ((tree.get? "in").bind (tagName? parameterParts)).getD "" = "path" := hpath
  cases tree with
  | obj members =>
      have hin := Document.fills_location.readFrom hdistinct hread
      have hname := Document.fills_name.readFrom hdistinct hread
      constructor
      · cases htag : (Json.obj members).get? "in" with
        | none => simp [htag] at hlocation
        | some tag =>
            rw [htag] at hin hlocation
            exact location_of_readLocation hin hlocation
      · show parameter.name = textAt (.obj members) "name"
        rw [textAt, Json.getText?]
        cases htext : (Json.obj members).get? "name" with
        | none =>
            rw [htext] at hname
            exact hname
        | some text =>
            rw [htext] at hname
            cases text with
            | str text => exact (Except.ok.inj hname).symm
            | _ => simp [ReadFrom, Json.readText] at hname
  | _ => simp [Json.get?, Json.members] at hlocation

/-! ## Entries in both views -/

/-- The entries under a key of a tree are read, each by itself. -/
def ReadsEntries (tree : Json) (entries : List (OrReference Parameter)) : Prop :=
  ∀ items, tree.get? "parameters" = some (.arr items) →
    List.Forall₂ (fun item entry => OrReference.read Parameter.read item = .ok entry) items entries

theorem readsEntries_of_readParameters {tree found : Json} {entries : List (OrReference Parameter)}
    (hfound : tree.get? "parameters" = some found)
    (hread : Document.readParameters found = .ok entries) : ReadsEntries tree entries := by
  intro items hitems
  obtain ⟨others, hothers, hall⟩ := Document.forall₂_of_readParameters hread
  rw [hfound, hothers] at hitems
  simp only [Option.some.injEq, Json.arr.injEq] at hitems
  exact hitems ▸ hall

theorem readsEntries_of_pathItem {tree : Json} {item : PathItem} (hdistinct : tree.Distinct)
    (hread : PathItem.read tree = .ok item) : ReadsEntries tree item.parameters := by
  have hfrom := Document.readFrom_parameters hdistinct hread
  cases hfound : tree.get? "parameters" with
  | none =>
      intro items hitems
      simp [hfound] at hitems
  | some found =>
      rw [hfound] at hfrom
      exact readsEntries_of_readParameters hfound hfrom

theorem readsEntries_of_operation {tree : Json} {operation : Operation} (hdistinct : tree.Distinct)
    (hread : Operation.read tree = .ok operation) :
    ReadsEntries tree (operation.parameters.getD []) := by
  intro items hitems
  have hoptional := Document.fills_parameters.read_of_get? hdistinct hread hitems
  obtain ⟨entries, hentries, hsome⟩ := map_eq_ok hoptional
  rw [← hsome]
  exact readsEntries_of_readParameters hitems hentries items hitems

section

variable {root : Json} {document : Document}

theorem get?_of_lookup_membersAt {tree child : Json} {key name : String}
    (h : (membersAt tree key).lookup name = some child) :
    ∃ table, tree.get? key = some table ∧ table.get? name = some child := by
  unfold membersAt at h
  cases htable : tree.get? key with
  | none => simp [htable, Json.members] at h
  | some table =>
      rw [htable] at h
      exact ⟨table, rfl, h⟩

/-- A shared parameter of a description is one of the document. -/
theorem sharedParameter_of_lookup (hdistinct : root.Distinct)
    (hread : Document.read root = .ok document) {name : String} {described : DescribedParameter}
    (hlookup : (Description.ofTree root).parameters.lookup name = some (.item described))
    (hpath : described.location = "path") :
    ∃ parameter, document.components.parameters.lookup name = some parameter ∧
      parameter.location = .path ∧ parameter.name = described.name := by
  have hview : (Description.ofTree root).parameters =
      (membersAt ((root.get? "components").getD .null) "parameters").map
        fun member => (member.1, viewReference DescribedParameter.ofTree member.2) := rfl
  rw [hview, lookup_map, Option.map_eq_some_iff] at hlookup
  obtain ⟨shared, hshared, hitem⟩ := hlookup
  obtain ⟨table, htable, hchild⟩ := get?_of_lookup_membersAt hshared
  cases hcomponents : root.get? "components" with
  | none =>
      rw [hcomponents] at htable
      simp [Json.get?, Json.members] at htable
  | some components =>
      rw [hcomponents, Option.getD_some] at htable
      have hcomponentsRead := Document.fills_components.read_of_get? hdistinct hread hcomponents
      have htableRead := Document.fills_sharedParameters.read_of_get? (hdistinct.get? hcomponents)
        hcomponentsRead htable
      obtain ⟨parameter, hparameter, hsharedRead⟩ := Document.lookup_of_readTable htableRead hchild
      have hsharedDistinct : shared.Distinct :=
        ((hdistinct.get? hcomponents).get? htable).get? hchild
      unfold viewReference at hitem
      split at hitem
      · simp at hitem
      · simp only [OrReference.item.injEq] at hitem
        subst hitem
        exact ⟨parameter, hparameter, parameter_of_location hsharedDistinct hsharedRead hpath⟩

/-- A parameter in the path that an entry stands for in a description is what the entry stands for in
the document. -/
theorem parameterOf?_of_parameterOf (hdistinct : root.Distinct)
    (hread : Document.read root = .ok document) {tree : Json} {entry : OrReference Parameter}
    (htree : tree.Distinct) (hentry : OrReference.read Parameter.read tree = .ok entry)
    {described : DescribedParameter}
    (hdescribed : (Description.ofTree root).parameterOf
      (viewReference DescribedParameter.ofTree tree) = some described)
    (hpath : described.location = "path") :
    ∃ parameter, document.components.parameterOf? entry = some parameter ∧
      parameter.location = .path ∧ parameter.name = described.name := by
  unfold OrReference.read at hentry
  unfold viewReference at hdescribed
  split at hentry
  · rename_i text htext
    simp only [Except.ok.injEq] at hentry
    subst hentry
    simp only [htext, Description.parameterOf, bind, Option.bind_eq_some_iff] at hdescribed
    -- both readings look the name of the reference up in their own table
    obtain ⟨name, hname, shared, hshared, hitem⟩ := hdescribed
    cases shared with
    | reference other => simp [OrReference.item?] at hitem
    | item value =>
        simp only [OrReference.item?, Option.some.injEq] at hitem
        subst hitem
        obtain ⟨parameter, hparameter, hfacts⟩ :=
          sharedParameter_of_lookup hdistinct hread hshared hpath
        refine ⟨parameter, ?_, hfacts⟩
        rw [Components.parameterOf?, Components.parameter?]
        exact Option.bind_eq_some_iff.mpr ⟨name, hname, hparameter⟩
  · rename_i htext
    obtain ⟨parameter, hparameter, rfl⟩ := map_eq_ok hentry
    simp only [htext, Description.parameterOf, Option.some.injEq] at hdescribed
    subst hdescribed
    obtain ⟨hlocation, hname⟩ := parameter_of_location htree hparameter hpath
    exact ⟨parameter, rfl, hlocation, hname⟩

theorem declares_of_mem_declaredNames (hdistinct : root.Distinct)
    (hread : Document.read root = .ok document) {tree : Json} {entries : List (OrReference Parameter)}
    (htree : tree.Distinct) (hentries : ReadsEntries tree entries) {name : String}
    (hname : name ∈ (Description.ofTree root).declaredNames (parametersAt tree)) :
    document.components.Declares entries name := by
  simp only [Description.declaredNames, List.mem_map, List.mem_filter, List.mem_filterMap,
    parametersAt, decide_eq_true_eq] at hname
  obtain ⟨described, ⟨⟨_, ⟨item, hitem, rfl⟩, hdescribed⟩, hpath⟩, hname⟩ := hname
  cases hfound : tree.get? "parameters" with
  | none => simp [itemsAt, hfound] at hitem
  | some found =>
      cases found with
      | arr items =>
          rw [itemsAt, hfound] at hitem
          have hitemDistinct : item.Distinct := (htree.get? hfound).of_mem_children hitem
          obtain ⟨entry, hentry, hitemRead⟩ := exists_of_forall₂ (hentries items hfound) hitem
          obtain ⟨parameter, hparameter, hlocation, hsame⟩ :=
            parameterOf?_of_parameterOf hdistinct hread hitemDistinct hitemRead hdescribed hpath
          exact ⟨entry, hentry, parameter, hparameter, hlocation, hsame.trans hname⟩
      | _ => simp [itemsAt, hfound] at hitem

end

/-! ## Paths in both views -/

/-- Strict checks see a path: its key starts with a slash, and it is no reference. -/
def IsSeen (member : String × Json) : Prop :=
  member.1.toList.head? = some '/' ∧ member.2.reference? = none

theorem path_has_iff (key : String) : KeyClass.path.has key = true ↔ key.toList.head? = some '/' := by
  unfold KeyClass.has
  cases key.toList with
  | nil => simp
  | cons c rest => simp

section

variable {root : Json}

/-- A path that is seen is one of the description. -/
theorem mem_paths_of_isSeen {member : String × Json} (hmember : member ∈ membersAt root "paths")
    (hseen : IsSeen member) :
    (member.1, .item (DescribedPath.ofTree member.2)) ∈ (Description.ofTree root).paths := by
  have hview : viewReference DescribedPath.ofTree member.2 =
      .item (DescribedPath.ofTree member.2) := by
    rw [viewReference, hseen.2]
  rw [← hview]
  refine List.mem_map.mpr ⟨member, List.mem_filter.mpr ⟨hmember, ?_⟩, rfl⟩
  exact (path_has_iff member.1).mpr hseen.1

theorem mem_operations_of_get? {tree child : Json} {method : Method}
    (hchild : tree.get? method.name = some child) (hne : child ≠ .null) :
    (method, DescribedOperation.ofTree child) ∈ (DescribedPath.ofTree tree).operations := by
  refine List.mem_filterMap.mpr ⟨method, method.mem_all, ?_⟩
  rw [presentAt, hchild]
  cases child with
  | null => exact absurd rfl hne
  | _ => rfl

/-- Without violations the variables of a path that is seen are declared in the description. -/
theorem declared_of_violations_eq_nil
    (hnone : violations root (Description.ofTree root) = []) {template : String}
    {path : DescribedPath} (hpath : (template, .item path) ∈ (Description.ofTree root).paths)
    {method : Method} {operation : DescribedOperation}
    (hoperation : (method, operation) ∈ path.operations) {name : String} (hname : name ∈ Route.templateVariables template) :
    name ∈ (Description.ofTree root).declaredNames operation.parameters ∨
      name ∈ (Description.ofTree root).declaredNames path.parameters := by
  unfold violations at hnone
  simp only [List.append_eq_nil_iff] at hnone
  have hpaths := List.flatMap_eq_nil_iff.mp hnone.1.2 _ hpath
  unfold Description.pathViolations at hpaths
  have hoperations := List.flatMap_eq_nil_iff.mp (List.append_eq_nil_iff.mp hpaths).2 _ hoperation
  simp only [Description.operationViolations, List.map_eq_nil_iff, List.filter_eq_nil_iff]
    at hoperations
  have hdeclared := hoperations name hname
  by_contra hnot
  simp only [not_or] at hnot
  simp [hnot.1, hnot.2] at hdeclared

end

theorem exists_members_of_describe {tree : Json} {description : Description}
    (h : describe tree = .ok description) :
    (∃ members, tree = .obj members) ∧ description = Description.ofTree tree := by
  unfold describe at h
  obtain ⟨_, hcheck, rfl⟩ := map_eq_ok h
  refine ⟨?_, rfl⟩
  unfold checkDescription at hcheck
  rw [check] at hcheck
  obtain ⟨selection, hgroups, -⟩ := bind_eq_ok hcheck
  cases tree with
  | obj members => exact ⟨members, rfl⟩
  | _ => simp [groupsFor, layout] at hgroups

/-- A path that is seen declares the variables of its template in the document. -/
theorem guarded_of_isSeen {root : Json} {document : Document} (hdistinct : root.Distinct)
    (hnone : violations root (Description.ofTree root) = [])
    (hread : Document.read root = .ok document) {member : String × Json} {item : PathItem}
    (hmember : member ∈ membersAt root "paths") (hmemberDistinct : member.2.Distinct)
    (hitem : PathItem.read member.2 = .ok item) (hseen : IsSeen member) :
    Document.Guarded document.components (member.1, item) := by
  refine ⟨hseen.1, ?_⟩
  intro (method, operation) hoperation name hname
  obtain ⟨child, hchild, hchildRead⟩ :=
    Document.get?_of_mem_operations hmemberDistinct hitem hoperation
  have hne : child ≠ .null := by
    rintro rfl
    simp [Operation.read, Document.Field.fillRecord] at hchildRead
  have hdescribed := mem_operations_of_get? hchild hne
  have hentries := readsEntries_of_operation (hmemberDistinct.get? hchild) hchildRead
  rcases declared_of_violations_eq_nil hnone (mem_paths_of_isSeen hmember hseen) hdescribed hname with
    hown | hinherited
  · exact .inl (declares_of_mem_declaredNames hdistinct hread (hmemberDistinct.get? hchild) hentries
      hown)
  · exact .inr (declares_of_mem_declaredNames hdistinct hread hmemberDistinct
      (readsEntries_of_pathItem hmemberDistinct hitem) hinherited)

/-- Where strict checks find no violation the paths of the document are the members under the key for
them, one by one, and those that are seen are guarded. -/
theorem guarded_of_violations_eq_nil {tree : Json} {description : Description} {document : Document}
    (hdistinct : tree.Distinct) (hdescribe : describe tree = .ok description)
    (hnone : violations tree description = []) (hread : Document.read tree = .ok document) :
    List.Forall₂
      (fun member path => path.1 = member.1 ∧ PathItem.read member.2 = .ok path.2 ∧
        (IsSeen member → Document.Guarded document.components path))
      (membersAt tree "paths") document.paths := by
  obtain ⟨⟨members, rfl⟩, rfl⟩ := exists_members_of_describe hdescribe
  have hpaths := Document.fills_paths.readFrom hdistinct hread
  cases htable : (Json.obj members).get? "paths" with
  | none =>
      rw [htable] at hpaths
      have hempty : document.paths = [] := hpaths
      rw [membersAt, htable, hempty]
      exact .nil
  | some table =>
      rw [htable] at hpaths
      obtain ⟨entries, rfl, hentries⟩ := Document.forall₂_of_readTable hpaths
      have hmembers : membersAt (.obj members) "paths" = entries := by
        rw [membersAt, htable]
        rfl
      rw [hmembers]
      have htableDistinct := hdistinct.get? htable
      -- of each member it is kept that it stands in the tree, which the checks speak of
      have hall := (List.forall₂_and_left entries _).mpr ⟨fun member hmember => hmember, hentries⟩
      refine hall.imp ?_
      rintro member ⟨template, item⟩ ⟨hmember, hname, hitem⟩
      refine ⟨hname.symm, hitem, fun hseen => ?_⟩
      have hchildDistinct : member.2.Distinct :=
        htableDistinct.of_mem_children (List.mem_map_of_mem hmember)
      have hguarded := guarded_of_isSeen hdistinct hnone hread (hmembers ▸ hmember) hchildDistinct
        hitem hseen
      rw [hname] at hguarded
      exact hguarded

/-! ## A description with loose ends

Of its three paths one is seen and declares its variable by a reference.  The key of the second one
does not start with a slash, and the third one has a text under `$ref` beside its operation. -/

def loosePaths : List (String × Json) :=
  [("/a/\x7bid\x7d", .obj [("get", .obj [
      ("parameters", .arr [.obj [("$ref", .str "#/components/parameters/id")]]),
      ("responses", .obj [])])]),
    ("b", .obj [("get", .obj [("responses", .obj [])])]),
    ("/c/\x7bid\x7d", .obj [("$ref", .str "#"), ("get", .obj [("responses", .obj [])])])]

def looseParameter : Json := .obj [("name", .str "id"), ("in", .str "path"), ("schema", .obj [])]

def looseJson : Json :=
  .obj [("openapi", .str "3.0.0"), ("info", .obj [("title", .str ""), ("version", .str "")]),
    ("paths", .obj loosePaths),
    ("components", .obj [("parameters", .obj [("id", looseParameter)])])]

def looseComponents : Components where
  parameters := [("id", { name := "id", location := .path, schema := some (.obj []) })]

def loosePath : String × PathItem :=
  ("/a/\x7bid\x7d",
    { operations := [(.get, { parameters := some [.reference "#/components/parameters/id"] })] })

def looseDocument : Document where
  title := ""
  version := ""
  paths := [loosePath, ("b", { operations := [(.get, {})] }),
    ("/c/\x7bid\x7d", { operations := [(.get, {})] })]
  components := looseComponents

theorem distinct_looseJson : looseJson.Distinct := by
  simp [looseJson, loosePaths, looseParameter]

theorem describe_looseJson : describe looseJson = .ok (Description.ofTree looseJson) := by
  have hcheck : checkDescription looseJson = .ok () := by cbv
  exact describe_of_check hcheck

theorem violations_looseJson : violations looseJson (Description.ofTree looseJson) = [] := by
  cbv

theorem read_looseJson : Document.read looseJson = .ok looseDocument := rfl

/-- The variable of the path that is seen is declared. -/
theorem guarded_of_violations_eq_nil_loose :
    looseJson.Distinct ∧ describe looseJson = .ok (Description.ofTree looseJson) ∧
      violations looseJson (Description.ofTree looseJson) = [] ∧
        Document.read looseJson = .ok looseDocument ∧
          Document.Guarded looseComponents loosePath := by
  have hpaths := guarded_of_violations_eq_nil distinct_looseJson describe_looseJson
    violations_looseJson read_looseJson
  refine ⟨distinct_looseJson, describe_looseJson, violations_looseJson, read_looseJson, ?_⟩
  cases hpaths with
  | cons hfirst hrest => exact hfirst.2.2 ⟨rfl, rfl⟩

/-- A template that does not start with a slash and a variable that is not declared both come through
strict checks. -/
theorem not_guarded_loose :
    looseJson.Distinct ∧ describe looseJson = .ok (Description.ofTree looseJson) ∧
      violations looseJson (Description.ofTree looseJson) = [] ∧
        Document.read looseJson = .ok looseDocument ∧
          (∃ path ∈ looseDocument.paths, path.1.toList.head? ≠ some '/') ∧
            ∃ path ∈ looseDocument.paths, path.1.toList.head? = some '/' ∧
              ¬ path.2.DeclaresVariables looseDocument.components path.1 := by
  refine ⟨distinct_looseJson, describe_looseJson, violations_looseJson, read_looseJson,
    ⟨("b", { operations := [(.get, {})] }), by simp [looseDocument], by decide⟩,
    ("/c/\x7bid\x7d", { operations := [(.get, {})] }), by simp [looseDocument], rfl, ?_⟩
  intro hdeclares
  have hvariable : "id" ∈ Route.templateVariables "/c/\x7bid\x7d" := by
    have hvariables : Route.templateVariables "/c/\x7bid\x7d" = ["id"] := by cbv
    simp [hvariables]
  have hnone := hdeclares (.get, {}) (by simp) "id" hvariable
  simp [Components.Declares] at hnone

end OpenApi

end RouteScaffold
