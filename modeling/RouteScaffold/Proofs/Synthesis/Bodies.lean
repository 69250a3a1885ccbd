import RouteScaffold.Proofs.OpenApi.Operations
import RouteScaffold.Proofs.Synthesis.Parameters

/-!
# Request bodies that are told of

Where an operation of a description has a request body, what is found out about the operation of the
document tells of it: there is a schema for the body, or a gap says why there is none.  Two bodies need
not be told of (`Excused`), since nothing is asked of a request: one that is not required, and a
reference to a shared body that is not required.

One more is not told of (`Swallowed`).  An entry of the shared bodies may itself be a reference.  A
document follows one reference only and knows none among the shared bodies: it reads the entry as a body
without a `required`, takes it for one that is not required, and says nothing.  These are all
(`tellsBody_iff`), and the body that the two references lead to may be required (`not_tellsBody_relay`).
-/

namespace RouteScaffold

open Document (Components Operation Parameter PathItem RequestBody)
open Json (Distinct)
open OpenApi

namespace Synthesis

/-! ## What is told of a body -/

/-- Whether a gap is about the body of an operation. -/
def Gap.isAboutBody : Gap → Bool
  | unresolvedParameter _ => false
  | unresolvedRequestBody _ => true
  | unresolvedBodySchema _ => true
  | missingBodySchema => true
  | untypedHeader _ => false

/-- What was found out about an operation tells of its body: there is a schema for it, or a gap. -/
def TellsBody (found : Synthesis) : Prop :=
  (∃ schema, found.schema = some schema ∧ schema.body ≠ none) ∨
    ∃ gap ∈ found.gaps, gap.isAboutBody = true

variable {components : Components}

theorem isAboutBody_of_resolveParameters {entries : List (OrReference Parameter)} {gap : Gap}
    (h : gap ∈ (resolveParameters components entries).2) : gap.isAboutBody = false := by
  obtain ⟨text, -, -, rfl⟩ := exists_reference_of_mem_resolveParameters h
  rfl

theorem isAboutBody_of_headerGap? {header : Parameter} {gap : Gap}
    (h : headerGap? components header = some gap) : gap.isAboutBody = false := by
  unfold headerGap? at h
  split at h
  · cases h
  · cases h
    rfl

/-- A body that is required has a schema, or leaves a gap about it, and another one neither. -/
theorem bodySchema_cases (components : Components) (body : RequestBody) :
    body.required = false ∧ bodySchema components body = (none, none) ∨
      body.required = true ∧ ((∃ schema, bodySchema components body = (some schema, none)) ∨
        ∃ gap, bodySchema components body = (none, some gap) ∧ gap.isAboutBody = true) := by
  cases hrequired : body.required with
  | false => exact .inl ⟨rfl, by rw [bodySchema, hrequired]; rfl⟩
  | true =>
      refine .inr ⟨rfl, ?_⟩
      rw [bodySchema, hrequired]
      simp only [Bool.not_true, Bool.false_eq_true, if_false]
      split
      · exact .inr ⟨_, rfl, rfl⟩
      split
      · exact .inl ⟨_, rfl⟩
      split
      · exact .inl ⟨_, rfl⟩
      · exact .inr ⟨_, rfl, rfl⟩

/-- An entry for a body asks something of a request, or its reference cannot be resolved. -/
def AsksBody (components : Components) : OrReference RequestBody → Prop
  | .item body => body.required = true
  | .reference text => ∀ body, components.requestBody? text = some body → body.required = true

theorem resolveBody_cases (components : Components) (entry : OrReference RequestBody) :
    ¬ AsksBody components entry ∧ resolveBody components (some entry) = (none, none) ∨
      AsksBody components entry ∧ ((∃ schema, resolveBody components (some entry) = (some schema, none)) ∨
        ∃ gap, resolveBody components (some entry) = (none, some gap) ∧ gap.isAboutBody = true) := by
  cases entry with
  | item body =>
      simpa [AsksBody, resolveBody] using bodySchema_cases components body
  | reference text =>
      cases hfound : components.requestBody? text with
      | none =>
          refine .inr ⟨fun body hbody => ?_, .inr ⟨.unresolvedRequestBody text, ?_, rfl⟩⟩
          · simp [hfound] at hbody
          · rw [resolveBody, hfound]
      | some body =>
          simpa [AsksBody, resolveBody, hfound] using bodySchema_cases components body

/-- The schema of a body is the one that its entry has. -/
theorem exists_body_synthesize (components : Components) (operation : Operation) :
    (∃ schema, (synthesize components operation).schema = some schema ∧ schema.body ≠ none) ↔
      (resolveBody components operation.requestBody).1 ≠ none := by
  unfold synthesize
  dsimp only
  cases hbody : (resolveBody components operation.requestBody).1 with
  | none =>
      simp only [ne_eq, not_true_eq_false, iff_false, not_exists, not_and, not_not]
      intro schema hschema
      split at hschema
      · cases hschema
        rfl
      · cases hschema
  | some body =>
      refine ⟨fun _ => by simp, fun _ => ⟨_, if_pos (by simp), by simp⟩⟩

/-- The gaps about a body are those that its entry leaves. -/
theorem exists_gap_synthesize (components : Components) (operation : Operation) :
    (∃ gap ∈ (synthesize components operation).gaps, gap.isAboutBody = true) ↔
      ∃ gap, (resolveBody components operation.requestBody).2 = some gap ∧
        gap.isAboutBody = true := by
  unfold synthesize
  simp only [List.mem_append, List.mem_filterMap, Option.mem_toList]
  constructor
  · rintro ⟨gap, (hparameter | ⟨header, -, hheader⟩) | hbody, habout⟩
    · rw [isAboutBody_of_resolveParameters hparameter] at habout
      cases habout
    · rw [isAboutBody_of_headerGap? hheader] at habout
      cases habout
    · exact ⟨gap, hbody, habout⟩
  · rintro ⟨gap, hbody, habout⟩
    exact ⟨gap, .inr hbody, habout⟩

/-- What is found out about an operation tells of its body exactly when something is asked. -/
theorem tellsBody_synthesize {operation : Operation} {entry : OrReference RequestBody}
    (hentry : operation.requestBody = some entry) :
    TellsBody (synthesize components operation) ↔ AsksBody components entry := by
  rw [TellsBody, exists_body_synthesize, exists_gap_synthesize, hentry]
  rcases resolveBody_cases components entry with
    ⟨hnot, hnone⟩ | ⟨hasks, ⟨schema, hschema⟩ | ⟨gap, hgap, habout⟩⟩
  · simp [hnone, hnot]
  · simp [hschema, hasks]
  · simp [hgap, habout, hasks]

end Synthesis

/-! ## Bodies in both models -/

namespace OpenApi

/-- A body in place of which a reference may stand is an object. -/
theorem exists_members_of_body {tree : Json} (h : Fits (.orReference (.part .requestBody)) tree) :
    ∃ members, tree = .obj members := by
  cases hreference : tree.reference? with
  | none =>
      obtain ⟨members, rfl, -⟩ := fitsGroups_of_record rfl (fits_orReference h hreference)
      exact ⟨members, rfl⟩
  | some text =>
      cases tree with
      | obj members => exact ⟨members, rfl⟩
      | _ => cases hreference

/-- A body is required in both models or in none. -/
theorem required_of_read {tree : Json} {body : RequestBody} (hdistinct : tree.Distinct)
    (hfits : Fits (.orReference (.part .requestBody)) tree)
    (hread : RequestBody.read tree = .ok body) :
    body.required = (DescribedBody.ofTree tree).required := by
  obtain ⟨members, rfl⟩ := exists_members_of_body hfits
  have hfrom := Document.fills_required.readFrom hdistinct hread
  rw [DescribedBody.ofTree]
  cases hfound : (Json.obj members).get? "required" with
  | none =>
      rw [hfound] at hfrom
      exact hfrom
  | some found =>
      rw [hfound] at hfrom
      cases found with
      | bool required => exact (Except.ok.inj hfrom).symm
      | _ => cases hfrom

/-- Where a part asks for a shape under a key, what stands there has it, unless it is null. -/
theorem fits_of_presentAt {part : Part} {title : String} {groups : List Group}
    (hlayout : layout part = .record title groups) {tree child : Json} (h : Fits (.part part) tree)
    {key : String} {presence : Presence} {shape : Shape} (hasks : Asks part key presence shape)
    (hchild : presentAt tree key = some child) : Fits shape child := by
  obtain ⟨members, rfl, hgroups⟩ := fitsGroups_of_record hlayout h
  obtain ⟨hfound, hne⟩ := presentAt_eq_some.mp hchild
  rcases hgroups.under hasks (mem_of_lookup hfound) with ⟨-, hnull⟩ | hfits
  · exact absurd hnull hne
  · exact hfits

/-- The body of an operation is read from what the description has for it. -/
theorem exists_body_of_read {tree : Json} {operation : Operation} (hdistinct : tree.Distinct)
    (hfits : Fits (.part .operation) tree) (hread : Operation.read tree = .ok operation)
    {entry : OrReference DescribedBody}
    (hentry : (DescribedOperation.ofTree tree).requestBody = some entry) :
    ∃ child found, child.Distinct ∧ Fits (.orReference (.part .requestBody)) child ∧
      entry = viewReference DescribedBody.ofTree child ∧
        operation.requestBody = some found ∧ OrReference.read RequestBody.read child = .ok found := by
  obtain ⟨child, hchild, rfl⟩ := Option.map_eq_some_iff.mp hentry
  obtain ⟨hfound, hne⟩ := presentAt_eq_some.mp hchild
  have hasks : Asks .operation "requestBody" .optional (.orReference (.part .requestBody)) :=
    ⟨_, List.mem_cons_self, rfl⟩
  have hoptional := Document.fills_requestBody.read_of_get? hdistinct hread hfound
  rw [Document.readOptional.eq_def] at hoptional
  split at hoptional
  · exact absurd rfl hne
  · obtain ⟨found, hread, hsome⟩ := map_eq_ok hoptional
    exact ⟨child, found, hdistinct.get? hfound, fits_of_presentAt rfl hfits hasks hchild, rfl,
      hsome.symm, hread⟩

section

variable {root : Json} {description : Description} {document : Document}

theorem fits_of_describe (h : describe root = .ok description) : Fits (.part .openApi) root := by
  obtain ⟨_, hcheck, -⟩ := map_eq_ok h
  exact ⟨false, hcheck⟩

/-- A path that is seen has the shape of a path item. -/
theorem fits_pathItem (hdescribe : describe root = .ok description) {member : String × Json}
    (hmember : member ∈ membersAt root "paths") (hseen : IsSeen member) :
    Fits (.part .pathItem) member.2 := by
  obtain ⟨entries, hentries, hmem⟩ := exists_entries_of_mem hmember
  have hasks : Asks .openApi "paths" .required (.part .paths) := ⟨_, List.mem_cons_self, rfl⟩
  have hfits := fits_of_presentAt rfl (fits_of_describe hdescribe) hasks
    (presentAt_eq_some.mpr ⟨hentries, by simp⟩)
  obtain ⟨others, hothers, hgroups⟩ := fitsGroups_of_record rfl hfits
  obtain rfl := Json.obj.inj hothers
  exact fits_of_isSeen hgroups hmem hseen

/-! ## Shared bodies -/

/-- The members of the table of shared bodies. -/
def sharedBodies (root : Json) : List (String × Json) :=
  membersAt ((root.get? "components").getD .null) "requestBodies"

/-- The components of a document are read from the object under the key for them, and there are none where the key is
missing. -/
theorem components_of_read (hdistinct : root.Distinct) (hdescribe : describe root = .ok description)
    (hread : Document.read root = .ok document) :
    (root.get? "components" = none ∧ document.components = {}) ∨
      ∃ parts, root.get? "components" = some (.obj parts) ∧ FitsGroups .components parts ∧
        Components.read (.obj parts) = .ok document.components := by
  obtain ⟨⟨members, rfl⟩, -⟩ := exists_members_of_describe hdescribe
  have hfrom := Document.fills_components.readFrom hdistinct hread
  cases hfound : (Json.obj members).get? "components" with
  | none =>
      rw [hfound] at hfrom
      exact .inl ⟨rfl, hfrom⟩
  | some components =>
      rw [hfound] at hfrom
      have hne : components ≠ .null := by
        rintro rfl
        cases hfrom
      have hasks : Asks .openApi "components" .optional (.part .components) :=
        ⟨_, List.mem_cons_self, rfl⟩
      have hfits := fits_of_presentAt rfl (fits_of_describe hdescribe) hasks
        (presentAt_eq_some.mpr ⟨hfound, hne⟩)
      obtain ⟨parts, rfl, hgroups⟩ := fitsGroups_of_record rfl hfits
      exact .inr ⟨parts, rfl, hgroups, hfrom⟩

/-- The shared bodies of a document are read from the members of the table, one by one, and these have
the shape of a body or are references. -/
theorem sharedBodies_of_read (hdistinct : root.Distinct) (hdescribe : describe root = .ok description)
    (hread : Document.read root = .ok document) :
    List.Forall₂ (fun member entry => member.1 = entry.1 ∧ member.2.Distinct ∧
        Fits (.orReference (.part .requestBody)) member.2 ∧ RequestBody.read member.2 = .ok entry.2)
      (sharedBodies root) document.components.requestBodies := by
  rw [sharedBodies]
  rcases components_of_read hdistinct hdescribe hread with
    ⟨hnone, hempty⟩ | ⟨parts, hfound, hgroups, hcomponents⟩
  · rw [hnone, hempty]
    exact .nil
  · rw [hfound]
    have hdistinctParts := hdistinct.get? hfound
    have hbodies : Asks .components "requestBodies" .defaulted
        (.table (.orReference (.part .requestBody))) := ⟨_, List.mem_cons_self, rfl⟩
    have hall := forall₂_membersAt Document.fills_requestBodies hdistinctParts hcomponents rfl
    have hshapes : ∀ member ∈ membersAt (.obj parts) "requestBodies", member.2.Distinct ∧
        Fits (.orReference (.part .requestBody)) member.2 := by
      intro member hmember
      obtain ⟨entries, hentries, hmem⟩ := exists_entries_of_mem hmember
      obtain ⟨others, hothers, hfit⟩ :=
        fits_table (hgroups.under_of_ne hbodies (mem_of_lookup hentries) (by decide))
      obtain rfl := Json.obj.inj hothers
      exact ⟨distinct_of_mem_membersAt hdistinctParts hmember, hfit member hmem⟩
    exact ((List.forall₂_and_left _ _).mpr ⟨hshapes, hall⟩).imp
      fun member entry h => ⟨h.2.1, h.1.1, h.1.2, h.2.2⟩

/-- The tree of the shared body that a reference names. -/
def sharedBody? (root : Json) (reference : String) : Option Json :=
  (Text.afterStart? "#/components/requestBodies/" reference).bind
    fun name => (sharedBodies root).lookup name

/-- The shared body of a description that a reference names. -/
def Description.requestBody? (description : Description) (reference : String) :
    Option (OrReference DescribedBody) :=
  (Text.afterStart? "#/components/requestBodies/" reference).bind
    fun name => description.requestBodies.lookup name

theorem requestBody?_ofTree (root : Json) (reference : String) :
    (Description.ofTree root).requestBody? reference =
      (sharedBody? root reference).map (viewReference DescribedBody.ofTree) := by
  rw [Description.requestBody?, sharedBody?]
  cases Text.afterStart? "#/components/requestBodies/" reference with
  | none => rfl
  | some name => exact lookup_map _ name (sharedBodies root)

/-- What a reference names in a document asks for a body exactly when its tree does. -/
theorem asksBody_reference (hdistinct : root.Distinct) (hdescribe : describe root = .ok description)
    (hread : Document.read root = .ok document) (reference : String) :
    Synthesis.AsksBody document.components (.reference reference) ↔
      ∀ child, sharedBody? root reference = some child →
        (DescribedBody.ofTree child).required = true := by
  rw [Synthesis.AsksBody, sharedBody?, Components.requestBody?]
  cases Text.afterStart? "#/components/requestBodies/" reference with
  | none => simp
  | some name =>
      have hrelated := Document.lookup_rel_of_forall₂ (R := fun _ child body => child.Distinct ∧
        Fits (.orReference (.part .requestBody)) child ∧ RequestBody.read child = .ok body)
        (sharedBodies_of_read hdistinct hdescribe hread) name
      simp only [Option.bind_some]
      generalize (sharedBodies root).lookup name = child at hrelated
      generalize document.components.requestBodies.lookup name = body at hrelated
      cases hrelated with
      | none => simp
      | some hbody =>
          obtain ⟨hchild, hfits, hbodyRead⟩ := hbody
          simp [required_of_read hchild hfits hbodyRead]

/-! ## Bodies that are not told of -/

/-- A body that is not required, or a reference to a shared body that is not. -/
def Excused (description : Description) : OrReference DescribedBody → Prop
  | .item body => body.required = false
  | .reference text => ∃ body, description.requestBody? text = some (.item body) ∧
    body.required = false

/-- A reference to a shared entry that is itself a reference, without truth under `required` beside it. -/
def Swallowed (root : Json) : OrReference DescribedBody → Prop
  | .item _ => False
  | .reference text => ∃ child, sharedBody? root text = some child ∧ child.reference? ≠ none ∧
    child.get? "required" ≠ some (.bool true)

theorem required_ofTree {child : Json} :
    (DescribedBody.ofTree child).required = true ↔ child.get? "required" = some (.bool true) := by
  rw [DescribedBody.ofTree]
  split
  · rename_i required hrequired
    simp [hrequired]
  · rename_i hnot
    simp only [Bool.false_eq_true, false_iff]
    exact hnot true

/-- A reference asks for a body unless it is excused or swallowed. -/
theorem asks_reference_iff (root : Json) (text : String) :
    (∀ child, sharedBody? root text = some child → (DescribedBody.ofTree child).required = true) ↔
      ¬ Excused (Description.ofTree root) (.reference text) ∧ ¬ Swallowed root (.reference text) := by
  rw [Excused, Swallowed, requestBody?_ofTree]
  cases sharedBody? root text with
  | none => simp
  | some child =>
      cases hreference : child.reference? with
      | none => simp [viewReference, hreference]
      | some other => simp [viewReference, hreference, required_ofTree]

theorem nodup_keys_membersAt {tree : Json} (hdistinct : tree.Distinct) (key : String) :
    ((membersAt tree key).map (·.1)).Nodup := by
  rw [membersAt]
  cases hfound : tree.get? key with
  | none => simp [Json.members]
  | some found =>
      have hfoundDistinct := hdistinct.get? hfound
      cases found with
      | obj entries => exact (Json.distinct_obj.mp hfoundDistinct).1
      | _ => simp [Json.members]

/-- A path of a description that is no reference is one that is seen. -/
theorem exists_isSeen_of_mem_paths {template : String} {path : DescribedPath}
    (h : (template, .item path) ∈ (Description.ofTree root).paths) :
    ∃ tree, (template, tree) ∈ membersAt root "paths" ∧ IsSeen (template, tree) ∧
      path = DescribedPath.ofTree tree := by
  obtain ⟨⟨name, tree⟩, hmember, hsame⟩ := List.mem_map.mp h
  obtain ⟨hmem, hhas⟩ := List.mem_filter.mp hmember
  obtain ⟨rfl, hview⟩ := Prod.mk.inj hsame
  rw [viewReference] at hview
  split at hview
  · cases hview
  · rename_i hnone
    cases hview
    exact ⟨tree, hmem, ⟨(path_has_iff name).mp hhas, hnone⟩, rfl⟩

/-- Both models have an operation on one path, and the description gives it a body. -/
def GivesBody (document : Document) (description : Description) (operation : Operation)
    (entry : OrReference DescribedBody) : Prop :=
  ∃ template item path method described, (template, item) ∈ document.paths ∧
    (template, .item path) ∈ description.paths ∧ (method, operation) ∈ item.operations ∧
      (method, described) ∈ path.operations ∧ described.requestBody = some entry

/-- An operation that both models have is read from one tree, which has the shape of an operation. -/
theorem exists_operation_of_givesBody (hdistinct : root.Distinct)
    (hdescribe : describe root = .ok description) (hread : Document.read root = .ok document)
    {operation : Operation} {entry : OrReference DescribedBody}
    (h : GivesBody document description operation entry) :
    ∃ tree, tree.Distinct ∧ Fits (.part .operation) tree ∧ Operation.read tree = .ok operation ∧
      (DescribedOperation.ofTree tree).requestBody = some entry := by
  obtain ⟨template, item, path, method, described, hitem, hpath, hoperation, hdescribed, hentry⟩ := h
  obtain ⟨⟨name, tree⟩, hmember, hname, hitemRead⟩ :=
    exists_of_forall₂ (paths_of_read hdistinct hdescribe hread).flip hitem
  dsimp only at hname hitemRead
  subst hname
  obtain ⟨-, rfl⟩ := exists_members_of_describe hdescribe
  obtain ⟨other, hother, hseen, rfl⟩ := exists_isSeen_of_mem_paths hpath
  -- both models have the path from the only member with its template
  have hkeys := nodup_keys_membersAt hdistinct "paths"
  obtain rfl : tree = other :=
    Option.some.inj ((lookup_of_mem hkeys hmember).symm.trans (lookup_of_mem hkeys hother))
  have htree : tree.Distinct := distinct_of_mem_membersAt hdistinct hmember
  obtain ⟨child, hchild, hchildRead⟩ := Document.get?_of_mem_operations htree hitemRead hoperation
  obtain ⟨found, hfound, rfl⟩ := exists_of_mem_described hdescribed
  obtain rfl : child = found :=
    Option.some.inj (hchild.symm.trans (presentAt_eq_some.mp hfound).1)
  have hasks : Asks .pathItem method.name .optional (.part .operation) := by
    cases method <;> exact ⟨_, List.mem_cons_self, rfl⟩
  exact ⟨child, htree.get? hchild,
    fits_of_presentAt rfl (fits_pathItem hdescribe hmember hseen) hasks hfound, hchildRead, hentry⟩

/-- What is found out about an operation that both models have a body for tells of the body, unless it
need not be told of, or is a reference to a shared entry that is itself a reference. -/
theorem tellsBody_iff (hdistinct : root.Distinct) (hdescribe : describe root = .ok description)
    (hread : Document.read root = .ok document) {operation : Operation}
    {entry : OrReference DescribedBody} (hgives : GivesBody document description operation entry) :
    Synthesis.TellsBody (Synthesis.synthesize document.components operation) ↔
      ¬ Excused description entry ∧ ¬ Swallowed root entry := by
  obtain ⟨tree, htree, hfits, htreeRead, hentry⟩ :=
    exists_operation_of_givesBody hdistinct hdescribe hread hgives
  obtain ⟨child, found, hchild, hchildFits, rfl, hfound, hfoundRead⟩ :=
    exists_body_of_read htree hfits htreeRead hentry
  rw [Synthesis.tellsBody_synthesize hfound]
  rw [OrReference.read] at hfoundRead
  -- a body that stands here is told of unless it need not be
  cases hreference : child.reference? with
  | some text =>
      have hview : viewReference DescribedBody.ofTree child = .reference text := by
        rw [viewReference, hreference]
      rw [hreference] at hfoundRead
      cases hfoundRead
      rw [hview, asksBody_reference hdistinct hdescribe hread, asks_reference_iff,
        ← (exists_members_of_describe hdescribe).2]
  | none =>
      have hview : viewReference DescribedBody.ofTree child = .item (.ofTree child) := by
        rw [viewReference, hreference]
      rw [hreference] at hfoundRead
      obtain ⟨body, hbody, rfl⟩ := map_eq_ok hfoundRead
      have hrequired := required_of_read hchild hchildFits hbody
      simp [hview, Synthesis.AsksBody, Excused, Swallowed, hrequired]

end

/-! ## A body behind two references

Two operations have one body by reference, which is required.  The first of them refers to an entry that
refers to the body, the second one to the body itself. -/

def relayBody : Json :=
  .obj [("required", .bool true),
    ("content", .obj [("application/json", .obj [("schema", .obj [("type", .str "object")])])])]

/-- A path with an operation that has its body by reference. -/
def relayItem (reference : String) : Json :=
  .obj [("post", .obj [("requestBody", .obj [("$ref", .str reference)]), ("responses", .obj [])])]

def relayJson : Json :=
  .obj [("openapi", .str "3.0.0"), ("info", .obj [("title", .str ""), ("version", .str "")]),
    ("paths", .obj [("/a", relayItem "#/components/requestBodies/A"),
      ("/b", relayItem "#/components/requestBodies/B")]),
    ("components", .obj [("requestBodies", .obj [
      ("A", .obj [("$ref", .str "#/components/requestBodies/B")]), ("B", relayBody)])])]

def relayOperation (reference : String) : Operation where
  requestBody := some (.reference reference)

def relayComponents : Components where
  requestBodies := [("A", {}), ("B", { required := true
                                       content := [("application/json",
                                        { schema := some (.obj [("type", .str "object")]) })] })]

/-- The same path in the document. -/
def relayRoute (reference : String) : PathItem where
  operations := [(.post, relayOperation reference)]

def relayDocument : Document where
  title := ""
  version := ""
  paths := [("/a", relayRoute "#/components/requestBodies/A"),
    ("/b", relayRoute "#/components/requestBodies/B")]
  components := relayComponents

theorem distinct_relayJson : relayJson.Distinct := by
  simp [relayJson, relayItem, relayBody]

theorem describe_relayJson : describe relayJson = .ok (Description.ofTree relayJson) := by
  have hcheck : checkDescription relayJson = .ok () := by cbv
  exact describe_of_check hcheck

theorem read_relayJson : Document.read relayJson = .ok relayDocument := rfl

theorem paths_ofTree_relayJson : (Description.ofTree relayJson).paths =
    [("/a", .item (.ofTree (relayItem "#/components/requestBodies/A"))),
      ("/b", .item (.ofTree (relayItem "#/components/requestBodies/B")))] := rfl

/-- Both models have the operation of a path with a reference. -/
theorem givesBody_relay {template reference : String}
    (hpath : (template, relayRoute reference) ∈ relayDocument.paths)
    (hdescribed : (template, .item (.ofTree (relayItem reference))) ∈
      (Description.ofTree relayJson).paths) :
    GivesBody relayDocument (Description.ofTree relayJson) (relayOperation reference)
      (.reference reference) :=
  ⟨template, _, _, .post, _, hpath, hdescribed, List.mem_cons_self, List.mem_cons_self, rfl⟩

/-- The reference to the body itself is neither excused nor swallowed. -/
theorem asked_relay :
    ¬ Excused (Description.ofTree relayJson) (.reference "#/components/requestBodies/B") ∧
      ¬ Swallowed relayJson (.reference "#/components/requestBodies/B") := by
  have hshared : sharedBody? relayJson "#/components/requestBodies/B" = some relayBody := rfl
  rw [← asks_reference_iff, hshared]
  rintro child hchild
  obtain rfl := Option.some.inj hchild
  rfl

/-- The second operation tells of its body. -/
theorem tellsBody_iff_relay :
    relayJson.Distinct ∧ describe relayJson = .ok (Description.ofTree relayJson) ∧
      Document.read relayJson = .ok relayDocument ∧
        GivesBody relayDocument (Description.ofTree relayJson)
          (relayOperation "#/components/requestBodies/B") (.reference "#/components/requestBodies/B") ∧
        Synthesis.TellsBody (Synthesis.synthesize relayComponents
          (relayOperation "#/components/requestBodies/B")) := by
  have hgives := givesBody_relay (List.mem_cons_of_mem _ List.mem_cons_self)
    (paths_ofTree_relayJson ▸ List.mem_cons_of_mem _ List.mem_cons_self)
  exact ⟨distinct_relayJson, describe_relayJson, read_relayJson, hgives,
    (tellsBody_iff distinct_relayJson describe_relayJson read_relayJson hgives).mpr asked_relay⟩

/-- The first operation does not, though nothing excuses it. -/
theorem not_tellsBody_relay :
    relayJson.Distinct ∧ describe relayJson = .ok (Description.ofTree relayJson) ∧
      Document.read relayJson = .ok relayDocument ∧
        GivesBody relayDocument (Description.ofTree relayJson)
          (relayOperation "#/components/requestBodies/A") (.reference "#/components/requestBodies/A") ∧
        ¬ Excused (Description.ofTree relayJson) (.reference "#/components/requestBodies/A") ∧
        ¬ Synthesis.TellsBody (Synthesis.synthesize relayComponents
          (relayOperation "#/components/requestBodies/A")) := by
  have hgives := givesBody_relay List.mem_cons_self (paths_ofTree_relayJson ▸ List.mem_cons_self)
  refine ⟨distinct_relayJson, describe_relayJson, read_relayJson, hgives, ?_, ?_⟩
  · have hshared : (Description.ofTree relayJson).requestBody? "#/components/requestBodies/A" =
        some (.reference "#/components/requestBodies/B") := rfl
    rintro ⟨body, hbody, -⟩
    cases hshared.symm.trans hbody
  · have hentry : relayComponents.requestBody? "#/components/requestBodies/A" = some {} := rfl
    rw [Synthesis.tellsBody_synthesize rfl]
    intro hasks
    cases hasks {} hentry

end OpenApi

end RouteScaffold
