import RouteScaffold.OpenApi.Strict
import RouteScaffold.Proofs.Document.Reader

/-!
# References that a document mentions

A document that is read from a tree mentions only references that stand in the tree
(`quotes_read`): those of its operations' parameters and bodies, and those of the schemas of bodies,
also of shared ones.  Every reading is shown to make up no reference, the reading of a record from
those of its fields.  It does not matter here whether records are read from objects or from arrays,
nor whether keys are distinct.
-/

namespace RouteScaffold

/-! ## References of a tree -/

namespace OpenApi

theorem itemReferences_eq (items : List Json) : itemReferences items = items.flatMap references := by
  induction items with
  | nil => rfl
  | cons item rest ih => rw [itemReferences, ih, List.flatMap_cons]

theorem memberReferences_eq (members : List (String × Json)) :
    memberReferences members = (members.map (·.2)).flatMap references := by
  induction members with
  | nil => rfl
  | cons member rest ih => rw [memberReferences, ih, List.map_cons, List.flatMap_cons]

theorem references_subset {tree child : Json} (h : child ∈ tree.children) :
    references child ⊆ references tree := by
  intro text htext
  have hmem : text ∈ tree.children.flatMap references := List.mem_flatMap.mpr ⟨child, h, htext⟩
  cases tree with
  | arr items =>
      rw [references, itemReferences_eq]
      exact hmem
  | obj members =>
      rw [references, memberReferences_eq]
      exact List.mem_append_right _ hmem
  | _ => simp [Json.children] at h

theorem mem_references_of_reference? {tree : Json} {text : String}
    (h : tree.reference? = some text) : text ∈ references tree := by
  cases tree with
  | obj members =>
      rw [references, h]
      exact List.mem_append_left _ List.mem_cons_self
  | _ => simp [Json.reference?, Json.getText?, Json.get?, Json.members] at h

end OpenApi

namespace Document

open Json (Mismatch)
open OpenApi (OrReference references references_subset mem_references_of_reference?)

variable {α σ : Type}

/-! ## What is mentioned -/

/-- What an entry mentions: a reference itself, or what the thing in its place does. -/
def mentionsOf (mentions : α → List String) : OrReference α → List String
  | .reference text => [text]
  | .item value => mentions value

/-- The reference that is the schema of a media type. -/
def MediaType.mentions (media : MediaType) : List String :=
  media.schema.toList.flatMap fun schema => schema.reference?.toList

/-- The references that are schemas of a body. -/
def RequestBody.mentions (body : RequestBody) : List String :=
  body.content.flatMap fun entry => entry.2.mentions

/-- The references of a list of parameters. -/
def parameterMentions (entries : List (OrReference Parameter)) : List String :=
  entries.flatMap (mentionsOf fun _ => [])

/-- The references of an operation. -/
def Operation.mentions (operation : Operation) : List String :=
  operation.parameters.toList.flatMap parameterMentions ++
    operation.requestBody.toList.flatMap (mentionsOf RequestBody.mentions)

/-- The references of the operations of a path. -/
def PathItem.mentions (item : PathItem) : List String :=
  item.operations.flatMap fun entry => entry.2.mentions

/-- The references of shared bodies. -/
def Components.mentions (components : Components) : List String :=
  components.requestBodies.flatMap fun entry => entry.2.mentions

/-- The references of a document. -/
def mentions (document : Document) : List String :=
  document.paths.flatMap (fun entry => entry.2.mentions) ++ document.components.mentions

/-! ## Readings that make up no reference -/

/-- What is read from a tree mentions only references of the tree. -/
def Quotes (read : Json → Except Mismatch α) (mentions : α → List String) : Prop :=
  ∀ tree value, read tree = .ok value → mentions value ⊆ references tree

section

variable {read : Json → Except Mismatch α} {f : α → List String}

theorem quotes_readOptional (h : Quotes read f) :
    Quotes (readOptional read) fun found => found.toList.flatMap f := by
  intro tree found hfound
  cases tree with
  | null =>
      cases hfound
      simp
  | _ =>
      obtain ⟨value, hvalue, rfl⟩ := map_eq_ok hfound
      simpa using h _ _ hvalue

theorem quotes_readTable (h : Quotes read f) :
    Quotes (readTable read) fun table => table.flatMap fun entry => f entry.2 := by
  intro tree table htable text htext
  obtain ⟨members, rfl, hentries⟩ := forall₂_of_readTable htable
  obtain ⟨entry, hentry, htext⟩ := List.mem_flatMap.mp htext
  obtain ⟨member, hmember, -, hread⟩ := exists_of_forall₂ hentries.flip hentry
  exact references_subset (List.mem_map_of_mem hmember) (h _ _ hread htext)

theorem quotes_orReference (h : Quotes read f) : Quotes (OrReference.read read) (mentionsOf f) := by
  intro tree entry hentry
  unfold OrReference.read at hentry
  split at hentry
  · rename_i text htext
    cases hentry
    intro other hother
    rw [mentionsOf, List.mem_singleton] at hother
    exact hother ▸ mem_references_of_reference? htext
  · obtain ⟨value, hvalue, rfl⟩ := map_eq_ok hentry
    exact h _ _ hvalue

end

theorem quotes_readParameters : Quotes readParameters parameterMentions := by
  intro tree entries hentries text htext
  obtain ⟨items, rfl, hall⟩ := forall₂_of_readParameters hentries
  obtain ⟨entry, hentry, htext⟩ := List.mem_flatMap.mp htext
  obtain ⟨item, hitem, hread⟩ := exists_of_forall₂ hall.flip hentry
  have hparameter : Quotes Parameter.read fun _ => [] := fun _ _ _ => List.nil_subset _
  exact references_subset hitem (quotes_orReference hparameter _ _ hread htext)

/-! ## Records that make up no reference -/

namespace Field

/-- A field adds only references of what it is filled from. -/
def Quotes (field : Field σ) (mentions : σ → List String) : Prop :=
  ∀ draft tree next, field.fill draft tree = .ok next →
    mentions next ⊆ mentions draft ++ references tree

variable {key : String} {absence : Absence} {mentions : σ → List String}

theorem quotes_of_keeps {field : Field σ} (h : field.Keeps mentions) : field.Quotes mentions := by
  intro draft tree next hnext
  rw [h draft tree next hnext]
  exact List.subset_append_left _ _

theorem quotes_of_set {read : Json → Except Mismatch α} {f : α → List String} {set : σ → α → σ}
    (hread : Document.Quotes read f)
    (hset : ∀ draft value, mentions (set draft value) ⊆ mentions draft ++ f value) :
    Quotes ⟨key, absence, fun draft tree => return set draft (← read tree)⟩ mentions := by
  intro draft tree next hnext
  obtain ⟨value, hvalue, hnext⟩ := bind_eq_ok hnext
  cases hnext
  refine List.Subset.trans (hset draft value)
    (List.append_subset.mpr ⟨List.subset_append_left _ _, ?_⟩)
  exact List.subset_append_of_subset_right _ (hread tree value hvalue)

end Field

theorem quotes_fillRecord {record : String} {fields : List (Field σ)} {draft : σ}
    {mentions : σ → List String} (hfields : ∀ field ∈ fields, field.Quotes mentions)
    (hdraft : mentions draft = []) : Quotes (Field.fillRecord record fields draft) mentions := by
  intro tree filled hfilled
  refine Field.fillRecord_invariant (P := fun draft => mentions draft ⊆ references tree) ?_ ?_ hfilled
  · intro field hfield child hchild draft next hdraft hnext
    refine List.Subset.trans (hfields field hfield draft child next hnext) ?_
    exact List.append_subset.mpr ⟨hdraft, references_subset hchild⟩
  · rw [hdraft]
    exact List.nil_subset _

/-! ## The parts of a document -/

theorem quotes_mediaType : Quotes MediaType.read MediaType.mentions := by
  have hschema : Quotes Except.ok fun schema => schema.reference?.toList := by
    intro tree schema hsame
    cases hsame
    intro text htext
    exact mem_references_of_reference? (Option.mem_toList.mp htext)
  refine quotes_fillRecord (fun field hfield => ?_) rfl
  simp only [mediaTypeFields, List.mem_cons, List.not_mem_nil, or_false] at hfield
  subst hfield
  exact Field.quotes_of_set (quotes_readOptional hschema) fun draft value => by
    simp [MediaType.mentions]

theorem quotes_requestBody : Quotes RequestBody.read RequestBody.mentions := by
  refine quotes_fillRecord (fun field hfield => ?_) rfl
  simp only [requestBodyFields, List.mem_cons, List.not_mem_nil, or_false] at hfield
  rcases hfield with rfl | rfl
  · exact Field.quotes_of_keeps (Field.keeps_of_set fun _ _ => rfl)
  · exact Field.quotes_of_set (quotes_readTable quotes_mediaType) fun draft value => by
      simp [RequestBody.mentions]

theorem quotes_operation : Quotes Operation.read Operation.mentions := by
  refine quotes_fillRecord (fun field hfield => ?_) rfl
  simp only [operationFields, List.mem_cons, List.not_mem_nil, or_false] at hfield
  rcases hfield with rfl | rfl
  · exact Field.quotes_of_set (quotes_readOptional quotes_readParameters) fun draft value => by
      simp [Operation.mentions]
  · exact Field.quotes_of_set (quotes_readOptional (quotes_orReference quotes_requestBody))
      fun draft value => by simp [Operation.mentions]

theorem quotes_pathItem : Quotes PathItem.read PathItem.mentions := by
  intro tree item hitem
  obtain ⟨members, rfl, hfold⟩ := fold_of_read hitem
  refine foldlM_invariant (P := fun (draft : PathItem) => draft.mentions ⊆ references (.obj members))
    ?_ (List.nil_subset _) hfold
  intro member hmember draft next hdraft hnext text htext
  obtain ⟨entry, hentry, htext⟩ := List.mem_flatMap.mp htext
  have hold : entry ∈ draft.operations → text ∈ references (.obj members) := fun hentry =>
    hdraft (List.mem_flatMap.mpr ⟨entry, hentry, htext⟩)
  rcases extend_eq_ok hnext with ⟨-, -, hkept⟩ | ⟨-, -, hkept | ⟨method, operation, -, hread, hput⟩⟩
  · exact hold (hkept ▸ hentry)
  · exact hold (hkept ▸ hentry)
  · rw [hput] at hentry
    rcases mem_putMember hentry with rfl | hentry
    · exact references_subset (List.mem_map_of_mem hmember) (quotes_operation _ _ hread htext)
    · exact hold hentry

theorem quotes_components : Quotes Components.read Components.mentions := by
  refine quotes_fillRecord (fun field hfield => ?_) rfl
  simp only [componentsFields, List.mem_cons, List.not_mem_nil, or_false] at hfield
  rcases hfield with rfl | rfl | rfl
  · exact Field.quotes_of_keeps (Field.keeps_of_set fun _ _ => rfl)
  · exact Field.quotes_of_keeps (Field.keeps_of_set fun _ _ => rfl)
  · exact Field.quotes_of_set (quotes_readTable quotes_requestBody) fun draft value => by
      simp [Components.mentions]

/-- A document mentions only references of the tree it is read from. -/
theorem quotes_read : Quotes Document.read mentions := by
  refine quotes_fillRecord (fun field hfield => ?_) rfl
  simp only [documentFields, List.mem_cons, List.not_mem_nil, or_false] at hfield
  rcases hfield with rfl | rfl | rfl
  · exact Field.quotes_of_keeps (Field.keeps_of_set fun _ _ => rfl)
  · exact Field.quotes_of_set (quotes_readTable quotes_pathItem) fun draft value => by
      simp [mentions]
  · exact Field.quotes_of_set quotes_components fun draft value => by simp [mentions]

end Document

end RouteScaffold
