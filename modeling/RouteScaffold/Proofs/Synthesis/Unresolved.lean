import RouteScaffold.Proofs.Document.Mention
import RouteScaffold.Proofs.Synthesis.Parameters
import RouteScaffold.Proofs.Text.Pieces

/-!
# Gaps about references

A gap about a reference is justified: the operation mentions the reference, or a shared body does, and
the table of components it is looked up in has nothing under what follows the start that names the
table (`justified_synthesize`).
-/

namespace RouteScaffold

namespace Document

/-- The tables of components that references are looked up in. -/
inductive Table where
  | schemas
  | parameters
  | requestBodies
  deriving DecidableEq, Repr

namespace Table

/-- The key of a table among the components. -/
def key : Table → String
  | schemas => "schemas"
  | parameters => "parameters"
  | requestBodies => "requestBodies"

/-- What references into a table start with. -/
def start (table : Table) : String := "#/components/" ++ table.key ++ "/"

/-- The names that a table of some components has. -/
def names (components : Components) : Table → List String
  | schemas => components.schemas.map (·.1)
  | parameters => components.parameters.map (·.1)
  | requestBodies => components.requestBodies.map (·.1)

end Table

end Document

namespace Synthesis

open Document (Components Operation Parameter RequestBody Table mentionsOf parameterMentions)
open OpenApi (OrReference)

/-- The reference that a gap says not to resolve, and the table it was looked up in. -/
def Gap.unresolved? : Gap → Option (Table × String)
  | unresolvedParameter reference => some (.parameters, reference)
  | unresolvedRequestBody reference => some (.requestBodies, reference)
  | unresolvedBodySchema reference => some (.schemas, reference)
  | missingBodySchema => none
  | untypedHeader _ => none

/-- What a gap says not to resolve is mentioned, and is not in its table. -/
def Gap.Justified (gap : Gap) (components : Components) (mentioned : List String) : Prop :=
  ∀ table reference, gap.unresolved? = some (table, reference) →
    reference ∈ mentioned ∧ ∀ name, reference = table.start ++ name → name ∉ table.names components

theorem not_mem_of_lookup_eq_none {α : Type} {start reference : String} {table : List (String × α)}
    (h : ((Text.afterStart? start reference).bind fun name => table.lookup name) = none)
    (name : String) (hname : reference = start ++ name) : name ∉ table.map (·.1) := by
  subst hname
  rw [Text.afterStart?_append, Option.bind_some, List.lookup_eq_none_iff] at h
  intro hmem
  obtain ⟨entry, hentry, rfl⟩ := List.mem_map.mp hmem
  simpa using h entry hentry

variable {components : Components}

section

variable {gap : Gap} {mentioned more : List String}

theorem Gap.Justified.mono (h : gap.Justified components mentioned) (hmore : mentioned ⊆ more) :
    gap.Justified components more := by
  intro table reference hgap
  obtain ⟨hmem, hnone⟩ := h table reference hgap
  exact ⟨hmore hmem, hnone⟩

theorem justified_of_unresolved? {table : Table} {reference : String}
    (hgap : gap.unresolved? = some (table, reference)) (hmem : reference ∈ mentioned)
    (hnone : ∀ name, reference = table.start ++ name → name ∉ table.names components) :
    gap.Justified components mentioned := by
  intro other text hother
  rw [hgap] at hother
  cases hother
  exact ⟨hmem, hnone⟩

theorem justified_of_unresolved?_eq_none (h : gap.unresolved? = none) :
    gap.Justified components mentioned := by
  intro table reference hgap
  simp [h] at hgap

end

theorem justified_resolveParameters {entries : List (OrReference Parameter)} {gap : Gap}
    (h : gap ∈ (resolveParameters components entries).2) :
    gap.Justified components (parameterMentions entries) := by
  obtain ⟨text, hentry, hnone, rfl⟩ := exists_reference_of_mem_resolveParameters h
  refine justified_of_unresolved? rfl ?_ (not_mem_of_lookup_eq_none hnone)
  exact List.mem_flatMap.mpr ⟨_, hentry, List.mem_singleton.mpr rfl⟩

theorem mem_mentions_of_schema {body : RequestBody} {schema : Json} {reference : String}
    (hschema : (body.content.head?.bind fun content => content.2.schema) = some schema)
    (hreference : schemaReference? schema = some reference) : reference ∈ body.mentions := by
  obtain ⟨entry, hentry, hmedia⟩ := Option.bind_eq_some_iff.mp hschema
  have hmem : entry ∈ body.content := List.mem_of_head? hentry
  refine List.mem_flatMap.mpr ⟨entry, hmem, ?_⟩
  have hsame : schema.reference? = some reference := hreference
  simp [Document.MediaType.mentions, hmedia, hsame]

theorem justified_bodySchema {body : RequestBody} {gap : Gap}
    (h : (bodySchema components body).2 = some gap) : gap.Justified components body.mentions := by
  unfold bodySchema at h
  split at h
  · simp at h
  split at h
  · simp only [Option.some.injEq] at h
    subst h
    exact justified_of_unresolved?_eq_none rfl
  rename_i schema hschema
  split at h
  · simp at h
  rename_i reference hreference
  split at h
  · simp at h
  rename_i hnone
  simp only [Option.some.injEq] at h
  subst h
  exact justified_of_unresolved? rfl (mem_mentions_of_schema hschema hreference)
    (not_mem_of_lookup_eq_none hnone)

theorem mentions_subset_of_requestBody? {reference : String} {body : RequestBody}
    (h : components.requestBody? reference = some body) : body.mentions ⊆ components.mentions := by
  obtain ⟨name, -, hbody⟩ := Option.bind_eq_some_iff.mp h
  intro text htext
  exact List.mem_flatMap.mpr ⟨(name, body), mem_of_lookup hbody, htext⟩

theorem justified_resolveBody {found : Option (OrReference RequestBody)} {gap : Gap}
    (h : (resolveBody components found).2 = some gap) :
    gap.Justified components
      (found.toList.flatMap (mentionsOf RequestBody.mentions) ++ components.mentions) := by
  unfold resolveBody at h
  split at h
  · simp at h
  · refine (justified_bodySchema h).mono ?_
    simp [mentionsOf]
  · rename_i reference
    split at h
    · rename_i body hbody
      exact (justified_bodySchema h).mono
        (List.subset_append_of_subset_right _ (mentions_subset_of_requestBody? hbody))
    · rename_i hnone
      simp only [Option.some.injEq] at h
      subst h
      exact justified_of_unresolved? rfl (by simp [mentionsOf]) (not_mem_of_lookup_eq_none hnone)

/-- Every gap that is found about an operation is justified. -/
theorem justified_synthesize {operation : Operation} {gap : Gap}
    (h : gap ∈ (synthesize components operation).gaps) :
    gap.Justified components (operation.mentions ++ components.mentions) := by
  unfold synthesize at h
  simp only [List.mem_append, List.mem_filterMap, Option.mem_toList] at h
  rcases h with (hparameter | ⟨header, -, hheader⟩) | hbody
  · refine (justified_resolveParameters hparameter).mono ?_
    cases hparameters : operation.parameters with
    | none => simp [parameterMentions]
    | some entries => simp [Operation.mentions, hparameters]
  · unfold headerGap? at hheader
    split at hheader
    · simp at hheader
    · simp only [Option.some.injEq] at hheader
      subst hheader
      exact justified_of_unresolved?_eq_none rfl
  · refine (justified_resolveBody hbody).mono ?_
    refine List.append_subset.mpr ⟨?_, List.subset_append_right _ _⟩
    exact List.subset_append_of_subset_left _ (List.subset_append_right _ _)

end Synthesis

end RouteScaffold
