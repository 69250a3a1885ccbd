import Mathlib.Data.List.Basic
import RouteScaffold.Synthesis.Operation

/-!
# What operations reach

An operation reaches few of the entries of the components: those that the references among its
parameters name, the one that the reference in place of its body names, and those that the schemas of
the parameters and of the body so obtained name.  Components that agree on these entries
(`AgreeFor`) say the same about the operation (`synthesize_congr`), whatever else they hold.
-/

namespace RouteScaffold.Synthesis

open Document (Components Operation Parameter RequestBody)
open OpenApi (OrReference)

/-- The parameters that the list of an operation stands for. -/
def reachedParameters (components : Components) (operation : Operation) : List Parameter :=
  (resolveParameters components (operation.parameters.getD [])).1

/-- The body of an operation, its own or a shared one. -/
def reachedBody? (components : Components) (operation : Operation) : Option RequestBody :=
  match operation.requestBody with
  | none => none
  | some (.item body) => some body
  | some (.reference text) => components.requestBody? text

/-- The schema of a body: that of its first media type. -/
def schemaOf? (body : RequestBody) : Option Json :=
  body.content.head?.bind fun content => content.2.schema

/-- The schemas of the parameters and of the body that an operation reaches. -/
def reachedSchemas (components : Components) (operation : Operation) : List Json :=
  (reachedParameters components operation).filterMap (·.schema) ++
    ((reachedBody? components operation).bind schemaOf?).toList

/-- Components that have the same under the reference that a schema is, if it is one. -/
def SameSchema (first second : Components) (schema : Json) : Prop :=
  ∀ reference, schemaReference? schema = some reference →
    first.schema? reference = second.schema? reference

/-- Components that have the same entries where an operation reaches them. -/
structure AgreeFor (operation : Operation) (first second : Components) : Prop where
  parameters : ∀ reference, .reference reference ∈ operation.parameters.getD [] →
    first.parameter? reference = second.parameter? reference
  requestBody : ∀ reference, operation.requestBody = some (.reference reference) →
    first.requestBody? reference = second.requestBody? reference
  schemas : ∀ schema ∈ reachedSchemas first operation, SameSchema first second schema

variable {first second : Components}

theorem resolveParameters_congr {entries : List (OrReference Parameter)}
    (h : ∀ reference, .reference reference ∈ entries →
      first.parameter? reference = second.parameter? reference) :
    resolveParameters first entries = resolveParameters second entries := by
  induction entries with
  | nil => rfl
  | cons entry rest ih =>
      have hrest := ih fun reference hmem => h reference (List.mem_cons_of_mem _ hmem)
      cases entry with
      | item parameter => rw [resolveParameters, resolveParameters, hrest]
      | reference text =>
          rw [resolveParameters, resolveParameters, hrest, h text List.mem_cons_self]

theorem headerType?_congr {header : Parameter}
    (h : ∀ schema, header.schema = some schema → SameSchema first second schema) :
    headerType? first header = headerType? second header := by
  cases hschema : header.schema with
  | none =>
      rw [headerType?, headerType?, hschema]
      rfl
  | some schema =>
      rw [headerType?, headerType?, hschema]
      cases hreference : schemaReference? schema with
      | none => simp [hreference]
      | some reference => simp [hreference, h schema hschema reference hreference]

section

variable {headers : List Parameter}
  (h : ∀ header ∈ headers, headerType? first header = headerType? second header)

include h

theorem headerSchema?_congr : headerSchema? first headers = headerSchema? second headers := by
  rw [headerSchema?, headerSchema?]
  split
  · rfl
  · have hfields : ∀ fields, ∀ header ∈ headers,
        putMember header.name (headerField first header) fields =
          putMember header.name (headerField second header) fields := by
      intro fields header hheader
      rw [headerField, headerField, h header hheader]
    rw [List.foldl_ext _ _ [] hfields]

theorem headerGaps_congr :
    headers.filterMap (headerGap? first) = headers.filterMap (headerGap? second) := by
  refine List.filterMap_congr fun header hheader => ?_
  rw [headerGap?, headerGap?, h header hheader]

end

theorem bodySchema_congr {body : RequestBody}
    (h : ∀ schema, schemaOf? body = some schema → SameSchema first second schema) :
    bodySchema first body = bodySchema second body := by
  rw [bodySchema, bodySchema]
  split
  · rfl
  rw [show (body.content.head?.bind fun content => content.2.schema) = schemaOf? body from rfl]
  cases hschema : schemaOf? body with
  | none => rfl
  | some schema =>
      dsimp only
      cases hreference : schemaReference? schema with
      | none => rfl
      | some reference =>
          dsimp only
          rw [h schema hschema reference hreference]

/-- Components say the same about the body of an operation when they do about its reference, and about the
body that is reached. -/
theorem resolveBody_congr {operation : Operation}
    (hentry : ∀ reference, operation.requestBody = some (.reference reference) →
      first.requestBody? reference = second.requestBody? reference)
    (hbody : ∀ body, reachedBody? first operation = some body →
      bodySchema first body = bodySchema second body) :
    resolveBody first operation.requestBody = resolveBody second operation.requestBody := by
  unfold reachedBody? at hbody
  cases hrequest : operation.requestBody with
  | none => rfl
  | some entry =>
      rw [hrequest] at hbody
      cases entry with
      | item body => exact hbody body rfl
      | reference text =>
          rw [resolveBody, resolveBody, ← hentry text hrequest]
          cases hfound : first.requestBody? text with
          | none => rfl
          | some body => exact hbody body hfound

theorem AgreeFor.resolveBody_eq {operation : Operation} (h : AgreeFor operation first second) :
    resolveBody first operation.requestBody = resolveBody second operation.requestBody := by
  refine resolveBody_congr h.requestBody fun body hreached => ?_
  refine bodySchema_congr fun schema hschema => h.schemas schema (List.mem_append_right _ ?_)
  rw [hreached, Option.bind_some, hschema]
  exact List.mem_singleton.mpr rfl

/-- Components say the same about an operation when they do about its entries, about the types of the headers
that are fields, and about its body. -/
theorem synthesize_congr_of_eq {operation : Operation}
    (hentries : ∀ reference, .reference reference ∈ operation.parameters.getD [] →
      first.parameter? reference = second.parameter? reference)
    (hheaders : ∀ header ∈ reachedParameters first operation, header.location = .header →
      isAuthorization header = false → headerType? first header = headerType? second header)
    (hbody : resolveBody first operation.requestBody = resolveBody second operation.requestBody) :
    synthesize first operation = synthesize second operation := by
  rw [synthesize, synthesize, ← resolveParameters_congr hentries, ← hbody]
  rw [reachedParameters] at hheaders
  generalize resolveParameters first (operation.parameters.getD []) = resolved at hheaders ⊢
  obtain ⟨parameters, gaps⟩ := resolved
  have hothers : ∀ header ∈ (parameters.filter (·.location = .header)).filter (!isAuthorization ·),
      headerType? first header = headerType? second header := by
    intro header hheader
    obtain ⟨hmem, hother⟩ := List.mem_filter.mp hheader
    obtain ⟨hparameter, hlocation⟩ := List.mem_filter.mp hmem
    exact hheaders header hparameter (of_decide_eq_true hlocation) (by simpa using hother)
  dsimp only
  rw [headerSchema?_congr hothers, headerGaps_congr hothers]

/-- Components that have the same entries where an operation reaches them say the same about it. -/
theorem synthesize_congr {operation : Operation} (h : AgreeFor operation first second) :
    synthesize first operation = synthesize second operation := by
  refine synthesize_congr_of_eq h.parameters (fun header hheader _ _ => ?_) h.resolveBody_eq
  refine headerType?_congr fun schema hschema => h.schemas schema (List.mem_append_left _ ?_)
  exact List.mem_filterMap.mpr ⟨header, hheader, hschema⟩

end RouteScaffold.Synthesis
