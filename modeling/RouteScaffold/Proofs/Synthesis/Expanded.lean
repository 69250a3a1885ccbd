import Mathlib.Data.List.Forall2
import RouteScaffold.Proofs.Synthesis.Denoted

/-!
# References in the open

A reference may be replaced by what it names: one among the parameters of an operation by the shared parameter,
the one in place of the body by the shared body, and the schema of a parameter, or of the first media type of
the body, by the shared schema, unless that is a reference again.  `Expands` says that some references of an
operation were replaced, and nothing of what is found out about the operation changes with them
(`synthesize_of_expands`).

Only some references are looked up (`LooksUp`): those of parameters that are no headers, for one, are not.
Components that have the same entries under those that are say the same about an operation
(`synthesize_congr_of_looksUp`), so that an operation that is expanded until none is left needs no components
(`synthesize_expanded`).
-/

namespace RouteScaffold.Synthesis

open Document (Components MediaType Operation Parameter RequestBody)
open OpenApi (OrReference)

/-! ## Replacing references -/

/-- A schema is kept, or it is a reference and the shared schema that it names, which is none, is in its
place. -/
inductive ExpandsSchema (components : Components) : Json → Json → Prop
  | kept (schema : Json) : ExpandsSchema components schema schema
  | replaced {schema target : Json} {name : String}
      (hreference : schema.get? "$ref" = some (.str ("#/components/schemas/" ++ name)))
      (htarget : components.schemas.lookup name = some target)
      (howned : ∀ reference, target.get? "$ref" ≠ some (.str reference)) :
      ExpandsSchema components schema target

/-- A parameter is kept but for its schema. -/
structure ExpandsParameter (components : Components) (parameter expanded : Parameter) : Prop where
  schema : Option.Rel (ExpandsSchema components) parameter.schema expanded.schema
  eq : expanded = { parameter with schema := expanded.schema }

/-- A body is kept but for the schema of its first media type. -/
inductive ExpandsBody (components : Components) : RequestBody → RequestBody → Prop
  | kept (body : RequestBody) : ExpandsBody components body body
  | first {required : Bool} {type : String} {schema expanded : Option Json}
      {rest : List (String × MediaType)} (hschema : Option.Rel (ExpandsSchema components) schema expanded) :
      ExpandsBody components ⟨required, (type, ⟨schema⟩) :: rest⟩ ⟨required, (type, ⟨expanded⟩) :: rest⟩

/-- A reference is kept, or what it names is in its place, itself expanded; what is there already may be
expanded as well. -/
inductive ExpandsEntry {α : Type} (lookup : String → Option α) (Inner : α → α → Prop) :
    OrReference α → OrReference α → Prop
  | kept (text : String) : ExpandsEntry lookup Inner (.reference text) (.reference text)
  | own {value expanded : α} (hinner : Inner value expanded) :
      ExpandsEntry lookup Inner (.item value) (.item expanded)
  | replaced {text : String} {value expanded : α} (hfound : lookup text = some value)
      (hinner : Inner value expanded) : ExpandsEntry lookup Inner (.reference text) (.item expanded)

/-- Some references of an operation are replaced by what they name. -/
structure Expands (components : Components) (operation expanded : Operation) : Prop where
  parameters : Option.Rel
    (List.Forall₂ (ExpandsEntry components.parameter? (ExpandsParameter components)))
    operation.parameters expanded.parameters
  requestBody : Option.Rel (ExpandsEntry components.requestBody? (ExpandsBody components))
    operation.requestBody expanded.requestBody

variable {components : Components}

/-! ## Schemas and parameters -/

/-- In place of a reference stands what it denotes. -/
theorem ExpandsSchema.denoted?_eq {schema expanded : Json} (h : ExpandsSchema components schema expanded) :
    denoted? components expanded = denoted? components schema := by
  cases h with
  | kept => rfl
  | replaced hreference htarget howned =>
      have hshared := denoted?_eq_some.mpr (Denotes.shared hreference htarget)
      have hown : denoted? components _ = some _ := denoted?_eq_some.mpr (.own howned)
      rw [hshared, hown]

section

variable {parameter expanded : Parameter} (h : ExpandsParameter components parameter expanded)

include h

theorem headerType?_of_expands : headerType? components expanded = headerType? components parameter := by
  have hschemas : expanded.schema.bind (denoted? components) =
      parameter.schema.bind (denoted? components) := by
    have hschema := h.schema
    generalize expanded.schema = schema at hschema
    generalize parameter.schema = other at hschema
    cases hschema with
    | none => rfl
    | some hschema => exact hschema.denoted?_eq
  rw [headerType?_eq_bind, headerType?_eq_bind, hschemas]

theorem headerField_of_expands :
    headerField components expanded = headerField components parameter := by
  rw [headerField, headerField, headerType?_of_expands h, h.eq]

theorem headerGap?_of_expands : headerGap? components expanded = headerGap? components parameter := by
  rw [headerGap?, headerGap?, headerType?_of_expands h, h.eq]

theorem isMarker_of_expands : IsMarker expanded ↔ IsMarker parameter := by
  rw [h.eq]
  rfl

theorem isField_of_expands : IsField expanded ↔ IsField parameter := by
  rw [h.eq]
  rfl

end

/-! ## Lists of parameters -/

section

variable {parameters expanded : List Parameter}
  (h : List.Forall₂ (ExpandsParameter components) parameters expanded)

include h

theorem accessOf_of_expands :
    ((expanded.find? fun parameter => IsMarker parameter).map fun marker =>
        ({ comment := marker.description.bind Text.singleLine } : Access)) =
      (parameters.find? fun parameter => IsMarker parameter).map fun marker =>
        { comment := marker.description.bind Text.singleLine } := by
  induction h with
  | nil => rfl
  | cons hfirst hrest ih =>
      have hmarker := isMarker_of_expands hfirst
      rw [List.find?_cons, List.find?_cons]
      split
      · rename_i hyes
        rw [decide_eq_true (hmarker.mp (of_decide_eq_true hyes)), hfirst.eq]
        rfl
      · rename_i hno
        rw [decide_eq_false (mt hmarker.mpr (of_decide_eq_false hno))]
        exact ih

theorem fields_of_expands : List.Forall₂ (ExpandsParameter components)
    (parameters.filter fun parameter => IsField parameter)
    (expanded.filter fun parameter => IsField parameter) := by
  refine List.rel_filter (fun parameter other hfirst => ?_) h
  simp only [decide_eq_true_eq]
  exact (isField_of_expands hfirst).symm

theorem headerGaps_of_expands :
    expanded.filterMap (headerGap? components) = parameters.filterMap (headerGap? components) := by
  induction h with
  | nil => rfl
  | cons hfirst hrest ih =>
      rw [List.filterMap_cons, List.filterMap_cons, headerGap?_of_expands hfirst, ih]

theorem foldl_headerField_of_expands (fields : List (String × Json)) :
    expanded.foldl (fun fields header =>
        putMember header.name (headerField components header) fields) fields =
      parameters.foldl (fun fields header =>
        putMember header.name (headerField components header) fields) fields := by
  induction h generalizing fields with
  | nil => rfl
  | cons hfirst hrest ih =>
      rw [List.foldl_cons, List.foldl_cons, ih, headerField_of_expands hfirst, hfirst.eq]

theorem requiredOf_of_expands :
    (expanded.filter (·.required)).map (fun header => Json.str header.name) =
      (parameters.filter (·.required)).map fun header => Json.str header.name := by
  induction h with
  | nil => rfl
  | @cons parameter other rest more hfirst hrest ih =>
      have hrequired : other.required = parameter.required := by rw [hfirst.eq]
      have hname : other.name = parameter.name := by rw [hfirst.eq]
      rw [List.filter_cons, List.filter_cons, hrequired]
      split
      · rw [List.map_cons, List.map_cons, hname, ih]
      · exact ih

theorem headerSchema?_of_expands :
    headerSchema? components expanded = headerSchema? components parameters := by
  have hempty : expanded.isEmpty = parameters.isEmpty := by cases h <;> rfl
  rw [headerSchema?, headerSchema?, hempty, foldl_headerField_of_expands h, requiredOf_of_expands h]

end

/-! ## Entries and bodies -/

section

variable {entries expanded : List (OrReference Parameter)}
  (h : List.Forall₂ (ExpandsEntry components.parameter? (ExpandsParameter components)) entries expanded)

include h

/-- The parameters of a list stay, each of them kept but for its schema. -/
theorem parameters_of_expands : List.Forall₂ (ExpandsParameter components)
    (entries.filterMap (parameterOf? components)) (expanded.filterMap (parameterOf? components)) := by
  have hkept : ∀ parameter, ExpandsParameter components parameter parameter := by
    intro parameter
    refine ⟨?_, rfl⟩
    cases parameter.schema with
    | none => exact .none
    | some schema => exact .some (.kept schema)
  refine List.rel_filterMap (fun entry other hentry => ?_) h
  cases hentry with
  | kept text =>
      rw [parameterOf?]
      cases components.parameter? text with
      | none => exact .none
      | some parameter => exact .some (hkept parameter)
  | own hinner => exact .some hinner
  | @replaced text value other hfound hinner =>
      have hnamed : parameterOf? components (.reference text) = some value := hfound
      rw [hnamed]
      exact .some hinner

/-- A reference that names no shared parameter is not replaced. -/
theorem danglingReferences_of_expands :
    expanded.filterMap (danglingReference? components) =
      entries.filterMap (danglingReference? components) := by
  induction h with
  | nil => rfl
  | cons hentry hrest ih =>
      rw [List.filterMap_cons, List.filterMap_cons, ih]
      cases hentry with
      | kept text => rfl
      | own hinner => rfl
      | replaced hfound hinner => simp [danglingReference?, hfound]

end

theorem bodySchema_of_expands {body expanded : RequestBody} (h : ExpandsBody components body expanded) :
    bodySchema components expanded = bodySchema components body := by
  cases h with
  | kept => rfl
  | first hschema =>
      cases hschema with
      | none => rfl
      | some hschema =>
          cases hschema with
          | kept => rfl
          | replaced hreference htarget howned =>
              have hnamed : schemaReference? _ = some _ := getText?_eq_some.mpr hreference
              have hfound : components.schema? _ = some _ := schema?_eq_some.mpr ⟨_, rfl, htarget⟩
              have hnone := schemaReference?_eq_none.mpr howned
              rw [bodySchema, bodySchema]
              simp only [List.head?_cons, Option.bind_some, hnone, hnamed, hfound]

theorem resolveBody_of_expands {body expanded : Option (OrReference RequestBody)}
    (h : Option.Rel (ExpandsEntry components.requestBody? (ExpandsBody components)) body expanded) :
    resolveBody components expanded = resolveBody components body := by
  cases h with
  | none => rfl
  | some hentry =>
      cases hentry with
      | kept text => rfl
      | own hinner => exact bodySchema_of_expands hinner
      | replaced hfound hinner =>
          rw [resolveBody, resolveBody, hfound]
          exact bodySchema_of_expands hinner

/-! ## Operations -/

/-- Nothing of what is found out about an operation changes when references are replaced by what they name. -/
theorem synthesize_of_expands {operation expanded : Operation} (h : Expands components operation expanded) :
    synthesize components expanded = synthesize components operation := by
  have hentries : List.Forall₂ (ExpandsEntry components.parameter? (ExpandsParameter components))
      (operation.parameters.getD []) (expanded.parameters.getD []) := by
    have hparameters := h.parameters
    generalize operation.parameters = entries at hparameters
    generalize expanded.parameters = others at hparameters
    cases hparameters with
    | none => exact .nil
    | some hlist => exact hlist
  have hlisted : expanded.parameters.isSome = operation.parameters.isSome := by
    have hparameters := h.parameters
    generalize operation.parameters = entries at hparameters
    generalize expanded.parameters = others at hparameters
    cases hparameters <;> rfl
  -- from here on only what the references name matters
  have hparameters := parameters_of_expands hentries
  have hfields := fields_of_expands hparameters
  have hbody := resolveBody_of_expands h.requestBody
  have haccess : (synthesize components expanded).access = (synthesize components operation).access := by
    rw [access_synthesize, access_synthesize]
    exact accessOf_of_expands hparameters
  have hschema : (synthesize components expanded).schema = (synthesize components operation).schema := by
    rw [schema_synthesize, schema_synthesize, hlisted, hbody, fieldsOf, fieldsOf, parametersOf, parametersOf,
      headerSchema?_of_expands hfields]
  have hgaps : (synthesize components expanded).gaps = (synthesize components operation).gaps := by
    rw [gaps_synthesize, gaps_synthesize, hbody, danglingReferences, danglingReferences,
      danglingReferences_of_expands hentries, fieldsOf, fieldsOf, parametersOf, parametersOf,
      headerGaps_of_expands hfields]
  calc synthesize components expanded
      = ⟨(synthesize components expanded).access, (synthesize components expanded).schema,
          (synthesize components expanded).gaps⟩ := rfl
    _ = ⟨(synthesize components operation).access, (synthesize components operation).schema,
          (synthesize components operation).gaps⟩ := by rw [haccess, hschema, hgaps]
    _ = synthesize components operation := rfl

/-! ## References that are looked up -/

/-- A reference that is looked up to find out about an operation: among its parameters, in place of its body,
and as the schema of one of the fields or of a body that is required. -/
inductive LooksUp (components : Components) (operation : Operation) : String → Prop
  | parameter {text : String} (hmem : .reference text ∈ operation.parameters.getD []) :
      LooksUp components operation text
  | body {text : String} (hbody : operation.requestBody = some (.reference text)) :
      LooksUp components operation text
  | fieldSchema {header : Parameter} {schema : Json} {text : String}
      (hheader : header ∈ fieldsOf components operation) (hschema : header.schema = some schema)
      (hreference : schema.get? "$ref" = some (.str text)) : LooksUp components operation text
  | bodySchema {body : RequestBody} {schema : Json} {text : String}
      (hbody : reachedBody? components operation = some body) (hrequired : body.required = true)
      (hschema : schemaOf? body = some schema) (hreference : schema.get? "$ref" = some (.str text)) :
      LooksUp components operation text

/-- Components that have the same entries under a reference. -/
structure SameUnder (first second : Components) (reference : String) : Prop where
  parameter : first.parameter? reference = second.parameter? reference
  requestBody : first.requestBody? reference = second.requestBody? reference
  schema : first.schema? reference = second.schema? reference

/-- Components that have the same entries under the references that are looked up say the same about an
operation. -/
theorem synthesize_congr_of_looksUp {first second : Components} {operation : Operation}
    (h : ∀ reference, LooksUp first operation reference → SameUnder first second reference) :
    synthesize first operation = synthesize second operation := by
  refine synthesize_congr_of_eq (fun text hmem => (h text (.parameter hmem)).parameter) ?_ ?_
  · intro header hmem hlocation hother
    refine headerType?_congr fun schema hschema text htext => ?_
    have hfield : IsField header := ⟨hlocation, of_decide_eq_false hother⟩
    have hheader : header ∈ fieldsOf first operation := by
      refine List.mem_filter.mpr ⟨?_, decide_eq_true hfield⟩
      rwa [reachedParameters, resolveParameters_eq] at hmem
    exact (h text (.fieldSchema hheader hschema (getText?_eq_some.mp htext))).schema
  · refine resolveBody_congr (fun text hrequest => (h text (.body hrequest)).requestBody) ?_
    intro body hreached
    cases hrequired : body.required with
    | false => rw [bodySchema, bodySchema, hrequired]; rfl
    | true =>
        refine bodySchema_congr fun schema hschema text htext => ?_
        exact (h text (.bodySchema hreached hrequired hschema (getText?_eq_some.mp htext))).schema

/-- References are transparent: an operation in which some of them are replaced by what they name says the same,
and it needs no components when none is left that is looked up. -/
theorem synthesize_expanded {operation expanded : Operation} (h : Expands components operation expanded) :
    synthesize components expanded = synthesize components operation ∧
      ((∀ reference, ¬ LooksUp components expanded reference) →
        synthesize {} expanded = synthesize components operation) := by
  refine ⟨synthesize_of_expands h, fun hnone => ?_⟩
  rw [← synthesize_of_expands h]
  exact (synthesize_congr_of_looksUp fun reference hlooks => absurd hlooks (hnone reference)).symm

/-- A schema of words. -/
def wordSchema : Json := .obj [("type", .str "string")]

/-- A reference to the shared schema of words. -/
def wordReference : Json := .obj [("$ref", .str "#/components/schemas/Word")]

/-- A required header with a schema. -/
def tagHeader (schema : Json) : Parameter where
  name := "X-Tag"
  location := .header
  required := true
  schema := some schema

/-- A required body with a schema. -/
def textBody (schema : Json) : RequestBody where
  required := true
  content := [("text/plain", ⟨some schema⟩)]

/-- A shared header and a shared body, the schema of both of them shared too. -/
def wordComponents : Components where
  schemas := [("Word", wordSchema)]
  parameters := [("Tag", tagHeader wordReference)]
  requestBodies := [("Text", textBody wordReference)]

/-- An operation of references. -/
def wordOperation : Operation where
  parameters := some [.reference "#/components/parameters/Tag"]
  requestBody := some (.reference "#/components/requestBodies/Text")

/-- The same operation without references. -/
def spelledOperation : Operation where
  parameters := some [.item (tagHeader wordSchema)]
  requestBody := some (.item (textBody wordSchema))

theorem expandsSchema_word : ExpandsSchema wordComponents wordReference wordSchema := by
  have hreference : wordReference.get? "$ref" = some (.str ("#/components/schemas/" ++ "Word")) := rfl
  exact .replaced hreference rfl fun _ => nofun

theorem expands_spelled : Expands wordComponents wordOperation spelledOperation := by
  refine ⟨.some (.cons ?_ .nil), .some ?_⟩
  · exact .replaced rfl ⟨.some expandsSchema_word, rfl⟩
  · exact .replaced rfl (.first (.some expandsSchema_word))

theorem not_looksUp_spelled (reference : String) :
    ¬ LooksUp wordComponents spelledOperation reference := by
  intro hlooks
  cases hlooks with
  | parameter hmem => simp [spelledOperation] at hmem
  | body hbody => simp [spelledOperation] at hbody
  | fieldSchema hheader hschema hreference =>
      have hfields : fieldsOf wordComponents spelledOperation = [tagHeader wordSchema] := rfl
      rw [hfields, List.mem_singleton] at hheader
      subst hheader
      obtain rfl := Option.some.inj hschema
      exact nomatch hreference
  | bodySchema hbody _ hschema hreference =>
      obtain rfl := Option.some.inj hbody
      obtain rfl := Option.some.inj hschema
      exact nomatch hreference

theorem synthesize_expanded_spelled :
    Expands wordComponents wordOperation spelledOperation ∧
      (∀ reference, ¬ LooksUp wordComponents spelledOperation reference) ∧
      synthesize wordComponents spelledOperation = synthesize wordComponents wordOperation ∧
      synthesize {} spelledOperation = synthesize wordComponents wordOperation := by
  obtain ⟨hsame, halone⟩ := synthesize_expanded expands_spelled
  exact ⟨expands_spelled, not_looksUp_spelled, hsame, halone not_looksUp_spelled⟩

end RouteScaffold.Synthesis
