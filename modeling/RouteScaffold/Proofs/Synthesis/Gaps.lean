import RouteScaffold.Proofs.Synthesis.Bodies
import RouteScaffold.Proofs.Synthesis.Denoted

/-!
# The gaps of an operation

The gaps that are found about an operation are what is missing, each of them once and in the order of the
document (`listsGaps_synthesize`): the references among its parameters that name no shared one, the headers
without a type, one for each time a header is listed, and what is missing to know the body.  A body that is
required has a schema or leaves a gap, and never both.
-/

namespace RouteScaffold.Synthesis

open Document (Components Operation Parameter RequestBody)

/-- The names of the headers that have no type, one for each header. -/
def untypedHeaders (components : Components) (operation : Operation) : List String :=
  ((fieldsOf components operation).filter fun header =>
    ¬ ∃ type, HasType components header type).map (·.name)

variable {components : Components} {operation : Operation}

theorem filterMap_headerGap? (headers : List Parameter) :
    headers.filterMap (headerGap? components) =
      ((headers.filter fun header => ¬ ∃ type, HasType components header type).map (·.name)).map
        Gap.untypedHeader := by
  induction headers with
  | nil => rfl
  | cons header rest ih =>
      have hsome : (headerType? components header).isSome = true ↔
          ∃ type, HasType components header type := by
        simp only [Option.isSome_iff_exists, headerType?_eq_some]
      by_cases htyped : ∃ type, HasType components header type
      · have hnone : headerGap? components header = none := if_pos (hsome.mpr htyped)
        rw [List.filterMap_cons_none hnone, List.filter_cons_of_neg (by simpa using htyped), ih]
      · have hgap : headerGap? components header = some (.untypedHeader header.name) :=
          if_neg (mt hsome.mp htyped)
        rw [List.filterMap_cons_some hgap, List.filter_cons_of_pos (by simpa using htyped), ih]
        rfl

theorem resolveBody_of_reached {body : RequestBody}
    (h : reachedBody? components operation = some body) :
    resolveBody components operation.requestBody = bodySchema components body := by
  rw [reachedBody?.eq_def] at h
  rw [resolveBody.eq_def]
  cases hbody : operation.requestBody with
  | none => simp [hbody] at h
  | some entry =>
      cases entry with
      | item own =>
          simp only [hbody, Option.some.injEq] at h
          rw [h]
      | reference text =>
          simp only [hbody] at h
          simp only [h]

/-- What was found out about an operation lists its gaps. -/
structure ListsGaps (components : Components) (operation : Operation) (found : Synthesis) : Prop where
  /-- The gaps are those of the parameters, those of the headers, and at most one of the body. -/
  gaps : ∃ bodyGap : Option Gap,
    found.gaps = (danglingReferences components operation).map Gap.unresolvedParameter ++
      (untypedHeaders components operation).map Gap.untypedHeader ++ bodyGap.toList ∧
    (∀ gap, bodyGap = some gap ↔ LacksBody components operation gap) ∧
    ∀ body, reachedBody? components operation = some body → body.required = true →
      (found.body?.isSome ↔ bodyGap = none)
  /-- The schema of a required body is what the schema of its first media type stands for. -/
  body : ∀ body, reachedBody? components operation = some body → body.required = true →
    ∀ target, found.body? = some target ↔
      ∃ schema, schemaOf? body = some schema ∧ Denotes components schema target

/-- The gaps are exactly what is missing, in order. -/
theorem listsGaps_synthesize (components : Components) (operation : Operation) :
    ListsGaps components operation (synthesize components operation) := by
  refine ⟨⟨(resolveBody components operation.requestBody).2, ?_, ?_, ?_⟩, ?_⟩
  · rw [gaps_synthesize, filterMap_headerGap?]
    rfl
  · intro gap
    exact resolveBody_snd_eq_some
  · intro body hreached hrequired
    rw [body?_synthesize, resolveBody_of_reached hreached]
    rcases bodySchema_cases components body with ⟨hfalse, -⟩ | ⟨-, ⟨schema, hschema⟩ | ⟨gap, hgap, -⟩⟩
    · rw [hrequired] at hfalse
      cases hfalse
    · simp [hschema]
    · simp [hgap]
  · intro body hreached hrequired target
    rw [body?_synthesize, resolveBody_of_reached hreached, bodySchema_fst_eq_some]
    simp [hrequired]

/-- A required body whose schema names no shared one. -/
def danglingBody : RequestBody where
  required := true
  content := [("text/plain", { schema := some (.obj [("$ref", .str "#/components/schemas/Gone")]) })]

/-- An operation with gaps of its parameters, its headers and its body, among parameters that leave none. -/
def sparseOperation : Operation where
  parameters := some
    [.item { name := "X-Mode", location := .header },
     .reference "#/components/parameters/Gone",
     .item { name := "Authorization", location := .header },
     .reference "#/parameters/Mode",
     .item { name := "limit", location := .query },
     .item { name := "X-Mode", location := .header, schema := some (.obj [("type", .arr [])]) }]
  requestBody := some (.item danglingBody)

theorem listsGaps_synthesize_sparse :
    (synthesize {} sparseOperation).gaps =
        [.unresolvedParameter "#/components/parameters/Gone", .unresolvedParameter "#/parameters/Mode",
         .untypedHeader "X-Mode", .untypedHeader "X-Mode",
         .unresolvedBodySchema "#/components/schemas/Gone"] ∧
      LacksBody {} sparseOperation (.unresolvedBodySchema "#/components/schemas/Gone") ∧
      (synthesize {} sparseOperation).body? = none := by
  have hgaps : (synthesize {} sparseOperation).gaps =
      [.unresolvedParameter "#/components/parameters/Gone", .unresolvedParameter "#/parameters/Mode",
       .untypedHeader "X-Mode", .untypedHeader "X-Mode",
       .unresolvedBodySchema "#/components/schemas/Gone"] := rfl
  obtain ⟨⟨bodyGap, hlist, hbody, -⟩, -⟩ := listsGaps_synthesize {} sparseOperation
  have hparameters : danglingReferences {} sparseOperation =
      ["#/components/parameters/Gone", "#/parameters/Mode"] := rfl
  have hheaders : untypedHeaders {} sparseOperation = ["X-Mode", "X-Mode"] := rfl
  rw [hgaps, hparameters, hheaders] at hlist
  refine ⟨hgaps, (hbody _).mp ?_, rfl⟩
  cases bodyGap with
  | none => cases hlist
  | some gap => cases hlist; rfl

end RouteScaffold.Synthesis
