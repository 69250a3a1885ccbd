import RouteScaffold.Proofs.Synthesis.Parameters
import RouteScaffold.Proofs.Text.Pieces

/-!
# What schemas and bodies stand for

A schema stands for itself, or for the shared schema that it names when it is a reference (`Denotes`).
References are followed one step, so that a shared schema that is a reference again stands for what it says
and not for what it names.  From this follow the type of a header (`headerType?_eq_some`), the schema of a body
(`resolveBody_fst_eq_some`) and the gap that a body leaves (`resolveBody_snd_eq_some`).
-/

namespace RouteScaffold.Synthesis

open Document (Components Operation Parameter RequestBody)
open OpenApi (OrReference)

theorem getText?_eq_some {tree : Json} {key text : String} :
    tree.getText? key = some text ↔ tree.get? key = some (.str text) := by
  rw [Json.getText?, Option.bind_eq_some_iff]
  constructor
  · rintro ⟨found, hfound, htext⟩
    cases found with
    | str other =>
        obtain rfl := Option.some.inj htext
        exact hfound
    | _ => cases htext
  · intro h
    exact ⟨_, h, rfl⟩

theorem schema?_eq_some {components : Components} {reference : String} {target : Json} :
    components.schema? reference = some target ↔
      ∃ name, reference = "#/components/schemas/" ++ name ∧
        components.schemas.lookup name = some target := by
  simp only [Components.schema?, Option.bind_eq_some_iff, Text.afterStart?_eq_some]

/-! ## Schemas -/

/-- What a schema stands for: itself, or the shared schema that it names when it is a reference. -/
inductive Denotes (components : Components) : Json → Json → Prop
  | own {schema : Json} (howned : ∀ reference, schema.get? "$ref" ≠ some (.str reference)) :
      Denotes components schema schema
  | shared {schema target : Json} {name : String}
      (hreference : schema.get? "$ref" = some (.str ("#/components/schemas/" ++ name)))
      (htarget : components.schemas.lookup name = some target) : Denotes components schema target

/-- The schema that a schema stands for, found by looking it up. -/
def denoted? (components : Components) (schema : Json) : Option Json :=
  match schemaReference? schema with
  | none => some schema
  | some reference => components.schema? reference

variable {components : Components}

theorem schemaReference?_eq_none {schema : Json} :
    schemaReference? schema = none ↔ ∀ reference, schema.get? "$ref" ≠ some (.str reference) := by
  rw [Option.eq_none_iff_forall_ne_some]
  exact forall_congr' fun reference => not_congr getText?_eq_some

theorem denoted?_eq_some {schema target : Json} :
    denoted? components schema = some target ↔ Denotes components schema target := by
  rw [denoted?]
  cases hreference : schemaReference? schema with
  | none =>
      have howned := schemaReference?_eq_none.mp hreference
      constructor
      · rintro ⟨rfl⟩
        exact .own howned
      · rintro (_ | ⟨hnamed, -⟩)
        · rfl
        · exact absurd hnamed (howned _)
  | some reference =>
      have hnamed := getText?_eq_some.mp hreference
      rw [schema?_eq_some]
      constructor
      · rintro ⟨name, rfl, htarget⟩
        exact .shared hnamed htarget
      · rintro (howned | ⟨hother, htarget⟩)
        · exact absurd hnamed (howned reference)
        · rw [hnamed, Option.some.injEq, Json.str.injEq] at hother
          exact ⟨_, hother, htarget⟩

/-! ## Types of headers -/

/-- A header has a type if the schema that its own stands for names it. -/
def HasType (components : Components) (header : Parameter) (type : String) : Prop :=
  ∃ schema target, header.schema = some schema ∧ Denotes components schema target ∧
    target.get? "type" = some (.str type)

theorem headerType?_eq_bind (components : Components) (header : Parameter) :
    headerType? components header =
      (header.schema.bind (denoted? components)).bind (·.getText? "type") := by
  rw [headerType?]
  cases header.schema with
  | none => rfl
  | some schema =>
      simp only [Option.bind_eq_bind, Option.bind_some, denoted?]
      cases schemaReference? schema <;> rfl

theorem headerType?_eq_some {header : Parameter} {type : String} :
    headerType? components header = some type ↔ HasType components header type := by
  rw [headerType?_eq_bind]
  simp only [Option.bind_eq_some_iff, denoted?_eq_some, getText?_eq_some, HasType]
  constructor
  · rintro ⟨target, ⟨schema, hschema, hdenotes⟩, htype⟩
    exact ⟨schema, target, hschema, hdenotes, htype⟩
  · rintro ⟨schema, target, hschema, hdenotes, htype⟩
    exact ⟨target, ⟨schema, hschema, hdenotes⟩, htype⟩

instance (header : Parameter) : Decidable (∃ type, HasType components header type) :=
  decidable_of_iff ((headerType? components header).isSome = true) <| by
    simp only [Option.isSome_iff_exists, headerType?_eq_some]

/-! ## Bodies -/

/-- The schema that is asked of the body of a request: the body is required, and its first media type has a
schema that stands for it. -/
def AsksBodySchema (components : Components) (operation : Operation) (target : Json) : Prop :=
  ∃ body schema, reachedBody? components operation = some body ∧ body.required = true ∧
    schemaOf? body = some schema ∧ Denotes components schema target

/-- What is missing to know the body of a request. -/
inductive LacksBody (components : Components) (operation : Operation) : Gap → Prop
  | unresolvedBody {text : String} (hbody : operation.requestBody = some (.reference text))
      (hnone : components.requestBody? text = none) :
      LacksBody components operation (.unresolvedRequestBody text)
  | missingSchema {body : RequestBody} (hbody : reachedBody? components operation = some body)
      (hrequired : body.required = true) (hnone : schemaOf? body = none) :
      LacksBody components operation .missingBodySchema
  | unresolvedSchema {body : RequestBody} {schema : Json} {text : String}
      (hbody : reachedBody? components operation = some body) (hrequired : body.required = true)
      (hschema : schemaOf? body = some schema) (hreference : schema.get? "$ref" = some (.str text))
      (hnone : components.schema? text = none) :
      LacksBody components operation (.unresolvedBodySchema text)

theorem bodySchema_fst_eq_some {body : RequestBody} {target : Json} :
    (bodySchema components body).1 = some target ↔
      body.required = true ∧ ∃ schema, schemaOf? body = some schema ∧ Denotes components schema target := by
  rw [bodySchema]
  cases hrequired : body.required with
  | false => simp
  | true =>
      simp only [Bool.not_true, Bool.false_eq_true, if_false, true_and, ← denoted?_eq_some, denoted?,
        ← schemaOf?.eq_1]
      cases hschema : schemaOf? body with
      | none => simp
      | some schema =>
          cases hreference : schemaReference? schema with
          | none => simp [hreference]
          | some reference => cases hfound : components.schema? reference <;> simp [hreference, hfound]

theorem bodySchema_snd_eq_some {body : RequestBody} {gap : Gap} :
    (bodySchema components body).2 = some gap ↔
      body.required = true ∧ (schemaOf? body = none ∧ gap = .missingBodySchema ∨
        ∃ schema text, schemaOf? body = some schema ∧ schema.get? "$ref" = some (.str text) ∧
          components.schema? text = none ∧ gap = .unresolvedBodySchema text) := by
  rw [bodySchema]
  cases hrequired : body.required with
  | false => simp
  | true =>
      simp only [Bool.not_true, Bool.false_eq_true, if_false, true_and, ← schemaOf?.eq_1,
        ← getText?_eq_some]
      cases hschema : schemaOf? body with
      | none => simp [eq_comm]
      | some schema =>
          change _ ↔ _ ∨ ∃ other text, _ ∧ schemaReference? other = some text ∧ _
          cases hreference : schemaReference? schema with
          | none => simp [hreference]
          | some reference =>
              cases hfound : components.schema? reference <;> simp [hreference, hfound, eq_comm]

variable {operation : Operation}

/-- The schema of a body is the one that is asked for. -/
theorem resolveBody_fst_eq_some {target : Json} :
    (resolveBody components operation.requestBody).1 = some target ↔
      AsksBodySchema components operation target := by
  unfold AsksBodySchema reachedBody? resolveBody
  cases hbody : operation.requestBody with
  | none => simp
  | some entry =>
      cases entry with
      | item body => simp [bodySchema_fst_eq_some]
      | reference text =>
          cases hfound : components.requestBody? text <;> simp [bodySchema_fst_eq_some, hfound]

/-- What is missing is the body itself, or something within the body that was reached. -/
theorem lacksBody_iff {gap : Gap} :
    LacksBody components operation gap ↔
      (∃ text, operation.requestBody = some (.reference text) ∧ components.requestBody? text = none ∧
        gap = .unresolvedRequestBody text) ∨
      ∃ body, reachedBody? components operation = some body ∧
        (bodySchema components body).2 = some gap := by
  simp only [bodySchema_snd_eq_some]
  constructor
  · intro h
    cases h with
    | unresolvedBody hbody hnone => exact Or.inl ⟨_, hbody, hnone, rfl⟩
    | missingSchema hbody hrequired hnone => exact Or.inr ⟨_, hbody, hrequired, Or.inl ⟨hnone, rfl⟩⟩
    | unresolvedSchema hbody hrequired hschema hreference hnone =>
        exact Or.inr ⟨_, hbody, hrequired, Or.inr ⟨_, _, hschema, hreference, hnone, rfl⟩⟩
  · rintro (⟨text, hbody, hnone, rfl⟩ | ⟨body, hbody, hrequired, hinner⟩)
    · exact .unresolvedBody hbody hnone
    · rcases hinner with ⟨hnone, rfl⟩ | ⟨schema, text, hschema, hreference, hnone, rfl⟩
      · exact .missingSchema hbody hrequired hnone
      · exact .unresolvedSchema hbody hrequired hschema hreference hnone

/-- The gap of a body is what is missing to know it. -/
theorem resolveBody_snd_eq_some {gap : Gap} :
    (resolveBody components operation.requestBody).2 = some gap ↔
      LacksBody components operation gap := by
  rw [lacksBody_iff]
  unfold reachedBody? resolveBody
  cases hbody : operation.requestBody with
  | none => simp
  | some entry =>
      cases entry with
      | item body => simp
      | reference text => cases hfound : components.requestBody? text <;> simp [hfound, eq_comm]

end RouteScaffold.Synthesis
