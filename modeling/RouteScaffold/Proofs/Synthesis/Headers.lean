import RouteScaffold.OpenApi.Description
import RouteScaffold.Proofs.Json.Members
import RouteScaffold.Proofs.Synthesis.Denoted

/-!
# The schema of the headers

The headers of an operation, but for those named `Authorization`, are described by an object with one field
for each name, in the order in which the names come first.  Where a name is repeated, the field is that of the
last header with it (`describes_headerSchema?`).  The schema of a request is made of this object and of the
schema of the body, in this order (`composite_synthesize`).

The names of the required headers are listed apart from the fields, one for each header.  So the list fits the
fields exactly when only the last header with a name is required (`wellFormed_iff`): a name that two required
headers have is listed twice, and a name whose last header is not required is listed when an earlier one is
(`not_wellFormed_repeated`).
-/

namespace RouteScaffold.Synthesis

open Document (Components Operation Parameter)
open OpenApi (membersAt)

/-- A header is the last one with its name. -/
def IsLast (headers : List Parameter) (header : Parameter) : Prop :=
  ∃ front back, headers = front ++ header :: back ∧ ∀ other ∈ back, other.name ≠ header.name

theorem IsLast.mem {headers : List Parameter} {header : Parameter} (h : IsLast headers header) :
    header ∈ headers := by
  obtain ⟨front, back, rfl, -⟩ := h
  simp

theorem IsLast.cons {headers : List Parameter} {header : Parameter} (h : IsLast headers header)
    (first : Parameter) : IsLast (first :: headers) header := by
  obtain ⟨front, back, rfl, hback⟩ := h
  exact ⟨first :: front, back, rfl, hback⟩

/-- Some header with a name is the last one. -/
theorem exists_isLast {headers : List Parameter} {name : String} (h : name ∈ headers.map (·.name)) :
    ∃ last, IsLast headers last ∧ last.name = name := by
  induction headers with
  | nil => cases h
  | cons first rest ih =>
      by_cases hlater : name ∈ rest.map (·.name)
      · obtain ⟨last, hlast, hname⟩ := ih hlater
        exact ⟨last, hlast.cons first, hname⟩
      · rw [List.map_cons, List.mem_cons] at h
        obtain rfl := h.resolve_right hlater
        refine ⟨first, ⟨[], rest, rfl, fun other hother hsame => hlater ?_⟩, rfl⟩
        exact List.mem_map.mpr ⟨other, hother, hsame⟩

/-! ## The fields -/

variable {components : Components}

/-- The type that the field of a header has: that of the header, or `string` if it has none. -/
def HasFieldType (components : Components) (header : Parameter) (type : String) : Prop :=
  HasType components header type ∨ (¬ ∃ other, HasType components header other) ∧ type = "string"

/-- The field of a type that a header describes. -/
def fieldOf (type : String) (header : Parameter) : Json :=
  .obj (("type", .str type) ::
    (header.description.map fun description => ("description", .str description)).toList)

/-- What the schema of some headers says of them. -/
structure Describes (components : Components) (headers : List Parameter) (fragment : Json) : Prop where
  object : fragment.get? "type" = some (.str "object")
  /-- Each name has a field, in the order in which the names come first. -/
  keys : (membersAt fragment "properties").map (·.1) = (headers.map (·.name)).eraseDups
  /-- The field of a name is that of the last header with it. -/
  fields : ∀ header, IsLast headers header → ∃ type, HasFieldType components header type ∧
    (membersAt fragment "properties").lookup header.name = some (fieldOf type header)

/-- The names that a schema of headers requires. -/
def requiredNames (fragment : Json) : List String :=
  match fragment.get? "required" with
  | some (.arr items) => items.filterMap Json.text?
  | _ => []

/-- The names of the required headers, one for each of them. -/
def requiredOf (headers : List Parameter) : List String :=
  (headers.filter (·.required)).map (·.name)

theorem headerField_eq (components : Components) (header : Parameter) :
    ∃ type, HasFieldType components header type ∧
      headerField components header = fieldOf type header := by
  refine ⟨(headerType? components header).getD Gap.fallbackType, ?_, rfl⟩
  unfold HasFieldType
  simp only [← headerType?_eq_some]
  cases htype : headerType? components header with
  | none => exact Or.inr ⟨by simp, rfl⟩
  | some type => exact Or.inl rfl

section

variable {headers : List Parameter} {fragment : Json} (h : headerSchema? components headers = some fragment)

include h

/-- The schema of some headers has their fields, put one after the other, and lists those that are required. -/
theorem members_of_headerSchema? :
    fragment.get? "type" = some (.str "object") ∧
      membersAt fragment "properties" = headers.foldl
        (fun fields header => putMember header.name (headerField components header) fields) [] ∧
      fragment.get? "required" =
        if requiredOf headers = [] then none else some (.arr ((requiredOf headers).map Json.str)) := by
  unfold headerSchema? at h
  split at h
  · cases h
  · obtain rfl := Option.some.inj h
    refine ⟨rfl, rfl, ?_⟩
    have hmap : (headers.filter (·.required)).map (fun header => Json.str header.name) =
        (requiredOf headers).map Json.str := by
      rw [requiredOf, List.map_map]
      rfl
    simp only [hmap, List.isEmpty_map, List.isEmpty_iff]
    split <;> rfl

theorem describes_headerSchema? : Describes components headers fragment := by
  obtain ⟨htype, hfields, -⟩ := members_of_headerSchema? h
  refine ⟨htype, ?_, fun header hlast => ?_⟩
  · rw [hfields]
    exact keys_foldl_putMember _ _ headers
  · obtain ⟨front, back, rfl, hback⟩ := hlast
    obtain ⟨type, hhas, hfield⟩ := headerField_eq components header
    refine ⟨type, hhas, ?_⟩
    rw [hfields, ← hfield]
    exact lookup_foldl_putMember (fun header : Parameter => header.name)
      (headerField components) hback

theorem requiredNames_of_headerSchema? : requiredNames fragment = requiredOf headers := by
  obtain ⟨-, -, hrequired⟩ := members_of_headerSchema? h
  rw [requiredNames, hrequired]
  split
  · rename_i hitems
    split at hitems
    · cases hitems
    · obtain rfl := Json.arr.inj (Option.some.inj hitems)
      rw [List.filterMap_map]
      exact List.filterMap_some
  · rename_i hother
    split at hother
    · rename_i hnone
      exact hnone.symm
    · exact absurd rfl (hother _)

end

/-! ## The schema of a request -/

theorem headerSchema?_eq_none {headers : List Parameter} :
    headerSchema? components headers = none ↔ headers = [] := by
  unfold headerSchema?
  cases headers <;> simp

theorem fieldsOf_eq_nil {operation : Operation} :
    fieldsOf components operation = [] ↔
      ∀ parameter ∈ parametersOf components operation, ¬ IsField parameter := by
  simp [fieldsOf, List.filter_eq_nil_iff]

/-- The schema of a body is missing when none is asked for. -/
theorem resolveBody_fst_eq_none {operation : Operation} :
    (resolveBody components operation.requestBody).1 = none ↔
      ∀ target, ¬ AsksBodySchema components operation target := by
  rw [Option.eq_none_iff_forall_ne_some]
  exact forall_congr' fun target => not_congr resolveBody_fst_eq_some

/-- What was found out about an operation has the schema that the operation asks for. -/
structure Composite (components : Components) (operation : Operation) (found : Synthesis) : Prop where
  headers : found.headers?.isSome ↔ ∃ parameter ∈ parametersOf components operation, IsField parameter
  describes : ∀ fragment, found.headers? = some fragment →
    Describes components (fieldsOf components operation) fragment
  /-- There is no schema if there is neither a list of parameters nor a schema for the body. -/
  absent : found.schema = none ↔
    operation.parameters = none ∧ ∀ target, ¬ AsksBodySchema components operation target
  /-- The schema is empty if there is a list of parameters, but nothing to ask of headers and body. -/
  empty : found.schema.map (·.tree) = some (.obj []) ↔
    operation.parameters ≠ none ∧ (∀ parameter ∈ parametersOf components operation, ¬ IsField parameter) ∧
      ∀ target, ¬ AsksBodySchema components operation target
  /-- The schema has the headers first and then the body, as far as there is something to ask of them. -/
  order : ∀ schema, found.schema = some schema → ∃ members, schema.tree = .obj members ∧
    (members.map (·.1)).Sublist ["headers", "body"] ∧ members.lookup "headers" = found.headers? ∧
      ∀ target, members.lookup "body" = some target ↔ AsksBodySchema components operation target

theorem order_tree (schema : RequestSchema) :
    ∃ members, schema.tree = .obj members ∧ (members.map (·.1)).Sublist ["headers", "body"] ∧
      members.lookup "headers" = schema.headers ∧ members.lookup "body" = schema.body := by
  obtain ⟨headers, body⟩ := schema
  refine ⟨_, rfl, ?_⟩
  cases headers <;> cases body <;> simp [List.lookup_cons]

theorem tree_eq_empty {schema : RequestSchema} :
    schema.tree = .obj [] ↔ schema.headers = none ∧ schema.body = none := by
  obtain ⟨headers, body⟩ := schema
  cases headers <;> cases body <;> simp [RequestSchema.tree]

/-- The schema of a request is the one that its operation asks for. -/
theorem composite_synthesize (components : Components) (operation : Operation) :
    Composite components operation (synthesize components operation) := by
  have hheaders := headers?_synthesize components operation
  have hbody := body?_synthesize components operation
  have hschema := schema_synthesize components operation
  refine ⟨?_, fun fragment h => ?_, ?_, ?_, fun schema h => ?_⟩
  · rw [hheaders, Option.isSome_iff_ne_none, ne_eq, headerSchema?_eq_none, fieldsOf_eq_nil]
    simp
  · rw [hheaders] at h
    exact describes_headerSchema? h
  · rw [hschema, ← resolveBody_fst_eq_none]
    simp [not_or]
  · rw [hschema, ← resolveBody_fst_eq_none, ← fieldsOf_eq_nil,
      ← @headerSchema?_eq_none components (fieldsOf components operation)]
    split
    · rename_i hsome
      rw [Option.map_some, Option.some.injEq, tree_eq_empty]
      dsimp only
      refine ⟨fun ⟨hfields, hnone⟩ => ⟨?_, hfields, hnone⟩, fun h => h.2⟩
      rw [hnone] at hsome
      simpa [Option.isSome_iff_ne_none] using hsome
    · rename_i hnone
      rw [not_or, Option.not_isSome_iff_eq_none] at hnone
      exact ⟨fun h => absurd h (by simp), fun h => absurd hnone.1 h.1⟩
  · obtain ⟨members, htree, horder, hfirst, hsecond⟩ := order_tree schema
    rw [body?, h, Option.bind_some] at hbody
    refine ⟨members, htree, horder, ?_, fun target => ?_⟩
    · rw [hfirst, headers?, h, Option.bind_some]
    · rw [hsecond, hbody, resolveBody_fst_eq_some]

/-- A reference to a shared schema. -/
def countReference : Json := .obj [("$ref", .str "#/components/schemas/Count")]

/-- A reference to a shared schema that is itself a reference. -/
def aliasReference : Json := .obj [("$ref", .str "#/components/schemas/Alias")]

/-- Shared schemas with an alias, and a shared header whose schema is that alias. -/
def aliasComponents : Components where
  schemas := [("Alias", countReference), ("Count", .obj [("type", .str "integer")])]
  parameters := [("Page", { name := "X-Page", location := .header, schema := some aliasReference })]

/-- An operation with a repeated header, a shared one, a parameter that is no header, and a required body. -/
def aliasOperation : Operation where
  parameters := some
    [.item { name := "X-Count", location := .header, description := some "how many" },
     .reference "#/components/parameters/Page",
     .item { name := "limit", location := .query },
     .item { name := "X-Count", location := .header, schema := some countReference }]
  requestBody := some (.item { required := true,
                               content := [("application/json", { schema := some aliasReference })] })

/-- The last header with a name gives the field, and an alias is followed one step only. -/
theorem composite_synthesize_alias :
    ∃ fragment, (synthesize aliasComponents aliasOperation).headers? = some fragment ∧
      Describes aliasComponents (fieldsOf aliasComponents aliasOperation) fragment ∧
      membersAt fragment "properties" = [("X-Count", .obj [("type", .str "integer")]),
        ("X-Page", .obj [("type", .str "string")])] ∧
      AsksBodySchema aliasComponents aliasOperation countReference := by
  have hcomposite := composite_synthesize aliasComponents aliasOperation
  obtain ⟨members, htree, -, -, hbody⟩ := hcomposite.order _ rfl
  obtain rfl := Json.obj.inj htree
  exact ⟨_, rfl, hcomposite.describes _ rfl, rfl, (hbody _).mp rfl⟩

/-! ## Required names -/

/-- The list of required names in the schema of some headers fits its fields. -/
structure WellFormed (headers : List Parameter) (fragment : Json) : Prop where
  /-- The list holds names only, and there is none if it would be empty. -/
  listed : ∀ value, fragment.get? "required" = some value →
    requiredNames fragment ≠ [] ∧ value = .arr ((requiredNames fragment).map Json.str)
  nodup : (requiredNames fragment).Nodup
  /-- A name is listed exactly when the header that its field describes is required. -/
  fits : ∀ header, IsLast headers header →
    (header.name ∈ requiredNames fragment ↔ header.required = true)
  keys : requiredNames fragment ⊆ (membersAt fragment "properties").map (·.1)

/-- Of the headers with one name, only the last may be required. -/
def OnlyLastRequired (headers : List Parameter) : Prop :=
  headers.Pairwise fun first second => first.name = second.name → first.required = false

theorem mem_requiredOf {headers : List Parameter} {name : String} :
    name ∈ requiredOf headers ↔ ∃ header ∈ headers, header.required = true ∧ header.name = name := by
  simp only [requiredOf, List.mem_map, List.mem_filter, and_assoc]

/-- If no name is listed twice or without need, only the last header with a name is required. -/
theorem onlyLastRequired_of_nodup {headers : List Parameter} (hnodup : (requiredOf headers).Nodup)
    (hfits : ∀ header, IsLast headers header → header.name ∈ requiredOf headers →
      header.required = true) : OnlyLastRequired headers := by
  induction headers with
  | nil => exact List.Pairwise.nil
  | cons first rest ih =>
      have hsubset : requiredOf rest ⊆ requiredOf (first :: rest) := by
        intro name hname
        obtain ⟨header, hmem, hrequired⟩ := mem_requiredOf.mp hname
        exact mem_requiredOf.mpr ⟨header, List.mem_cons_of_mem _ hmem, hrequired⟩
      have hrestNodup : (requiredOf rest).Nodup := by
        refine hnodup.sublist ?_
        exact ((List.sublist_cons_self first rest).filter _).map _
      refine List.pairwise_cons.mpr ⟨fun second hsecond hname => ?_, ih hrestNodup ?_⟩
      · -- were the first header required, the last one with its name would be listed again
        by_contra hrequired
        rw [Bool.not_eq_false] at hrequired
        have hlisted : first.name ∈ requiredOf (first :: rest) :=
          mem_requiredOf.mpr ⟨first, List.mem_cons_self, hrequired, rfl⟩
        obtain ⟨last, hlast, hsame⟩ := exists_isLast (List.mem_map.mpr ⟨second, hsecond, hname.symm⟩)
        have hagain : last.required = true := hfits last (hlast.cons first) (hsame ▸ hlisted)
        rw [requiredOf, List.filter_cons_of_pos hrequired, List.map_cons, List.nodup_cons] at hnodup
        exact hnodup.1 (mem_requiredOf.mpr ⟨last, hlast.mem, hagain, hsame⟩)
      · intro header hlast hlisted
        exact hfits header (hlast.cons first) (hsubset hlisted)

theorem OnlyLastRequired.nodup {headers : List Parameter} (h : OnlyLastRequired headers) :
    (requiredOf headers).Nodup := by
  rw [requiredOf, List.Nodup, List.pairwise_map]
  refine (List.Pairwise.filter _ h).imp_of_mem fun hfirst _ himp hname => ?_
  have hrequired := (List.mem_filter.mp hfirst).2
  rw [himp hname] at hrequired
  cases hrequired

theorem OnlyLastRequired.required {headers : List Parameter} (h : OnlyLastRequired headers)
    {header : Parameter} (hlast : IsLast headers header) (hlisted : header.name ∈ requiredOf headers) :
    header.required = true := by
  obtain ⟨other, hother, hrequired, hname⟩ := mem_requiredOf.mp hlisted
  obtain ⟨front, back, rfl, hback⟩ := hlast
  rcases List.mem_append.mp hother with hfront | hrest
  · have hfalse := (List.pairwise_append.mp h).2.2 other hfront header List.mem_cons_self hname
    rw [hrequired] at hfalse
    cases hfalse
  · rcases List.mem_cons.mp hrest with rfl | hlater
    · exact hrequired
    · exact absurd hname (hback other hlater)

/-- The list of required names fits the fields exactly when only the last header with a name is required. -/
theorem wellFormed_iff {components : Components} {operation : Operation} {fragment : Json}
    (h : (synthesize components operation).headers? = some fragment) :
    Describes components (fieldsOf components operation) fragment ∧
      (WellFormed (fieldsOf components operation) fragment ↔
        OnlyLastRequired (fieldsOf components operation)) := by
  rw [headers?_synthesize] at h
  have hdescribes := describes_headerSchema? h
  have hnames := requiredNames_of_headerSchema? h
  obtain ⟨-, -, hrequired⟩ := members_of_headerSchema? h
  -- the fragment requires the names of all required headers, also of those a later one replaces
  refine ⟨hdescribes, ⟨fun hwell => ?_, fun honly => ?_⟩⟩
  · refine onlyLastRequired_of_nodup (hnames ▸ hwell.nodup) fun header hlast hlisted => ?_
    exact (hwell.fits header hlast).mp (hnames ▸ hlisted)
  · refine ⟨fun value hvalue => ?_, ?_, fun header hlast => ⟨fun hlisted => ?_, fun hasked => ?_⟩, ?_⟩
    · rw [hrequired] at hvalue
      split at hvalue
      · cases hvalue
      · rename_i hne
        rw [hnames]
        exact ⟨hne, (Option.some.inj hvalue).symm⟩
    · rw [hnames]
      exact honly.nodup
    · exact honly.required hlast (hnames ▸ hlisted)
    · rw [hnames]
      exact mem_requiredOf.mpr ⟨header, hlast.mem, hasked, rfl⟩
    · rw [hnames, hdescribes.keys]
      intro name hname
      obtain ⟨header, hheader, -, rfl⟩ := mem_requiredOf.mp hname
      exact List.mem_eraseDups.mpr (List.mem_map_of_mem hheader)

/-- A header of a type that need not be sent. -/
def optionalHeader (name type : String) : Parameter where
  name := name
  location := .header
  schema := some (.obj [("type", .str type)])

/-- A header of a type that must be sent. -/
def requiredHeader (name type : String) : Parameter :=
  { optionalHeader name type with required := true }

/-- Shared parameters with a required header. -/
def traceComponents : Components where
  parameters := [("Trace", requiredHeader "X-Trace" "string")]

/-- An operation with a header that is not required at first, and is by the reference that follows. -/
def settledOperation : Operation where
  parameters := some
    [.item (optionalHeader "X-Trace" "integer"), .reference "#/components/parameters/Trace"]

theorem wellFormed_iff_settled :
    ∃ fragment, (synthesize traceComponents settledOperation).headers? = some fragment ∧
      requiredNames fragment = ["X-Trace"] ∧
      WellFormed (fieldsOf traceComponents settledOperation) fragment := by
  have hfragment : (synthesize traceComponents settledOperation).headers? = some
      (.obj [("type", .str "object"), ("properties", .obj [("X-Trace", .obj [("type", .str "string")])]),
        ("required", .arr [.str "X-Trace"])]) := rfl
  have hfields : fieldsOf traceComponents settledOperation =
      [optionalHeader "X-Trace" "integer", requiredHeader "X-Trace" "string"] := rfl
  obtain ⟨-, hiff⟩ := wellFormed_iff hfragment
  refine ⟨_, hfragment, rfl, hiff.mpr ?_⟩
  rw [hfields]
  simp [OnlyLastRequired, optionalHeader]

/-- An operation with a header that is required twice, and one that is required and then not. -/
def repeatedOperation : Operation where
  parameters := some
    [.item (requiredHeader "X-Trace" "string"), .item (requiredHeader "X-Count" "integer"),
     .reference "#/components/parameters/Trace", .item (optionalHeader "X-Count" "string")]

/-- One name is listed twice, and another although the last header with it is not required. -/
theorem not_wellFormed_repeated :
    ∃ fragment, (synthesize traceComponents repeatedOperation).headers? = some fragment ∧
      requiredNames fragment = ["X-Trace", "X-Count", "X-Trace"] ∧
      IsLast (fieldsOf traceComponents repeatedOperation) (optionalHeader "X-Count" "string") ∧
      ¬ WellFormed (fieldsOf traceComponents repeatedOperation) fragment := by
  have hlast : IsLast (fieldsOf traceComponents repeatedOperation)
      (optionalHeader "X-Count" "string") :=
    ⟨[requiredHeader "X-Trace" "string", requiredHeader "X-Count" "integer",
      requiredHeader "X-Trace" "string"], [], rfl, by simp⟩
  refine ⟨_, rfl, rfl, hlast, fun hwell => ?_⟩
  exact absurd ((hwell.fits _ hlast).mp (by decide)) (by decide)

end RouteScaffold.Synthesis
