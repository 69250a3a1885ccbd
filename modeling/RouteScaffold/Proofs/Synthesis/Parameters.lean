import RouteScaffold.Proofs.Synthesis.Reached

/-!
# The parameters of an operation

An operation lists entries, each of them a parameter or a reference to a shared one.  The parameters are
those that its entries stand for, one after the other (`parametersOf`), and every entry that stands for none
leaves a gap (`resolveParameters_eq`).  What is found out about an operation is made of its parameters and
of its body: the mark of the first authorization header (`access_synthesize`), the schema of the other
headers (`headers?_synthesize`), that of the body (`body?_synthesize`), and the gaps of all three
(`gaps_synthesize`).
-/

namespace RouteScaffold.Synthesis

open Document (Components Operation Parameter)
open OpenApi (OrReference)

/-! ## Entries -/

/-- The parameter that an entry stands for: the entry itself, or the shared parameter that it names. -/
def parameterOf? (components : Components) : OrReference Parameter → Option Parameter
  | .item parameter => some parameter
  | .reference text => components.parameter? text

/-- The reference that an entry is, if it names no shared parameter. -/
def danglingReference? (components : Components) : OrReference Parameter → Option String
  | .item _ => none
  | .reference text => if (components.parameter? text).isNone then some text else none

/-- The parameters that the entries of an operation stand for, in the order of the list. -/
def parametersOf (components : Components) (operation : Operation) : List Parameter :=
  (operation.parameters.getD []).filterMap (parameterOf? components)

/-- The references of an operation that name no shared parameter, in the order of the list. -/
def danglingReferences (components : Components) (operation : Operation) : List String :=
  (operation.parameters.getD []).filterMap (danglingReference? components)

theorem resolveParameters_eq (components : Components) (entries : List (OrReference Parameter)) :
    resolveParameters components entries =
      (entries.filterMap (parameterOf? components),
        (entries.filterMap (danglingReference? components)).map Gap.unresolvedParameter) := by
  induction entries with
  | nil => rfl
  | cons entry rest ih =>
      cases entry with
      | item parameter =>
          have hfound : parameterOf? components (.item parameter) = some parameter := rfl
          have hnone : danglingReference? components (.item parameter) = none := rfl
          rw [resolveParameters, ih, List.filterMap_cons_some hfound, List.filterMap_cons_none hnone]
      | reference text =>
          cases hfound : components.parameter? text <;>
            simp [resolveParameters, ih, parameterOf?, danglingReference?, hfound]

/-- A gap that the entries leave names one of them, a reference under which nothing is shared. -/
theorem exists_reference_of_mem_resolveParameters {components : Components}
    {entries : List (OrReference Parameter)} {gap : Gap}
    (h : gap ∈ (resolveParameters components entries).2) :
    ∃ text, .reference text ∈ entries ∧ components.parameter? text = none ∧
      gap = .unresolvedParameter text := by
  rw [resolveParameters_eq] at h
  obtain ⟨text, hmem, rfl⟩ := List.mem_map.mp h
  obtain ⟨entry, hentry, hdangling⟩ := List.mem_filterMap.mp hmem
  cases entry with
  | item parameter => cases hdangling
  | reference found =>
      rw [danglingReference?] at hdangling
      split at hdangling
      · rename_i hnone
        cases hdangling
        exact ⟨text, hentry, Option.isNone_iff_eq_none.mp hnone, rfl⟩
      · cases hdangling

/-! ## Headers -/

/-- A header with the name that marks an operation as private. -/
def IsMarker (parameter : Parameter) : Prop :=
  parameter.location = .header ∧ parameter.name = "Authorization"

/-- A header with another name. -/
def IsField (parameter : Parameter) : Prop :=
  parameter.location = .header ∧ parameter.name ≠ "Authorization"

instance : DecidablePred IsMarker := fun _ => inferInstanceAs (Decidable (_ ∧ _))

instance : DecidablePred IsField := fun _ => inferInstanceAs (Decidable (_ ∧ _))

/-- The headers that a request to an operation is described by. -/
def fieldsOf (components : Components) (operation : Operation) : List Parameter :=
  (parametersOf components operation).filter fun parameter => IsField parameter

theorem isField_of_mem_fieldsOf {components : Components} {operation : Operation} {header : Parameter}
    (h : header ∈ fieldsOf components operation) : IsField header :=
  of_decide_eq_true (List.mem_filter.mp h).2

theorem accessOf_headers (parameters : List Parameter) :
    accessOf (parameters.filter (·.location = .header)) =
      (parameters.find? fun parameter => IsMarker parameter).map fun marker =>
        { comment := marker.description.bind Text.singleLine } := by
  rw [accessOf, List.find?_filter]
  congr 2
  funext parameter
  rw [Bool.eq_iff_iff]
  simp only [isAuthorization, decide_eq_true_eq]
  rfl

theorem filter_not_isAuthorization (parameters : List Parameter) :
    (parameters.filter (·.location = .header)).filter (!isAuthorization ·) =
      parameters.filter fun parameter => IsField parameter := by
  rw [List.filter_filter]
  congr 1
  funext parameter
  rw [Bool.eq_iff_iff]
  simp only [Bool.and_eq_true, Bool.not_eq_true', isAuthorization, decide_eq_true_eq,
    decide_eq_false_iff_not]
  exact and_comm

/-! ## What is found out -/

/-- The schema of the headers. -/
def headers? (found : Synthesis) : Option Json := found.schema.bind (·.headers)

/-- The schema of the body. -/
def body? (found : Synthesis) : Option Json := found.schema.bind (·.body)

variable (components : Components) (operation : Operation)

theorem access_synthesize :
    (synthesize components operation).access =
      ((parametersOf components operation).find? fun parameter => IsMarker parameter).map fun marker =>
        { comment := marker.description.bind Text.singleLine } := by
  unfold synthesize
  rw [resolveParameters_eq]
  exact accessOf_headers _

theorem gaps_synthesize :
    (synthesize components operation).gaps =
      (danglingReferences components operation).map Gap.unresolvedParameter ++
        (fieldsOf components operation).filterMap (headerGap? components) ++
        (resolveBody components operation.requestBody).2.toList := by
  unfold synthesize
  rw [resolveParameters_eq]
  dsimp only
  rw [filter_not_isAuthorization]
  rfl

/-- Without a list of parameters there is no header. -/
theorem headerSchema?_of_parameters_eq_none (h : operation.parameters = none) :
    headerSchema? components (fieldsOf components operation) = none := by
  simp [fieldsOf, parametersOf, h, headerSchema?]

/-- There is a schema exactly when there is a list of parameters or something to say about the body. -/
theorem schema_synthesize :
    (synthesize components operation).schema =
      if operation.parameters.isSome ∨ (resolveBody components operation.requestBody).1.isSome then
        some ⟨headerSchema? components (fieldsOf components operation),
          (resolveBody components operation.requestBody).1⟩
      else none := by
  unfold synthesize
  rw [resolveParameters_eq]
  dsimp only
  rw [filter_not_isAuthorization]
  cases hparameters : operation.parameters with
  | none =>
      have hnone : headerSchema? components [] = none := rfl
      simp [fieldsOf, parametersOf, hparameters, hnone]
  | some entries => simp [fieldsOf, parametersOf, hparameters]

theorem headers?_synthesize :
    (synthesize components operation).headers? =
      headerSchema? components (fieldsOf components operation) := by
  rw [headers?, schema_synthesize]
  split
  · rfl
  · rename_i hnone
    rw [not_or, Option.not_isSome_iff_eq_none] at hnone
    exact (headerSchema?_of_parameters_eq_none components operation hnone.1).symm

theorem body?_synthesize :
    (synthesize components operation).body? =
      (resolveBody components operation.requestBody).1 := by
  rw [body?, schema_synthesize]
  split
  · rfl
  · rename_i hnone
    rw [not_or, Option.not_isSome_iff_eq_none, Option.not_isSome_iff_eq_none] at hnone
    exact hnone.2.symm

end RouteScaffold.Synthesis
