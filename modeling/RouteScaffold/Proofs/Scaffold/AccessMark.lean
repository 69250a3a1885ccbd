import RouteScaffold.Proofs.Scaffold.Determined
import RouteScaffold.Proofs.Synthesis.Headers
import RouteScaffold.Proofs.Text.Words

/-!
# The access mark

An operation is private when one of its parameters is a header named `Authorization`.  The first such header
gives the comment: the words of its description on a single line.  So the comment ends with the line that it
stands on, whatever the description is, and a scaffold with it is the scaffold without it and one line more
(`marksAccess_scaffold`).
-/

namespace RouteScaffold

open Document (Components Operation Parameter)
open OpenApi (Method membersAt)

namespace Synthesis

/-! ## The mark of an operation -/

/-- What was found out about an operation has the mark that its parameters call for. -/
structure MarksAccess (components : Components) (operation : Operation) (found : Synthesis) : Prop where
  /-- An operation is private if one of its parameters marks it. -/
  marked : found.access.isSome ↔ ∃ parameter ∈ parametersOf components operation, IsMarker parameter
  /-- The comment is made of the description of the first such parameter. -/
  comment : ∀ access, found.access = some access → ∃ front marker back,
    parametersOf components operation = front ++ marker :: back ∧ IsMarker marker ∧
      (∀ parameter ∈ front, ¬ IsMarker parameter) ∧
      access.comment = Text.collapsed (marker.description.getD "")
  /-- No such parameter has a field in the schema of the headers. -/
  unlisted : ∀ fragment, found.headers? = some fragment →
    "Authorization" ∉ (membersAt fragment "properties").map (·.1) ∧
      "Authorization" ∉ requiredNames fragment

variable {components : Components} {operation : Operation}

theorem name_ne_of_mem_fieldsOf {header : Parameter} (h : header ∈ fieldsOf components operation) :
    header.name ≠ "Authorization" :=
  (isField_of_mem_fieldsOf h).2

theorem bind_singleLine (description : Option String) :
    description.bind Text.singleLine = Text.collapsed (description.getD "") := by
  cases description with
  | none => rfl
  | some text => exact Text.singleLine_eq_collapsed text

theorem marksAccess_synthesize (components : Components) (operation : Operation) :
    MarksAccess components operation (synthesize components operation) := by
  have haccess := access_synthesize components operation
  refine ⟨?_, fun access h => ?_, fun fragment h => ?_⟩
  · rw [haccess, Option.isSome_map, List.find?_isSome]
    simp
  · rw [haccess] at h
    obtain ⟨marker, hfind, rfl⟩ := Option.map_eq_some_iff.mp h
    obtain ⟨hmarker, front, back, hlist, hfront⟩ := List.find?_eq_some_iff_append.mp hfind
    refine ⟨front, marker, back, hlist, of_decide_eq_true hmarker, fun parameter hmem => ?_,
      bind_singleLine _⟩
    simpa using hfront parameter hmem
  · rw [headers?_synthesize] at h
    constructor
    · rw [(describes_headerSchema? h).keys, List.mem_eraseDups, List.mem_map]
      rintro ⟨header, hheader, hname⟩
      exact name_ne_of_mem_fieldsOf hheader hname
    · rw [requiredNames_of_headerSchema? h, mem_requiredOf]
      rintro ⟨header, hheader, -, hname⟩
      exact name_ne_of_mem_fieldsOf hheader hname

theorem standsOnLine_of_access {access : Access} {comment : String}
    (h : (synthesize components operation).access = some access) (hcomment : access.comment = some comment) :
    Text.StandsOnLine comment := by
  rw [access_synthesize] at h
  obtain ⟨marker, -, rfl⟩ := Option.map_eq_some_iff.mp h
  obtain ⟨text, -, hline⟩ := Option.bind_eq_some_iff.mp hcomment
  exact Text.standsOnLine_of_singleLine hline

end Synthesis

namespace Scaffold

/-! ## The comment of a scaffold -/

/-- What a comment to the end of the line takes of a text that starts with it. -/
def lineComment (text : List Char) : List Char := text.takeWhile fun c => c ∉ Text.terminators

/-- A scaffold up to its access mark. -/
def beforeAccess (scaffold : Scaffold) : List Char :=
  scaffold.header ++ line [] ++ line ("const " ++ scaffold.binding ++ " = \x7b").toList

/-- A scaffold after its access mark. -/
def afterAccess (scaffold : Scaffold) : List Char :=
  scaffold.schemaLines ++ scaffold.handlerLines ++ line "\x7d;".toList ++ line [] ++
    (lastLine scaffold.style scaffold.method).toList

/-- The scaffold of an operation that is private without a comment. -/
def uncommented (scaffold : Scaffold) : Scaffold := { scaffold with access := some {} }

theorem toList_text_eq_access (scaffold : Scaffold) :
    scaffold.text.toList = scaffold.beforeAccess ++ scaffold.accessLines ++ scaffold.afterAccess := by
  rw [toList_text, bodyChars, beforeAccess, afterAccess]
  simp only [List.append_assoc]

theorem toList_text_uncommented (scaffold : Scaffold) :
    scaffold.uncommented.text.toList =
      scaffold.beforeAccess ++ (line "    private: true,".toList ++ scaffold.afterAccess) := by
  rw [toList_text_eq_access, List.append_assoc]
  rfl

/-- A comment without line terminators ends with its line. -/
theorem lineComment_append {comment : List Char} (h : ∀ c ∈ Text.terminators, c ∉ comment)
    (rest : List Char) : lineComment (comment ++ '\n' :: rest) = comment := by
  rw [lineComment, List.takeWhile_append_of_pos]
  · simp [Text.terminators]
  · intro c hc
    simpa using fun hterminator => h c hterminator hc

/-- The comment of a scaffold ends with the line that it stands on, and nothing else of the text depends on it. -/
def CommentStays (scaffold : Scaffold) (comment : String) : Prop :=
  ∃ rest, scaffold.text.toList =
      scaffold.beforeAccess ++ ("    ".toList ++ ("// ".toList ++ comment.toList ++ '\n' :: rest)) ∧
    lineComment ("// ".toList ++ comment.toList ++ '\n' :: rest) = "// ".toList ++ comment.toList ∧
    scaffold.uncommented.text.toList = scaffold.beforeAccess ++ rest

theorem commentStays_of_standsOnLine {scaffold : Scaffold} {comment : String}
    (haccess : scaffold.access = some ⟨some comment⟩) (hline : Text.StandsOnLine comment) :
    CommentStays scaffold comment := by
  have hne : comment ≠ "" := by
    rintro rfl
    obtain ⟨c, hc, -⟩ := hline.first
    cases hc
  have hmark : (Text.terminators.all fun c => c ∉ "// ".toList) = true := by decide
  have hopen : "    // ".toList = "    ".toList ++ "// ".toList := by decide
  refine ⟨line "    private: true,".toList ++ scaffold.afterAccess, ?_, ?_, ?_⟩
  · rw [toList_text_eq_access, accessLines_of_comment haccess hne, hopen]
    simp only [List.append_assoc, List.cons_append]
  · refine lineComment_append (fun c hc hmem => ?_) _
    rcases List.mem_append.mp hmem with hfirst | hcomment
    · exact of_decide_eq_true (List.all_eq_true.mp hmark c hc) hfirst
    · exact hline.unbroken c hc hcomment
  · exact toList_text_uncommented scaffold

/-- An operation is private by the first header named `Authorization`, whose description is the comment, on a single
line that ends before the code goes on. -/
theorem marksAccess_scaffold (components : Components) (operation : Operation) (route : Route)
    (method : Method) (style : Style) :
    Synthesis.MarksAccess components operation (Synthesis.synthesize components operation) ∧
      ∀ access comment, (Synthesis.synthesize components operation).access = some access →
        access.comment = some comment → Text.StandsOnLine comment ∧
          CommentStays (route.scaffold method style (Synthesis.synthesize components operation))
            comment := by
  refine ⟨Synthesis.marksAccess_synthesize components operation, fun access comment h hcomment => ?_⟩
  have hline := Synthesis.standsOnLine_of_access h hcomment
  refine ⟨hline, commentStays_of_standsOnLine ?_ hline⟩
  obtain ⟨found⟩ := access
  obtain rfl : found = some comment := hcomment
  exact h

/-- Shared parameters with a header for authorization, whose description has line terminators in it. -/
def bearerComponents : Components where
  parameters := [("Auth", { name := "Authorization", location := .header,
                            description := some "\u2028 Bearer\u0085\n token\u3000" })]

/-- An operation with several parameters named `Authorization`, and a reference that names no parameter. -/
def bearerOperation : Operation where
  parameters := some
    [.reference "#/components/parameters/Gone",
     .item { name := "Authorization", location := .query, description := some "in the query" },
     .reference "#/components/parameters/Auth",
     .item { name := "Authorization", location := .header, description := some "second" }]

theorem marksAccess_scaffold_bearer :
    (Synthesis.synthesize bearerComponents bearerOperation).access = some ⟨some "Bearer token"⟩ ∧
      Text.StandsOnLine "Bearer token" ∧
      CommentStays (Route.scaffold ⟨"/a", "/a", "out/a"⟩ .get .staticExport
        (Synthesis.synthesize bearerComponents bearerOperation)) "Bearer token" := by
  have haccess : (Synthesis.synthesize bearerComponents bearerOperation).access =
      some ⟨some "Bearer token"⟩ := by decide
  obtain ⟨-, hcomment⟩ := marksAccess_scaffold bearerComponents bearerOperation
    ⟨"/a", "/a", "out/a"⟩ .get .staticExport
  exact ⟨haccess, hcomment _ _ haccess rfl⟩

end Scaffold

end RouteScaffold
