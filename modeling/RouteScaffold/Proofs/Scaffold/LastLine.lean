import RouteScaffold.Proofs.Text.Seams
import RouteScaffold.Scaffold.Render

/-!
# The last line of a scaffold

The style decides the last line of a scaffold and nothing else of its text (`text_eq`), and the last line
tells the style and the method (`eq_of_text_eq`).
-/

namespace RouteScaffold.Scaffold

open OpenApi (Method)
open Text

/-- The characters of a scaffold before its last line. -/
def bodyChars (scaffold : Scaffold) : List Char :=
  scaffold.header ++ line [] ++ line ("const " ++ scaffold.binding ++ " = \x7b").toList ++
    scaffold.accessLines ++ scaffold.schemaLines ++ scaffold.handlerLines ++ line "\x7d;".toList ++
    line []

/-- The last line of a method's module. -/
def lastLine : Style → Method → String
  | .staticExport, method => "export default " ++ (method.name ++ "Route") ++ ";" ++ "\n"
  | .dynamicAssignment, method => "module.exports = " ++ (method.name ++ "Route") ++ ";" ++ "\n"

theorem text_eq (scaffold : Scaffold) :
    scaffold.text = String.ofList scaffold.bodyChars ++ lastLine scaffold.style scaffold.method := by
  have hstatement : scaffold.style.exportStatement scaffold.binding ++ "\n" =
      lastLine scaffold.style scaffold.method := by
    cases scaffold.style <;> rfl
  have hline : line (scaffold.style.exportStatement scaffold.binding).toList =
      (lastLine scaffold.style scaffold.method).toList := by
    rw [← hstatement, String.toList_append]
    rfl
  rw [text, chars, hline, ← String.ofList_toList (s := lastLine _ _), ← String.ofList_append,
    String.ofList_toList]
  rfl

theorem toList_text (scaffold : Scaffold) :
    scaffold.text.toList =
      scaffold.bodyChars ++ (lastLine scaffold.style scaffold.method).toList := by
  rw [text_eq, String.toList_append, String.toList_ofList]

/-! ## Reading the last line -/

/-- The words of a style before the name it exports. -/
def exportWords : Style → List Char
  | .staticExport => "export default ".toList
  | .dynamicAssignment => "module.exports = ".toList

theorem toList_lastLine (style : Style) (method : Method) :
    (lastLine style method).toList =
      line (exportWords style ++ (method.name.toList ++ "Route;".toList)) := by
  have happend : ∀ words name noun mark ending : String,
      (words ++ (name ++ noun) ++ mark ++ ending).toList =
        words.toList ++ (name.toList ++ (noun.toList ++ (mark.toList ++ ending.toList))) := by
    intros
    simp only [String.toList_append, List.append_assoc]
  have hend : "Route".toList ++ (";".toList ++ "\n".toList) = "Route;".toList ++ ['\n'] := by decide
  have hline : ∀ words name : List Char,
      words ++ (name ++ ("Route".toList ++ (";".toList ++ "\n".toList))) =
        line (words ++ (name ++ "Route;".toList)) := by
    intro words name
    rw [hend, line, List.append_assoc, List.append_assoc]
  cases style with
  | staticExport => exact (happend ..).trans (hline ..)
  | dynamicAssignment => exact (happend ..).trans (hline ..)

theorem break_not_mem_exported (style : Style) (method : Method) :
    '\n' ∉ exportWords style ++ (method.name.toList ++ "Route;".toList) := by
  have hwords : '\n' ∉ exportWords style := by cases style <;> decide
  have hname : '\n' ∉ method.name.toList := by cases method <;> decide
  have hroute : '\n' ∉ "Route;".toList := by decide
  simp only [List.mem_append, not_or]
  exact ⟨hwords, hname, hroute⟩

theorem name_toList_injective {method other : Method}
    (h : method.name.toList = other.name.toList) : method = other := by
  cases method <;> cases other <;> first | rfl | exact absurd h (by decide)

theorem exported_injective {first second : Style} {method other : Method}
    (h : exportWords first ++ (method.name.toList ++ "Route;".toList) =
      exportWords second ++ (other.name.toList ++ "Route;".toList)) :
    first = second ∧ method = other := by
  have hhead : (exportWords first).head? = (exportWords second).head? := by
    have hsome : ∀ style, (exportWords style).head?.isSome := by
      intro style
      cases style <;> decide
    have hboth := congrArg List.head? h
    rwa [List.head?_append_of_ne_nil _ (by simpa using hsome first),
      List.head?_append_of_ne_nil _ (by simpa using hsome second)] at hboth
  have hstyle : first = second := by
    revert hhead
    cases first <;> cases second <;> decide
  subst hstyle
  exact ⟨rfl, name_toList_injective (List.append_cancel_right (List.append_cancel_left h))⟩

/-- The text of a scaffold tells its style and its method, and what precedes its last line. -/
theorem eq_of_text_eq {first second : Scaffold} (h : first.text = second.text) :
    first.bodyChars = second.bodyChars ∧ first.style = second.style ∧
      first.method = second.method := by
  -- the last line follows an empty line
  have hbody : ∀ scaffold : Scaffold, ∃ front, scaffold.bodyChars = front ++ ['\n'] :=
    fun scaffold => ⟨_, rfl⟩
  obtain ⟨front, hfront⟩ := hbody first
  obtain ⟨front', hfront'⟩ := hbody second
  have hchars := congrArg String.toList h
  rw [toList_text, toList_text, hfront, hfront', toList_lastLine, toList_lastLine, line, line,
    ← List.append_assoc, ← List.append_assoc (front' ++ _), List.append_left_inj,
    List.append_assoc front, List.append_assoc front'] at hchars
  obtain ⟨hfronts, hexported⟩ := cut_last (break_not_mem_exported _ _)
    (break_not_mem_exported _ _) hchars
  obtain ⟨hstyle, hmethod⟩ := exported_injective hexported
  exact ⟨by rw [hfront, hfront', hfronts], hstyle, hmethod⟩

end RouteScaffold.Scaffold
