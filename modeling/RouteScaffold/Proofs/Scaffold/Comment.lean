import RouteScaffold.Proofs.Text.Seams
import RouteScaffold.Scaffold.Render

/-!
# The comment at the start of a scaffold

The path stands in the comment at the start, which its own text can not end: the first end of a comment in
a scaffold is the one the header has (`comment_ends_at_opening`).  The escape is undone by reading an
escaped end as an end, unless the path has an escaped end of its own (`uncommentText_commentText`).
-/

namespace RouteScaffold.Scaffold

open Text

/-- The two characters that end a comment. -/
def commentEnd : List Char := ['*', '/']

/-- A slash after a star as it stands in a comment. -/
def escapedEnd : List Char := ['*', '\\', '/']

/-- A text with each escaped end of a comment read as an end. -/
def uncommentText : List Char → List Char
  | '*' :: '\\' :: '/' :: rest => '*' :: '/' :: uncommentText rest
  | c :: rest => c :: uncommentText rest
  | [] => []

/-! ## The escape -/

/-- A path starts in the comment as it does by itself. -/
theorem head?_commentText (text : List Char) : (commentText text).head? = text.head? := by
  fun_cases commentText text <;> rfl

/-- A text in a comment does not end the comment. -/
theorem commentEnd_not_infix_commentText (text : List Char) :
    ¬ commentEnd <:+: commentText text := by
  fun_induction commentText text with
  | case1 rest ih =>
      -- the slash follows the backslash, not the star
      refine pair_not_infix_cons (pair_not_infix_cons (pair_not_infix_cons ih ?_) ?_) ?_
      · exact fun h => absurd h (by decide)
      · exact fun h => absurd h (by decide)
      · exact fun _ h => absurd (Option.some.inj h) (by decide)
  | case2 c rest hother ih =>
      refine pair_not_infix_cons ih fun hstar hslash => ?_
      rw [head?_commentText, List.head?_eq_some_iff] at hslash
      obtain ⟨more, hmore⟩ := hslash
      exact hother more hstar hmore
  | case3 => exact fun h => absurd h.length_le (by decide)

theorem uncommentText_cons {c : Char} {rest : List Char}
    (h : ¬ escapedEnd <+: c :: rest) : uncommentText (c :: rest) = c :: uncommentText rest := by
  rw [uncommentText]
  rintro more rfl rfl
  exact h ⟨more, rfl⟩

/-- What starts with a backslash and a slash in a comment does so by itself. -/
theorem prefix_of_prefix_commentText {text : List Char} (h : ['\\', '/'] <+: commentText text) :
    ['\\', '/'] <+: text := by
  revert h
  fun_cases commentText text with
  | case1 rest => exact fun h => absurd (List.cons_prefix_cons.mp h).1 (by decide)
  | case2 c rest hother =>
      intro h
      obtain ⟨rfl, hslash⟩ := List.cons_prefix_cons.mp h
      obtain ⟨more, hmore⟩ := List.cons_prefix_iff.mp hslash
      have hhead : rest.head? = some '/' := by
        rw [← head?_commentText, hmore.1]
        rfl
      obtain ⟨tail, rfl⟩ := List.head?_eq_some_iff.mp hhead
      exact ⟨tail, rfl⟩
  | case3 => exact fun h => absurd h.length_le (by decide)

/-- The escape is undone when nothing was escaped before. -/
theorem uncommentText_commentText {text : List Char} (h : ¬ escapedEnd <:+: text) :
    uncommentText (commentText text) = text := by
  fun_induction commentText text with
  | case1 rest ih =>
      rw [uncommentText, ih fun hrest => h (List.infix_cons (List.infix_cons hrest))]
  | case2 c rest hother ih =>
      rw [uncommentText_cons, ih fun hrest => h (List.infix_cons hrest)]
      -- an escaped end at the front of the comment would be one of the path itself
      intro hescaped
      obtain ⟨rfl, hrest⟩ := List.cons_prefix_cons.mp hescaped
      exact h (List.prefix_cons_iff.mpr (Or.inr ⟨_, rfl, prefix_of_prefix_commentText hrest⟩)).isInfix
  | case3 => rfl

/-! ## The header -/

/-- The lines of the header before the one of the operation. -/
def fixedLines : List Char :=
  ("/**\n * Generated REST API endpoint handler\n" ++
    " * @generator: openapi_route_scaffolder 0.1.0\n *\n").toList

/-- A scaffold up to the end of its comment. -/
def opening (scaffold : Scaffold) : List Char :=
  fixedLines ++ (" * ".toList ++ scaffold.method.upperName.toList ++ [' ']) ++
    (commentText scaffold.mapped.toList ++ ['\n', ' '])

/-- What follows the end of the comment. -/
def afterComment (scaffold : Scaffold) : List Char :=
  '\n' :: (line [] ++ line ("const " ++ scaffold.binding ++ " = \x7b").toList ++
    scaffold.accessLines ++ scaffold.schemaLines ++ scaffold.handlerLines ++
    line "\x7d;".toList ++ line [] ++
    line (scaffold.style.exportStatement scaffold.binding).toList)

theorem header_eq (scaffold : Scaffold) :
    scaffold.header = scaffold.opening ++ commentEnd ++ ['\n'] := by
  have hfixed : line "/**".toList ++ line " * Generated REST API endpoint handler".toList ++
      line (" * @generator: " ++ generatorName ++ " " ++ generatorVersion).toList ++
      line " *".toList = fixedLines := by decide +kernel
  have hend : line " */".toList = ' ' :: (commentEnd ++ ['\n']) := by decide
  rw [header, hfixed, hend, opening, line]
  simp only [List.append_assoc, List.cons_append, List.nil_append]

theorem chars_eq (scaffold : Scaffold) :
    scaffold.chars = scaffold.opening ++ commentEnd ++ scaffold.afterComment := by
  rw [chars, header_eq, afterComment]
  simp only [List.append_assoc, List.cons_append, List.nil_append]

/-- The comment does not end before the path. -/
theorem commentEnd_not_infix_front (method : OpenApi.Method) :
    ¬ commentEnd <:+: fixedLines ++ (" * ".toList ++ method.upperName.toList ++ [' ']) := by
  cases method <;> decide +kernel

theorem commentEnd_not_infix_opening (scaffold : Scaffold) :
    ¬ commentEnd <:+: scaffold.opening := by
  have htail : ¬ commentEnd <:+: commentText scaffold.mapped.toList ++ ['\n', ' '] := by
    refine pair_not_infix_append (commentEnd_not_infix_commentText _) (by decide) fun _ h => ?_
    exact absurd (Option.some.inj h) (by decide)
  refine pair_not_infix_append (commentEnd_not_infix_front _) htail fun h => ?_
  rw [← List.append_assoc, List.getLast?_append] at h
  exact absurd (Option.some.inj h) (by decide)

/-- The comment of a scaffold ends where its header ends it and not before, whatever the path is.  A path is
read back from the comment, unless an escaped end stands in the path itself. -/
theorem comment_ends_at_opening (scaffold : Scaffold) :
    (∃ back, scaffold.text.toList = scaffold.opening ++ commentEnd ++ back) ∧
      (∀ front back, scaffold.text.toList = front ++ commentEnd ++ back →
        scaffold.opening.length ≤ front.length) ∧
      ∀ path : List Char, ¬ escapedEnd <:+: path → uncommentText (commentText path) = path := by
  have hchars : scaffold.text.toList = scaffold.opening ++ commentEnd ++ scaffold.afterComment := by
    rw [text, String.toList_ofList, chars_eq]
  refine ⟨⟨_, hchars⟩, fun front back h => ?_, fun path => uncommentText_commentText⟩
  have hcut : scaffold.opening ++ '*' :: '/' :: scaffold.afterComment = front ++ '*' :: '/' :: back := by
    rw [hchars] at h
    simpa [commentEnd] using h
  exact length_le_of_cut_pair (by decide) (commentEnd_not_infix_opening scaffold) hcut

/-- A module for a path with ends of comments that overlap with each other and with the end of the line. -/
def starredScaffold : Scaffold where
  file := "get.ts"
  method := .get
  template := "/**/*/\\/*"
  mapped := "/**/*/\\/*"
  access := none
  schema := none
  style := .staticExport

theorem comment_ends_at_opening_starred :
    starredScaffold.opening =
        fixedLines ++ " * GET /**\\/*\\/\\/*\n ".toList ∧
      (∀ front back, starredScaffold.text.toList = front ++ commentEnd ++ back →
        starredScaffold.opening.length ≤ front.length) ∧
      ¬ escapedEnd <:+: starredScaffold.mapped.toList ∧
      uncommentText "/**\\/*\\/\\/*".toList = starredScaffold.mapped.toList := by
  obtain ⟨-, hfirst, hback⟩ := comment_ends_at_opening starredScaffold
  have hfree : ¬ escapedEnd <:+: starredScaffold.mapped.toList := by decide
  have hescaped : commentText starredScaffold.mapped.toList = "/**\\/*\\/\\/*".toList := by decide
  refine ⟨by decide +kernel, hfirst, hfree, ?_⟩
  rw [← hescaped]
  exact hback _ hfree

end RouteScaffold.Scaffold
