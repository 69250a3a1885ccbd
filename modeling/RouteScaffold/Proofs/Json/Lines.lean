import RouteScaffold.Proofs.Json.Spaced

/-!
# The lines of the pretty form

The pretty form one level in is the pretty form with each line but the first indented once more
(`prettyChars_succ`), because no line break stands in a token.  So it is what its lines give when they are
joined again with an indentation between them (`indented_eq_intercalate`), and after each of its line breaks
there is the indentation (`indentation_of_indented`).
-/

namespace RouteScaffold.Json

/-- A text with an indentation after each line break. -/
def indented (text : List Char) : List Char :=
  text.flatMap fun c => if c = '\n' then lineBreak 1 else [c]

theorem indented_append (first second : List Char) :
    indented (first ++ second) = indented first ++ indented second :=
  List.flatMap_append

theorem indented_cons {c : Char} (hc : c ≠ '\n') (rest : List Char) :
    indented (c :: rest) = c :: indented rest := by
  rw [indented, List.flatMap_cons, if_neg hc]
  rfl

theorem indented_of_not_mem {text : List Char} (h : '\n' ∉ text) : indented text = text := by
  induction text with
  | nil => rfl
  | cons c rest ih =>
      rw [List.mem_cons, not_or] at h
      rw [indented_cons (Ne.symm h.1), ih h.2]

theorem indented_lineBreak (level : Nat) : indented (lineBreak level) = lineBreak (level + 1) := by
  have hspaces : '\n' ∉ List.replicate (4 * level) ' ' :=
    fun h => absurd (List.eq_of_mem_replicate h) (by decide)
  rw [lineBreak, indented, List.flatMap_cons, if_pos rfl, ← indented, indented_of_not_mem hspaces,
    lineBreak, lineBreak, List.cons_append, List.replicate_append_replicate, ← Nat.mul_add,
    Nat.add_comm]

theorem indented_intercalate {α : Type} {shown again : α → List Char} {gap wider : List Char}
    (hgap : indented gap = wider) {parts : List α}
    (hparts : ∀ part ∈ parts, indented (shown part) = again part) :
    indented (gap.intercalate (parts.map shown)) = wider.intercalate (parts.map again) := by
  rw [indented, flatMap_intercalate, ← indented, hgap]
  exact congrArg _ (List.map_congr_left hparts)

/-- No line break stands in a token. -/
theorem Token.break_not_mem_chars (token : Token) : '\n' ∉ token.chars :=
  fun h => absurd (List.all_eq_true.mp token.all_printable_chars '\n' h) (by decide)

/-- One level in, each line but the first is indented once more. -/
theorem prettyChars_succ (tree : Json) :
    ∀ level, indented (prettyChars level tree) = prettyChars (level + 1) tree := by
  have hcomma : ∀ level, indented (',' :: lineBreak level) = ',' :: lineBreak (level + 1) := by
    intro level
    rw [indented_cons (by decide), indented_lineBreak]
  induction tree using tree_induction with
  -- what holds nothing is on one line
  | null | bool | num | str =>
      intro level
      rw [prettyChars, prettyChars]
      exact indented_of_not_mem (Token.break_not_mem_chars _)
  | arr items ih =>
      intro level
      cases items with
      | nil => rfl
      | cons item rest =>
          rw [prettyChars, prettyChars, prettyItems_eq, prettyItems_eq,
            indented_cons (by decide), indented_append, indented_append, indented_append,
            indented_lineBreak, indented_lineBreak, indented_intercalate (hcomma _)
              fun item hitem => ih item hitem (level + 1)]
          rfl
  | obj members ih =>
      intro level
      cases members with
      | nil => rfl
      | cons member rest =>
          have hmember : ∀ other ∈ member :: rest,
              indented (memberChars (level + 1) other) = memberChars (level + 1 + 1) other := by
            intro other hother
            have hkey : indented (literal other.1) = literal other.1 :=
              indented_of_not_mem (Token.str other.1).break_not_mem_chars
            rw [memberChars, memberChars, indented_append, hkey, indented_cons (by decide),
              indented_cons (by decide), ih other hother]
          rw [prettyChars, prettyChars, prettyMembers_eq, prettyMembers_eq,
            indented_cons (by decide), indented_append, indented_append, indented_append,
            indented_lineBreak, indented_lineBreak, indented_intercalate (hcomma _) hmember]
          rfl

/-- What is indented is joined of its lines with the indentation between them. -/
theorem indented_eq_intercalate (text : List Char) :
    indented text = (lineBreak 1).intercalate (text.splitOn '\n') := by
  induction text with
  | nil => rfl
  | cons c rest ih =>
      obtain ⟨first, more, hlines⟩ := List.exists_cons_of_ne_nil (List.splitOn_ne_nil '\n' rest)
      rw [hlines] at ih
      by_cases hc : c = '\n'
      · subst hc
        rw [indented, List.flatMap_cons, if_pos rfl, ← indented, ih,
          List.splitOn_cons_eq_if_modifyHead, if_pos (by decide), hlines, List.intercalate_cons_cons,
          List.nil_append]
      · rw [indented_cons hc, ih, List.splitOn_cons_eq_if_modifyHead, if_neg (by simpa using hc),
          hlines, List.modifyHead_cons, List.intercalate_cons_cons_left]

/-- After each line break of what is indented there is the indentation. -/
theorem indentation_of_indented {text front back : List Char}
    (h : indented text = front ++ '\n' :: back) : List.replicate 4 ' ' <+: back := by
  induction text generalizing front with
  | nil => exact absurd h.symm (by simp [indented])
  | cons c rest ih =>
      by_cases hc : c = '\n'
      · subst hc
        rw [indented, List.flatMap_cons, if_pos rfl, ← indented, lineBreak] at h
        cases front with
        | nil => exact ⟨indented rest, (List.cons.inj h).2⟩
        | cons d more =>
            -- the break is not among the spaces of the indentation
            have hrest := (List.cons.inj h).2
            rcases List.append_eq_append_iff.mp hrest with ⟨middle, -, hback⟩ | ⟨middle, hspaces, hback⟩
            · exact ih hback
            · cases middle with
              | nil => exact ih (show indented rest = [] ++ '\n' :: back from hback.symm)
              | cons e tail =>
                  obtain ⟨rfl, -⟩ := List.cons.inj hback
                  have hmem : '\n' ∈ List.replicate (4 * 1) ' ' := hspaces ▸ by simp
                  exact absurd (List.eq_of_mem_replicate hmem) (by decide)
      · rw [indented_cons hc] at h
        cases front with
        | nil => exact absurd (List.cons.inj h).1 hc
        | cons d more => exact ih (List.cons.inj h).2

end RouteScaffold.Json
