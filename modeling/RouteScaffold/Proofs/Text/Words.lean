import Mathlib.Data.List.Basic
import RouteScaffold.Text.Blank

/-!
# Laws of words

The words of a text are the parts between its blanks that are not empty (`words_eq_splitOnP`), so that a
blank cuts a text in two (`words_append_blank`) and words with single spaces between them are read back
(`words_intercalate`).  From these follows what a text on a single line is like
(`standsOnLine_of_singleLine`): the only blanks in it are the spaces between its words, so that it stays on
its line whatever the text was, and putting it on a single line again changes nothing.
-/

namespace RouteScaffold.Text

/-! ## Words -/

/-- The parts of a text between its blanks that are not empty. -/
def partsBetweenBlanks (text : List Char) : List (List Char) :=
  (text.splitOnP isBlank).filter (· ≠ [])

theorem words_cons_blank {c : Char} (hc : isBlank c = true) (rest : List Char) :
    words (c :: rest) = words rest := by
  rw [words.eq_def]
  exact if_pos hc

theorem words_eq_splitOnP (text : List Char) : words text = partsBetweenBlanks text := by
  unfold partsBetweenBlanks
  induction text with
  | nil => simp [words, List.splitOnP_nil]
  | cons c rest ih =>
      rw [List.splitOnP_cons_eq_if_modifyHead]
      by_cases hc : isBlank c = true
      · rw [words_cons_blank hc, if_pos hc, ih]
        simp
      · rw [if_neg hc, words.eq_def]
        dsimp only
        rw [if_neg hc]
        -- whether the next character is a blank decides if the word ends here
        cases rest with
        | nil => simp [List.splitOnP_nil]
        | cons next more =>
            rw [List.splitOnP_cons_eq_if_modifyHead] at ih ⊢
            by_cases hnext : isBlank next = true
            · simp only [hnext, if_true] at ih ⊢
              simpa using ih
            · obtain ⟨part, parts, hparts⟩ := List.exists_cons_of_ne_nil
                (List.splitOnP_ne_nil isBlank more)
              simp only [hnext] at ih ⊢
              rw [hparts] at ih ⊢
              simp only [List.modifyHead_cons] at ih ⊢
              simp [ih]

/-- A blank cuts a text in two. -/
theorem words_append_blank {c : Char} (hc : isBlank c = true) (front back : List Char) :
    words (front ++ c :: back) = words front ++ words back := by
  simp only [words_eq_splitOnP, partsBetweenBlanks, List.splitOnP_append_cons front back hc,
    List.filter_append]

/-- A word is not empty and has no blank in it. -/
def IsWord (word : List Char) : Prop := word ≠ [] ∧ ∀ c ∈ word, isBlank c = false

theorem isWord_of_mem_words {text word : List Char} (h : word ∈ words text) : IsWord word := by
  fun_induction words text generalizing word with
  | case1 => cases h
  | case2 c rest hc ih => exact ih h
  | case3 c hc =>
      obtain rfl := List.mem_singleton.mp h
      exact ⟨List.cons_ne_nil _ _, by simpa using hc⟩
  | case4 c hc next more hnext ih =>
      rcases List.mem_cons.mp h with rfl | hmem
      · exact ⟨List.cons_ne_nil _ _, by simpa using hc⟩
      · exact ih hmem
  | case5 c hc next more hnext hnone ih =>
      rw [hnone] at h
      obtain rfl := List.mem_singleton.mp h
      exact ⟨List.cons_ne_nil _ _, by simpa using hc⟩
  | case6 c hc next more hnext first others hsome ih =>
      rw [hsome] at h ih
      rcases List.mem_cons.mp h with rfl | hmem
      · refine ⟨List.cons_ne_nil _ _, fun d hd => ?_⟩
        rcases List.mem_cons.mp hd with rfl | hfirst
        · simpa using hc
        · exact (ih List.mem_cons_self).2 d hfirst
      · exact ih (List.mem_cons_of_mem _ hmem)

theorem words_of_isWord {word : List Char} (h : IsWord word) : words word = [word] := by
  rw [words_eq_splitOnP, partsBetweenBlanks, List.splitOnP_eq_singleton h.2]
  simp [h.1]

/-! ## Words on a line -/

section

variable {found : List (List Char)} (hfound : ∀ word ∈ found, IsWord word)

include hfound

theorem words_intercalate : words ([' '].intercalate found) = found := by
  induction found with
  | nil => rfl
  | cons word rest ih =>
      have hword := words_of_isWord (hfound word List.mem_cons_self)
      cases rest with
      | nil => rw [List.intercalate_singleton, hword]
      | cons next more =>
          rw [List.intercalate_cons_cons, List.append_assoc, List.singleton_append,
            words_append_blank (by decide), hword,
            ih fun other hother => hfound other (List.mem_cons_of_mem _ hother)]
          rfl

/-- The blanks on a line of words are the spaces between them. -/
theorem eq_space_of_isBlank {c : Char} (hmem : c ∈ [' '].intercalate found)
    (hc : isBlank c = true) : c = ' ' := by
  have hword : ∀ word ∈ found, c ∉ word := by
    intro word hword hin
    rw [(hfound word hword).2 c hin] at hc
    cases hc
  induction found with
  | nil => cases hmem
  | cons word rest ih =>
      have hrest : ∀ other ∈ rest, IsWord other := fun other hother =>
        hfound other (List.mem_cons_of_mem _ hother)
      have hne := hword word List.mem_cons_self
      cases rest with
      | nil => exact absurd (by simpa using hmem) hne
      | cons next more =>
          rw [List.intercalate_cons_cons, List.mem_append, List.mem_append] at hmem
          rcases hmem with (hin | hspace) | hlater
          · exact absurd hin hne
          · exact List.mem_singleton.mp hspace
          · exact ih hrest hlater fun other hother => hword other (List.mem_cons_of_mem _ hother)

theorem isBlank_head?_intercalate {c : Char} (h : ([' '].intercalate found).head? = some c) :
    isBlank c = false := by
  cases found with
  | nil => cases h
  | cons word rest =>
      obtain ⟨hne, hblank⟩ := hfound word List.mem_cons_self
      have hhead : word.head? = some c := by
        cases rest with
        | nil => rwa [List.intercalate_singleton] at h
        | cons next more =>
            rwa [List.intercalate_cons_cons, List.append_assoc,
              List.head?_append_of_ne_nil _ hne] at h
      exact hblank c (List.mem_of_head? hhead)

theorem isBlank_getLast?_intercalate {c : Char} (h : ([' '].intercalate found).getLast? = some c) :
    isBlank c = false := by
  induction found with
  | nil => cases h
  | cons word rest ih =>
      have hrest : ∀ other ∈ rest, IsWord other := fun other hother =>
        hfound other (List.mem_cons_of_mem _ hother)
      cases rest with
      | nil =>
          rw [List.intercalate_singleton] at h
          exact (hfound word List.mem_cons_self).2 c (List.mem_of_getLast? h)
      | cons next more =>
          have hne : [' '].intercalate (next :: more) ≠ [] := by
            intro hnil
            have hwords := words_intercalate hrest
            rw [hnil] at hwords
            cases hwords
          rw [List.intercalate_cons_cons, List.getLast?_append_of_ne_nil _ hne] at h
          exact ih hrest h

end

/-! ## Texts on a single line -/

/-- The characters that end a line of a text somewhere: line feed, carriage return, next line, line separator
and paragraph separator. -/
def terminators : List Char := ['\n', '\r', '\u0085', '\u2028', '\u2029']

theorem isBlank_of_mem_terminators {c : Char} (h : c ∈ terminators) : isBlank c = true := by
  have hall : terminators.all isBlank = true := by decide
  exact List.all_eq_true.mp hall c h

/-- A text with its words on one line, one space between neighbours; nothing if it has no words. -/
def collapsed (text : String) : Option String :=
  if partsBetweenBlanks text.toList = [] then none
  else some (String.ofList ([' '].intercalate (partsBetweenBlanks text.toList)))

theorem singleLine_eq_collapsed (text : String) : singleLine text = collapsed text := by
  rw [singleLine, collapsed, ← words_eq_splitOnP]
  cases words text.toList with
  | nil => rfl
  | cons word rest => rfl

/-- What holds of a text on a single line. -/
structure StandsOnLine (line : String) : Prop where
  /-- It has no line terminator. -/
  unbroken : ∀ c ∈ terminators, c ∉ line.toList
  /-- It neither starts nor ends with a blank. -/
  first : ∃ c, line.toList.head? = some c ∧ isBlank c = false
  last : ∃ c, line.toList.getLast? = some c ∧ isBlank c = false
  /-- It is its own single line. -/
  settled : singleLine line = some line

theorem standsOnLine_of_singleLine {text line : String} (h : singleLine text = some line) :
    StandsOnLine line := by
  have hwords : ∀ word ∈ words text.toList, IsWord word := fun word => isWord_of_mem_words
  rw [singleLine] at h
  generalize hfound : words text.toList = found at h hwords
  cases found with
  | nil => cases h
  | cons word rest =>
      obtain rfl := Option.some.inj h
      -- the line has the words of the text, with one space between them
      have hagain := words_intercalate hwords
      have hne : [' '].intercalate (word :: rest) ≠ [] := by
        intro hnil
        rw [hnil] at hagain
        cases hagain
      refine ⟨fun c hc hmem => ?_, ?_, ?_, ?_⟩
      · rw [String.toList_ofList] at hmem
        obtain rfl := eq_space_of_isBlank hwords hmem (isBlank_of_mem_terminators hc)
        exact absurd hc (by decide)
      · obtain ⟨c, hc⟩ := Option.isSome_iff_exists.mp (List.isSome_head?.mpr hne)
        rw [String.toList_ofList]
        exact ⟨c, hc, isBlank_head?_intercalate hwords hc⟩
      · obtain ⟨c, hc⟩ := Option.isSome_iff_exists.mp (List.getLast?_isSome.mpr hne)
        rw [String.toList_ofList]
        exact ⟨c, hc, isBlank_getLast?_intercalate hwords hc⟩
      · rw [singleLine, String.toList_ofList, hagain]

example : singleLine "\u2029 Bearer\u3000 \n token\t" = some "Bearer token" := by decide

end RouteScaffold.Text
