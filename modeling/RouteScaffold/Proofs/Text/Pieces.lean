import Mathlib.Data.List.Basic
import RouteScaffold.Text.Pieces

/-!
# Laws of pieces

A slash separates: the pieces of two texts with a slash between them are the pieces of the one
followed by those of the other, and a text without a slash is one piece.  What comes after the start of a
text is the rest of it (`afterStart?_eq_some`).
-/

namespace RouteScaffold.Text

theorem slashPieces_cons_slash (rest : List Char) :
    slashPieces ('/' :: rest) = [] :: slashPieces rest := by
  rw [slashPieces, if_pos rfl]

theorem slashPieces_cons {c : Char} (hc : c ≠ '/') {rest piece : List Char}
    {more : List (List Char)} (hrest : slashPieces rest = piece :: more) :
    slashPieces (c :: rest) = (c :: piece) :: more := by
  rw [slashPieces, if_neg hc, hrest]

theorem exists_slashPieces_eq_cons (text : List Char) :
    ∃ piece more, slashPieces text = piece :: more := by
  induction text with
  | nil => exact ⟨[], [], rfl⟩
  | cons c rest ih =>
      by_cases hc : c = '/'
      · subst hc
        exact ⟨[], slashPieces rest, slashPieces_cons_slash rest⟩
      · obtain ⟨piece, more, hrest⟩ := ih
        exact ⟨c :: piece, more, slashPieces_cons hc hrest⟩

theorem slashPieces_append_slash (front back : List Char) :
    slashPieces (front ++ '/' :: back) = slashPieces front ++ slashPieces back := by
  induction front with
  | nil => exact slashPieces_cons_slash back
  | cons c rest ih =>
      by_cases hc : c = '/'
      · subst hc
        rw [List.cons_append, slashPieces_cons_slash, slashPieces_cons_slash, ih, List.cons_append]
      · obtain ⟨piece, more, hrest⟩ := exists_slashPieces_eq_cons rest
        rw [hrest, List.cons_append] at ih
        rw [List.cons_append, slashPieces_cons hc ih, slashPieces_cons hc hrest, List.cons_append]

theorem slashPieces_of_not_mem {text : List Char} (h : '/' ∉ text) : slashPieces text = [text] := by
  induction text with
  | nil => rfl
  | cons c rest ih =>
      simp only [List.mem_cons, not_or] at h
      exact slashPieces_cons (Ne.symm h.1) (ih h.2)

/-- The pieces of a text are what it is split into at its slashes. -/
theorem slashPieces_eq_splitOn (text : List Char) : slashPieces text = text.splitOn '/' := by
  induction text with
  | nil => rfl
  | cons c rest ih =>
      rw [List.splitOn_cons_eq_if_modifyHead, ← ih]
      by_cases hc : c = '/'
      · subst hc
        rw [slashPieces_cons_slash, if_pos (by decide)]
      · obtain ⟨piece, more, hrest⟩ := exists_slashPieces_eq_cons rest
        rw [slashPieces_cons hc hrest, if_neg (by simpa using hc), hrest, List.modifyHead_cons]

theorem slash_not_mem_of_mem_slashPieces {text piece : List Char} (h : piece ∈ slashPieces text) :
    '/' ∉ piece := by
  induction text generalizing piece with
  | nil => simp_all [slashPieces]
  | cons c rest ih =>
      by_cases hc : c = '/'
      · subst hc
        rw [slashPieces_cons_slash] at h
        rcases List.mem_cons.mp h with rfl | h
        · simp
        · exact ih h
      · obtain ⟨first, more, hrest⟩ := exists_slashPieces_eq_cons rest
        rw [slashPieces_cons hc hrest] at h
        rw [hrest] at ih
        rcases List.mem_cons.mp h with rfl | h
        · simp only [List.mem_cons, not_or]
          exact ⟨Ne.symm hc, ih (List.mem_cons_self ..)⟩
        · exact ih (List.mem_cons_of_mem _ h)

theorem afterStart?_append (start rest : String) : afterStart? start (start ++ rest) = some rest := by
  have hprefix : start.toList.isPrefixOf (start ++ rest).toList = true := by
    rw [List.isPrefixOf_iff_prefix, String.toList_append]
    exact List.prefix_append _ _
  rw [afterStart?, if_pos hprefix, String.toList_append, List.drop_left, String.ofList_toList]

theorem afterStart?_eq_some {start text rest : String} :
    afterStart? start text = some rest ↔ text = start ++ rest := by
  constructor
  · intro h
    rw [afterStart?] at h
    split at h
    · rename_i hprefix
      obtain ⟨more, hmore⟩ := List.isPrefixOf_iff_prefix.mp hprefix
      rw [← hmore, List.drop_left, Option.some.injEq] at h
      rw [← String.toList_inj, String.toList_append, ← h, String.toList_ofList, hmore]
    · simp at h
  · rintro rfl
    exact afterStart?_append start rest

end RouteScaffold.Text
