import Mathlib.Data.List.Infix

/-!
# Where a text can be cut

A scan ends at the first character that is not of its kind (`takeWhile_scanned`, `dropWhile_scanned`).  A
text is cut in one way only at a character that one side does not hold (`cut_first`, `cut_last`), and at
a pair of characters that do not stand side by side on one side (`cut_last_pair`).  A pair stands side by
side in two texts one after the other only where it stands in one of them or at the seam
(`pair_infix_append`).
-/

namespace RouteScaffold.Text

/-! ## At the end of a scan -/

section

variable {kind : Char → Bool} {front back : List Char} (hfront : ∀ c ∈ front, kind c = true)
  (hback : ∀ c ∈ back.head?, kind c = false)

include hfront hback

theorem takeWhile_scanned : (front ++ back).takeWhile kind = front := by
  rw [List.takeWhile_append_of_pos hfront]
  cases back with
  | nil => rw [List.takeWhile_nil, List.append_nil]
  | cons c rest => rw [List.takeWhile_cons_of_neg (by simp [hback c rfl]), List.append_nil]

theorem dropWhile_scanned : (front ++ back).dropWhile kind = back := by
  rw [List.dropWhile_append_of_pos hfront]
  cases back with
  | nil => rw [List.dropWhile_nil]
  | cons c rest => rw [List.dropWhile_cons_of_neg (by simp [hback c rfl])]

end

/-! ## At a character -/

section

variable {c : Char} {front back front' back' : List Char}

/-- A text is cut in one way at the first of its characters of a kind. -/
theorem cut_first (hfront : c ∉ front) (hfront' : c ∉ front')
    (h : front ++ c :: back = front' ++ c :: back') : front = front' ∧ back = back' := by
  induction front generalizing front' with
  | nil =>
      cases front' with
      | nil => exact ⟨rfl, (List.cons.inj h).2⟩
      | cons d rest => exact absurd ((List.cons.inj h).1 ▸ List.mem_cons_self) hfront'
  | cons d rest ih =>
      cases front' with
      | nil => exact absurd ((List.cons.inj h).1 ▸ List.mem_cons_self) hfront
      | cons e more =>
          obtain ⟨rfl, hrest⟩ := List.cons.inj h
          rw [List.mem_cons, not_or] at hfront hfront'
          obtain ⟨rfl, hback⟩ := ih hfront.2 hfront'.2 hrest
          exact ⟨rfl, hback⟩

/-- A text is cut in one way at the last of its characters of a kind. -/
theorem cut_last (hback : c ∉ back) (hback' : c ∉ back')
    (h : front ++ c :: back = front' ++ c :: back') : front = front' ∧ back = back' := by
  have hreverse : back.reverse ++ c :: front.reverse = back'.reverse ++ c :: front'.reverse := by
    simpa using congrArg List.reverse h
  obtain ⟨hbacks, hfronts⟩ :=
    cut_first (by simpa using hback) (by simpa using hback') hreverse
  exact ⟨List.reverse_inj.mp hfronts, List.reverse_inj.mp hbacks⟩

end

/-! ## At a pair -/

section

variable {p q : Char} {front back front' back' : List Char}

/-- Two cuts at a pair of different characters are one, or the one lies before the other. -/
theorem cut_pair (hne : p ≠ q) (h : front ++ p :: q :: back = front' ++ p :: q :: back') :
    (front = front' ∧ back = back') ∨
      (∃ middle, front' = front ++ p :: q :: middle ∧ back = middle ++ p :: q :: back') ∨
      ∃ middle, front = front' ++ p :: q :: middle ∧ back' = middle ++ p :: q :: back := by
  have hstep : ∀ {middle back back' : List Char}, p :: q :: back = middle ++ p :: q :: back' →
      (middle = [] ∧ back = back') ∨
        ∃ rest, middle = p :: q :: rest ∧ back = rest ++ p :: q :: back' := by
    intro middle back back' h
    match middle with
    | [] => exact Or.inl ⟨rfl, by simpa using h⟩
    | [_] => exact absurd (List.cons.inj (List.cons.inj h).2).1.symm hne
    | _ :: _ :: rest =>
        obtain ⟨rfl, hrest⟩ := List.cons.inj h
        obtain ⟨rfl, hback⟩ := List.cons.inj hrest
        exact Or.inr ⟨rest, rfl, hback⟩
  rcases List.append_eq_append_iff.mp h with ⟨middle, hfront, hback⟩ | ⟨middle, hfront, hback⟩
  · rcases hstep hback with ⟨rfl, hsame⟩ | ⟨rest, rfl, hrest⟩
    · exact Or.inl ⟨by simpa using hfront.symm, hsame⟩
    · exact Or.inr (Or.inl ⟨rest, hfront, hrest⟩)
  · rcases hstep hback with ⟨rfl, hsame⟩ | ⟨rest, rfl, hrest⟩
    · exact Or.inl ⟨by simpa using hfront, hsame.symm⟩
    · exact Or.inr (Or.inr ⟨rest, hfront, hrest⟩)

/-- No pair is before the first one. -/
theorem length_le_of_cut_pair (hne : p ≠ q) (hfront : ¬ [p, q] <:+: front)
    (h : front ++ p :: q :: back = front' ++ p :: q :: back') : front.length ≤ front'.length := by
  rcases cut_pair hne h with ⟨rfl, -⟩ | ⟨middle, rfl, -⟩ | ⟨middle, rfl, -⟩
  · exact le_refl _
  · simp
  · exact absurd ⟨front', middle, by simp⟩ hfront

/-- A text is cut in one way at the last of its pairs. -/
theorem cut_last_pair (hne : p ≠ q) (hback : ¬ [p, q] <:+: back) (hback' : ¬ [p, q] <:+: back')
    (h : front ++ p :: q :: back = front' ++ p :: q :: back') : front = front' ∧ back = back' := by
  rcases cut_pair hne h with hsame | ⟨middle, -, rfl⟩ | ⟨middle, -, rfl⟩
  · exact hsame
  · exact absurd ⟨middle, back', by simp⟩ hback
  · exact absurd ⟨middle, back, by simp⟩ hback'

/-- A pair in two texts one after the other stands in one of them, or at the seam. -/
theorem pair_infix_append {first second : List Char} (h : [p, q] <:+: first ++ second) :
    [p, q] <:+: first ∨ [p, q] <:+: second ∨
      (first.getLast? = some p ∧ second.head? = some q) := by
  induction first with
  | nil => exact Or.inr (Or.inl h)
  | cons c rest ih =>
      rcases List.infix_cons_iff.mp h with hhere | hlater
      · obtain ⟨rfl, hnext⟩ := List.cons_prefix_cons.mp hhere
        cases rest with
        | nil =>
            obtain ⟨more, rfl⟩ := hnext
            exact Or.inr (Or.inr ⟨rfl, rfl⟩)
        | cons d more =>
            obtain ⟨rfl, -⟩ := List.cons_prefix_cons.mp hnext
            exact Or.inl ⟨[], more, rfl⟩
      · rcases ih hlater with hfirst | hsecond | ⟨hlast, hhead⟩
        · exact Or.inl (List.infix_cons hfirst)
        · exact Or.inr (Or.inl hsecond)
        · refine Or.inr (Or.inr ⟨?_, hhead⟩)
          cases rest with
          | nil => cases hlast
          | cons d more => rwa [List.getLast?_cons_cons]

theorem pair_not_infix_append {first second : List Char} (hfirst : ¬ [p, q] <:+: first)
    (hsecond : ¬ [p, q] <:+: second) (hseam : first.getLast? = some p → second.head? ≠ some q) :
    ¬ [p, q] <:+: first ++ second := fun h => by
  rcases pair_infix_append h with hinner | hinner | ⟨hlast, hhead⟩
  · exact hfirst hinner
  · exact hsecond hinner
  · exact hseam hlast hhead

theorem pair_not_infix_cons {c : Char} {rest : List Char} (hrest : ¬ [p, q] <:+: rest)
    (hhere : c = p → rest.head? ≠ some q) : ¬ [p, q] <:+: c :: rest := by
  have hsingle : ¬ [p, q] <:+: [c] := fun h => absurd h.length_le (by simp)
  have hseam : [c].getLast? = some p → rest.head? ≠ some q := fun hlast =>
    hhere (Option.some.inj hlast)
  exact pair_not_infix_append hsingle hrest hseam

end

end RouteScaffold.Text
