import Mathlib.Data.Nat.Digits.Defs
import RouteScaffold.Number.Basic

/-!
# The characters of numbers

The text of a number is not empty and has only the characters of numerals: digits, signs, the point and the
mark of an exponent (`isNumeral_of_mem_text`).
-/

namespace RouteScaffold.Number

/-- A character that may stand in the text of a number. -/
def isNumeral (c : Char) : Bool :=
  c.isDigit || c = '-' || c = '+' || c = '.' || c = 'e' || c = 'E'

/-- Only characters of numerals stand in a text. -/
def AllNumeral (text : List Char) : Prop := ∀ c ∈ text, isNumeral c = true

theorem AllNumeral.nil : AllNumeral [] := fun _ h => absurd h List.not_mem_nil

theorem AllNumeral.cons {c : Char} {rest : List Char} (hc : isNumeral c = true)
    (hrest : AllNumeral rest) : AllNumeral (c :: rest) :=
  List.forall_mem_cons.mpr ⟨hc, hrest⟩

theorem AllNumeral.append {first second : List Char} (hfirst : AllNumeral first)
    (hsecond : AllNumeral second) : AllNumeral (first ++ second) :=
  List.forall_mem_append.mpr ⟨hfirst, hsecond⟩

theorem AllNumeral.of_subset {first second : List Char} (h : first ⊆ second)
    (hsecond : AllNumeral second) : AllNumeral first :=
  fun c hc => hsecond c (h hc)

theorem allNumeral_toDigits (value : Nat) : AllNumeral (Nat.toDigits 10 value) := by
  intro c hc
  rw [isNumeral, Nat.isDigit_of_mem_toDigits (by decide) (by decide) hc]
  rfl

theorem allNumeral_replicate (count : Nat) : AllNumeral (List.replicate count '0') := by
  intro c hc
  rw [List.eq_of_mem_replicate hc]
  rfl

theorem dropTrailingZeros_subset (digits : List Char) : dropTrailingZeros digits ⊆ digits := by
  cases digits with
  | nil => exact fun _ h => h
  | cons first rest =>
      refine List.cons_subset_cons first fun c hc => ?_
      rw [List.mem_reverse] at hc
      exact List.mem_reverse.mp ((List.dropWhile_sublist _).subset hc)

theorem allNumeral_pointed {digits : List Char} (h : AllNumeral digits) :
    AllNumeral (pointed digits) := by
  match digits with
  | [] => exact h
  | [_] => exact h
  | first :: second :: rest =>
      have hparts := List.forall_mem_cons.mp h
      exact .cons hparts.1 (.cons rfl hparts.2)

theorem allNumeral_plain {digits : List Char} (h : AllNumeral digits) (exponent : Int) :
    AllNumeral (plain digits exponent) := by
  rw [plain]
  split
  · exact .cons rfl (.cons rfl ((allNumeral_replicate _).append h))
  · refine (AllNumeral.append (.of_subset (List.take_subset _ _) h)
      (allNumeral_replicate _)).append (.cons rfl ?_)
    split
    · exact .cons rfl .nil
    · exact .of_subset (List.drop_subset _ _) h

theorem plain_ne_nil (digits : List Char) (exponent : Int) : plain digits exponent ≠ [] := by
  rw [plain]
  split
  · exact List.cons_ne_nil _ _
  · exact List.append_ne_nil_of_right_ne_nil _ (List.cons_ne_nil _ _)

theorem allNumeral_sign (negative : Prop) [Decidable negative] :
    AllNumeral (if negative then ['-'] else []) := by
  split
  · exact .cons rfl .nil
  · exact .nil

/-- A real number is written plainly or with an exponent. -/
theorem realText_cases (x : Binary64) :
    ∃ (exponent : Int) (digits : List Char), digits = dropTrailingZeros (Nat.toDigits 10 x.shortest.1) ∧
      (realText x = (if x.negative then ['-'] else []) ++ plain digits exponent ∨
        realText x = (if x.negative then ['-'] else []) ++ pointed digits ++
          'e' :: (if exponent < 0 then '-' else '+') :: Nat.toDigits 10 exponent.natAbs) := by
  refine ⟨x.shortest.2 + (Nat.toDigits 10 x.shortest.1).length - 1, _, rfl, ?_⟩
  rw [realText]
  dsimp only
  split
  · exact Or.inl rfl
  · exact Or.inr rfl

theorem allNumeral_realText (x : Binary64) : AllNumeral (realText x) := by
  obtain ⟨exponent, digits, hdigits, hplain | hpointed⟩ := realText_cases x
  all_goals
    have hall : AllNumeral digits :=
      hdigits ▸ .of_subset (dropTrailingZeros_subset _) (allNumeral_toDigits _)
  · rw [hplain]
    exact (allNumeral_sign _).append (allNumeral_plain hall _)
  · rw [hpointed]
    refine ((allNumeral_sign _).append (allNumeral_pointed hall)).append
      (.cons rfl (.cons ?_ (allNumeral_toDigits _)))
    split <;> rfl

theorem realText_ne_nil (x : Binary64) : realText x ≠ [] := by
  obtain ⟨exponent, digits, -, hplain | hpointed⟩ := realText_cases x
  · rw [hplain]
    exact List.append_ne_nil_of_right_ne_nil _ (plain_ne_nil _ _)
  · rw [hpointed]
    exact List.append_ne_nil_of_right_ne_nil _ (List.cons_ne_nil _ _)

/-- Only characters of numerals stand in the text of a number. -/
theorem isNumeral_of_mem_text (number : Number) : AllNumeral number.text := by
  cases number with
  | int value => exact (allNumeral_sign _).append (allNumeral_toDigits _)
  | real value => exact allNumeral_realText value

theorem text_ne_nil (number : Number) : number.text ≠ [] := by
  cases number with
  | int value => exact List.append_ne_nil_of_right_ne_nil _ Nat.toDigits_ne_nil
  | real value => exact realText_ne_nil value

end RouteScaffold.Number
