import RouteScaffold.Json.Reader
import RouteScaffold.Proofs.Json.Distinct
import RouteScaffold.Proofs.Json.Spaced

/-!
# Reading trees back

Tokens with blanks between them are cut into these tokens again (`lexemes_of_spaced`), and the reader makes
of the tokens of a tree the tree (`parse_of_spaced`), if no object in it has two members with one key and it
does not nest deeper than the reader allows.  Integers are read back (`readsBack_int`).
-/

namespace RouteScaffold.Json

/-! ## Tokens -/

/-- A number is read back from its text, whatever follows that does not go on with a numeral. -/
def ReadsBack (number : Number) : Prop :=
  ∀ (place : Position) (c : Char) (chars rest : List Char), number.text = c :: chars → Stops rest →
    ∃ next, lexeme place c (chars ++ rest) = (.token (.num number), next, rest)

/-- The first lexeme of a text that starts with a token is the token. -/
theorem lexeme_token {token : Token} {c : Char} {chars rest : List Char}
    (hchars : token.chars = c :: chars)
    (hnumber : ∀ number, token = .num number → ReadsBack number ∧ Stops rest) (place : Position) :
    ∃ next, lexeme place c (chars ++ rest) = (.token token, next, rest) := by
  cases token with
  | num number =>
      obtain ⟨hread, hstops⟩ := hnumber number rfl
      exact hread place c chars rest hchars hstops
  | str text =>
      obtain ⟨rfl, rfl⟩ := List.cons.inj hchars
      obtain ⟨next, hbody⟩ := stringBody_literal (place.after '"') [] text.toList rest
      refine ⟨next, ?_⟩
      rw [List.append_assoc]
      simp only [lexeme]
      rw [show ['"'] ++ rest = '"' :: rest from rfl, hbody]
      simp [Except.map]
  | bool value => cases value <;> (obtain ⟨rfl, rfl⟩ := List.cons.inj hchars; exact ⟨_, rfl⟩)
  | _ => obtain ⟨rfl, rfl⟩ := List.cons.inj hchars; exact ⟨_, rfl⟩

/-- A text of tokens with blanks between them is cut into these tokens. -/
theorem lexemes_of_spaced {tokens : List Token} {text : List Char} (h : Spaced tokens text)
    (hnumbers : ∀ number, .num number ∈ tokens → ReadsBack number) :
    ∀ (fuel : Nat) (place : Position), text.length ≤ fuel →
      (lexemes fuel place text).1.map (·.lexeme) = tokens.map Lexeme.token := by
  induction h with
  | nil => intro fuel place _; cases fuel <;> rfl
  | @blank c tokens text hc _ ih =>
      intro fuel place hfuel
      cases fuel with
      | zero => cases hfuel
      | succ fuel =>
          rw [lexemes, if_pos hc]
          exact ih hnumbers fuel _ (Nat.le_of_succ_le_succ hfuel)
  | @token token tokens text hstops _ ih =>
      intro fuel place hfuel
      obtain ⟨chars, hchars⟩ := token.chars_eq_cons
      rw [hchars, List.cons_append] at hfuel ⊢
      cases fuel with
      | zero => cases hfuel
      | succ fuel =>
          have hread : ∀ number, token = .num number → ReadsBack number ∧ Stops text :=
            fun number hnumber =>
              ⟨hnumbers number (hnumber ▸ List.mem_cons_self), hstops number hnumber⟩
          obtain ⟨next, hfirst⟩ := lexeme_token hchars hread place
          have hlength : text.length ≤ fuel := by
            rw [List.length_cons, List.length_append] at hfuel
            omega
          rw [lexemes, if_neg (by simp [token.lead_not_space]), hfirst]
          simp only [List.map_cons]
          rw [ih (fun number hnumber => hnumbers number (List.mem_cons_of_mem _ hnumber)) fuel next
            hlength]

/-! ## Integers -/

theorem le_ofDigitChars (digits : List Char) (start : Nat) :
    start ≤ Nat.ofDigitChars 10 digits start := by
  induction digits generalizing start with
  | nil => rfl
  | cons c rest ih =>
      rw [Nat.ofDigitChars_cons]
      exact le_trans (by omega) (ih _)

/-- Digits are read completely when their number is in bounds. -/
theorem extendSignificand_eq (digits : List Char) (start : Nat)
    (h : Nat.ofDigitChars 10 digits start ≤ greatestSignificand) :
    extendSignificand start digits = (Nat.ofDigitChars 10 digits start, []) := by
  induction digits generalizing start with
  | nil => rfl
  | cons c rest ih =>
      have hnext : start * 10 + digitValue c = 10 * start + (c.toNat - '0'.toNat) := by
        rw [digitValue, Nat.mul_comm]
      rw [Nat.ofDigitChars_cons] at h ⊢
      rw [extendSignificand]
      simp only [hnext]
      rw [if_pos ((le_ofDigitChars rest _).trans h), ih _ h]

/-- Only the number zero starts with a zero. -/
theorem head?_toDigits {value : Nat} (h : 0 < value) : (Nat.toDigits 10 value).head? ≠ some '0' := by
  induction value using Nat.strongRecOn with
  | ind value ih =>
      rw [Nat.toDigits_eq_if (by decide)]
      split
      · have hdigit : ∀ digit < 10, 0 < digit → Nat.digitChar digit ≠ '0' := by decide
        simpa using hdigit value ‹_› h
      · rw [List.head?_append_of_ne_nil _ Nat.toDigits_ne_nil]
        exact ih _ (by omega) (by omega)

theorem isDigit_of_mem_toDigits {value : Nat} {c : Char} (hc : c ∈ Nat.toDigits 10 value) :
    c.isDigit = true :=
  Nat.isDigit_of_mem_toDigits (by decide) (by decide) hc

/-- Where no numeral goes on there is no digit, no point and no exponent. -/
theorem Stops.head {rest : List Char} (h : Stops rest) :
    ∀ c ∈ rest.head?, c.isDigit = false ∧ c ≠ '.' ∧ c ≠ 'e' ∧ c ≠ 'E' := by
  intro c hc
  have hnumeral := h c hc
  simp only [Number.isNumeral, Bool.or_eq_false_iff, decide_eq_false_iff_not, and_assoc] at hnumeral
  exact ⟨hnumeral.1, hnumeral.2.2.2⟩

theorem extendSignificand_toDigits {value : Nat} (h : value ≤ greatestSignificand) :
    extendSignificand 0 (Nat.toDigits 10 value) = (value, []) := by
  have hback : Nat.ofDigitChars 10 (Nat.toDigits 10 value) 0 = value := Nat.ofDigitChars_ten_toDigits
  rw [extendSignificand_eq _ _ (by rwa [hback]), hback]

/-- The digits of a number are read as the number. -/
theorem numberBody_toDigits (negative : Bool) (value : Nat) (hbound : value ≤ greatestSignificand)
    (hnegative : negative = true → 0 < value ∧ value ≤ Nat.pow 2 63) (place : Position)
    {rest : List Char} (hstops : Stops rest) :
    ∃ next, numberBody negative place (Nat.toDigits 10 value ++ rest) =
      .ok (.int (if negative then -(value : Int) else value), next, rest) := by
  have hdigits : ∀ c ∈ Nat.toDigits 10 value, c.isDigit = true := fun c => isDigit_of_mem_toDigits
  have hrest := hstops.head
  rw [numberBody]
  simp only [Text.takeWhile_scanned hdigits fun c hc => (hrest c hc).1,
    Text.dropWhile_scanned hdigits fun c hc => (hrest c hc).1]
  split
  · exact absurd ‹_› Nat.toDigits_ne_nil
  · -- two digits are not those of zero, and no other number starts with a zero
    rename_i next more hzero
    have hpositive : 0 < value := by
      by_contra hnot
      rw [Nat.eq_zero_of_not_pos hnot, Nat.toDigits_zero] at hzero
      simp at hzero
    exact absurd (by rw [hzero]; rfl) (head?_toDigits hpositive)
  · simp only [extendSignificand_toDigits hbound]
    split
    · exact absurd rfl (hrest '.' rfl).2.1
    split
    · rename_i hhead
      exact absurd rfl (hrest 'e' hhead).2.2.1
    · rename_i hhead
      exact absurd rfl (hrest 'E' hhead).2.2.2
    · cases negative with
      | false => exact ⟨_, rfl⟩
      | true =>
          rw [List.isEmpty_nil, if_pos rfl, wholeNumber, if_neg (by decide), if_pos (hnegative rfl)]
          exact ⟨_, rfl⟩

/-- A digit starts a number without a sign. -/
theorem lexeme_digit {c : Char} (hc : c.isDigit = true) {place next : Position}
    {text rest : List Char} {number : Number}
    (h : numberBody false place (c :: text) = .ok (number, next, rest)) :
    lexeme place c text = (.token (.num number), next, rest) := by
  simp only [lexeme]
  split
  iterate 11 exact absurd hc (by decide)
  rw [if_pos hc, h]
  rfl

/-- A minus starts a number with a sign. -/
theorem lexeme_minus {place next : Position} {text rest : List Char} {number : Number}
    (h : numberBody true (place.after '-') text = .ok (number, next, rest)) :
    lexeme place '-' text = (.token (.num number), next, rest) := by
  simp only [lexeme]
  rw [h]
  rfl

/-- An integer in the bounds of documents is read back. -/
theorem readsBack_int {value : Int} (hleast : Number.leastInt ≤ value)
    (hgreatest : value ≤ Number.greatestInt) : ReadsBack (.int value) := by
  intro place c chars rest htext hstops
  rw [Number.leastInt] at hleast
  rw [Number.greatestInt] at hgreatest
  rw [Number.text, Number.intText] at htext
  have hleastSize : Nat.pow 2 63 ≤ greatestSignificand := by decide
  have hgreatestSize : greatestSignificand + 1 = Nat.pow 2 64 := by decide
  by_cases hsign : value < 0
  · rw [if_pos hsign, List.singleton_append] at htext
    obtain ⟨rfl, rfl⟩ := List.cons.inj htext
    obtain ⟨next, hbody⟩ := numberBody_toDigits true value.natAbs (by omega)
       (fun _ => ⟨by omega, by omega⟩) (place.after '-') hstops
    have hvalue : -(value.natAbs : Int) = value := by omega
    rw [if_pos rfl, hvalue] at hbody
    exact ⟨next, lexeme_minus hbody⟩
  · rw [if_neg hsign, List.nil_append] at htext
    obtain ⟨next, hbody⟩ := numberBody_toDigits false value.natAbs (by omega)
       nofun place hstops
    have hvalue : (value.natAbs : Int) = value := by omega
    rw [if_neg (by decide), hvalue, htext] at hbody
    exact ⟨next, lexeme_digit (isDigit_of_mem_toDigits (htext ▸ List.mem_cons_self)) hbody⟩

/-! ## Trees -/

/-- The arrays and objects of a tree nest at most so deep. -/
def NestsWithin : Nat → Json → Prop
  | limit + 1, arr items => ∀ item ∈ items, NestsWithin limit item
  | limit + 1, obj members => ∀ member ∈ members, NestsWithin limit member.2
  | 0, arr _ => False
  | 0, obj _ => False
  | _, _ => True

namespace Reader

/-- The reader takes the tokens one after the other and gets into a state, wherever they are found. -/
def Takes (reader : Reader) (tokens : List Token) (after : Reader) : Prop :=
  ∀ place found more, found.map Located.lexeme = tokens.map Lexeme.token →
    reader.run place (found ++ more) = after.run place more

variable {reader next after : Reader} {tokens others : List Token} {stack : List Frame}

theorem Takes.refl (reader : Reader) : Takes reader [] reader := by
  intro place found more hfound
  rw [List.map_nil, List.map_eq_nil_iff] at hfound
  rw [hfound, List.nil_append]

theorem Takes.cons {token : Token} (next : Reader)
    (htake : ∀ found : Located, found.lexeme = .token token → reader.take found = .ok next)
    (h : Takes next tokens after) : Takes reader (token :: tokens) after := by
  intro place found more hfound
  obtain ⟨first, rest, rfl, hfirst, hrest⟩ := List.map_eq_cons_iff.mp hfound
  rw [List.cons_append, run, htake first hfirst]
  exact h place rest more hrest

theorem Takes.append (hfirst : Takes reader tokens next) (hsecond : Takes next others after) :
    Takes reader (tokens ++ others) after := by
  intro place found more hfound
  rw [List.map_append] at hfound
  obtain ⟨front, back, rfl, hfront, hback⟩ := List.map_eq_append_iff.mp hfound
  rw [List.append_assoc, hfirst place front _ hfront, hsecond place back more hback]

/-- What the first token does decides what the reader does. -/
theorem Takes.of_take_eq {token : Token} {other : Reader}
    (htake : ∀ found : Located, found.lexeme = .token token → reader.take found = other.take found)
    (h : Takes other (token :: tokens) after) : Takes reader (token :: tokens) after := by
  intro place found more hfound
  obtain ⟨first, rest, rfl, hfirst, hrest⟩ := List.map_eq_cons_iff.mp hfound
  rw [← h place (first :: rest) more hfound, List.cons_append, run, run, htake first hfirst]

/-- A tree starts with a token that does not end an array. -/
theorem tokens_eq_cons (tree : Json) :
    ∃ token rest, tree.tokens = token :: rest ∧ token ≠ .closeArray := by
  cases tree <;> exact ⟨_, _, rfl, by simp⟩

/-- Where an item may stand, a tree is read as where a value must stand. -/
theorem Takes.of_value {inner : List Frame} {tree : Json}
    (htake : ∀ found : Located, found.lexeme ≠ .token .closeArray →
      reader.take found = (⟨inner, .value⟩ : Reader).take found)
    (h : Takes ⟨inner, .value⟩ (tree.tokens ++ tokens) after) :
    Takes reader (tree.tokens ++ tokens) after := by
  obtain ⟨token, rest, htokens, hne⟩ := tokens_eq_cons tree
  rw [htokens] at h ⊢
  exact .of_take_eq (fun found hfound => htake found (by simp [hfound, hne])) h

theorem take_firstItem {found : Located} (h : found.lexeme ≠ .token .closeArray) :
    (⟨stack, .firstItem⟩ : Reader).take found =
      (⟨.array [] :: stack, .value⟩ : Reader).take found := by
  simp only [take]

theorem take_nextItem {found : Located} (h : found.lexeme ≠ .token .closeArray) :
    (⟨stack, .nextItem⟩ : Reader).take found = (⟨stack, .value⟩ : Reader).take found := by
  simp only [take]

/-- The reader takes the items after the first one. -/
theorem takes_items {rest : List Json}
    (h : ∀ item ∈ rest, ∀ done, Takes ⟨.array done :: stack, .value⟩ item.tokens
      (completed (.array done :: stack) item)) :
    ∀ (done : List Json) (item : Json), Takes (completed (.array done :: stack) item)
      (rest.flatMap (fun next => .comma :: next.tokens) ++ [.closeArray])
      (completed stack (.arr (done.reverse ++ item :: rest))) := by
  induction rest with
  | nil =>
      intro done item
      refine .cons _ (fun found hfound => ?_) (.refl _)
      simp [take, completed, takeAfter, hfound]
  | cons next more ih =>
      intro done item
      rw [List.forall_mem_cons] at h
      rw [List.flatMap_cons, List.append_assoc, List.cons_append]
      refine .cons ⟨.array (item :: done) :: stack, .nextItem⟩ (fun found hfound => ?_) ?_
      · simp [take, completed, takeAfter, hfound]
      · refine .of_value (fun _ => take_nextItem) ((h.1 (item :: done)).append ?_)
        simpa using ih h.2 (item :: done) next

/-- The reader takes the members after the first one, all of them with new keys. -/
theorem takes_members {rest : List (String × Json)}
    (h : ∀ member ∈ rest, ∀ done key, Takes ⟨.object done key :: stack, .value⟩ member.2.tokens
      (completed (.object done key :: stack) member.2)) :
    ∀ (done : List (String × Json)) (member : String × Json),
      ((done ++ member :: rest).map (·.1)).Nodup →
        Takes (completed (.object done member.1 :: stack) member.2)
          (rest.flatMap (fun next => .comma :: memberPart next) ++ [.closeObject])
          (completed stack (.obj (done ++ member :: rest))) := by
  -- the key of a member is not among those before it
  have hput : ∀ (done rest : List (String × Json)) (member : String × Json),
      ((done ++ member :: rest).map (·.1)).Nodup →
        putMember member.1 member.2 done = done ++ [member] := by
    intro done rest member hkeys
    rw [List.map_append, List.map_cons, List.nodup_append] at hkeys
    exact putMember_of_not_mem fun hmem => hkeys.2.2 _ hmem _ List.mem_cons_self rfl
  induction rest with
  | nil =>
      intro done member hkeys
      refine .cons _ (fun found hfound => ?_) (.refl _)
      simp [take, completed, takeAfter, hfound, hput _ _ _ hkeys]
  | cons next more ih =>
      intro done member hkeys
      rw [List.forall_mem_cons] at h
      have hdone : done ++ member :: next :: more = (done ++ [member]) ++ next :: more := by simp
      rw [List.flatMap_cons, List.append_assoc, memberPart, List.cons_append, List.cons_append,
        List.cons_append, hdone]
      refine .cons ⟨stack, .nextKey (done ++ [member])⟩ (fun found hfound => ?_) ?_
      · simp [take, completed, takeAfter, hfound, hput _ _ _ hkeys]
      refine .cons ⟨.object (done ++ [member]) next.1 :: stack, .colon⟩ (fun found hfound => ?_) ?_
      · simp [take, takeKey, hfound]
      refine .cons ⟨.object (done ++ [member]) next.1 :: stack, .value⟩ (fun found hfound => ?_) ?_
      · simp [take, hfound]
      exact (h.1 _ _).append (ih h.2 _ _ (hdone ▸ hkeys))

/-- The reader takes an array, where it may still be opened. -/
theorem takes_array {items : List Json} (hopen : stack.length < depthLimit)
    (h : ∀ item ∈ items, ∀ done, Takes ⟨.array done :: stack, .value⟩ item.tokens
      (completed (.array done :: stack) item)) :
    Takes ⟨stack, .value⟩ (arr items).tokens (completed stack (.arr items)) := by
  rw [tokens, itemTokens_eq]
  refine .cons ⟨stack, .firstItem⟩ (fun found hfound => ?_) ?_
  · simp [take, takeValue, hfound, hopen]
  cases items with
  | nil =>
      refine .cons _ (fun found hfound => ?_) (.refl _)
      simp [take, hfound]
  | cons item rest =>
      rw [List.forall_mem_cons] at h
      rw [intercalate_map_cons, List.append_assoc]
      exact .of_value (fun _ => take_firstItem) ((h.1 []).append (takes_items h.2 [] item))

/-- The reader takes an object with distinct keys, where it may still be opened. -/
theorem takes_object {members : List (String × Json)} (hopen : stack.length < depthLimit)
    (hkeys : (members.map (·.1)).Nodup)
    (h : ∀ member ∈ members, ∀ done key, Takes ⟨.object done key :: stack, .value⟩ member.2.tokens
      (completed (.object done key :: stack) member.2)) :
    Takes ⟨stack, .value⟩ (obj members).tokens (completed stack (.obj members)) := by
  rw [tokens, memberTokens_eq]
  refine .cons ⟨stack, .firstKey⟩ (fun found hfound => ?_) ?_
  · simp [take, takeValue, hfound, hopen]
  cases members with
  | nil =>
      refine .cons _ (fun found hfound => ?_) (.refl _)
      simp [take, hfound]
  | cons member rest =>
      rw [List.forall_mem_cons] at h
      rw [intercalate_map_cons, List.append_assoc, memberPart, List.cons_append, List.cons_append]
      refine .cons ⟨.object [] member.1 :: stack, .colon⟩ (fun found hfound => ?_) ?_
      · simp [take, takeKey, hfound]
      refine .cons ⟨.object [] member.1 :: stack, .value⟩ (fun found hfound => ?_) ?_
      · simp [take, hfound]
      exact (h.1 [] member.1).append (takes_members h.2 [] member hkeys)

/-- The reader makes of the tokens of a tree the tree. -/
theorem takes_tokens {tree : Json} (hdistinct : tree.Distinct) :
    ∀ (limit : Nat) (stack : List Frame), NestsWithin limit tree →
      stack.length + limit ≤ depthLimit →
        Takes ⟨stack, .value⟩ tree.tokens (completed stack tree) := by
  induction tree using tree_induction with
  | null | bool | num | str =>
      intro limit stack _ _
      refine .cons _ (fun found hfound => ?_) (.refl _)
      simp [take, takeValue, hfound]
  | arr items ih =>
      intro limit stack hnests hlimit
      cases limit with
      | zero => exact absurd hnests (by simp [NestsWithin])
      | succ limit =>
          rw [distinct_arr] at hdistinct
          refine takes_array (by omega) fun item hitem done => ?_
          refine ih item hitem (hdistinct item hitem) limit _ (hnests item hitem) ?_
          rw [List.length_cons]
          omega
  | obj members ih =>
      intro limit stack hnests hlimit
      cases limit with
      | zero => exact absurd hnests (by simp [NestsWithin])
      | succ limit =>
          rw [distinct_obj] at hdistinct
          refine takes_object (by omega) hdistinct.1 fun member hmember done key => ?_
          refine ih member hmember (hdistinct.2 member hmember) limit _ (hnests member hmember) ?_
          rw [List.length_cons]
          omega

end Reader

/-- A text of the tokens of a tree with blanks between them is read as the tree. -/
theorem parse_of_spaced {tree : Json} {text : List Char} (h : Spaced tree.tokens text)
    (hnumbers : ∀ number, .num number ∈ tree.tokens → ReadsBack number)
    (hdistinct : tree.Distinct) (hnests : NestsWithin depthLimit tree) :
    parse (String.ofList text) = .ok tree := by
  have hlexemes := lexemes_of_spaced h hnumbers text.length {} (le_refl _)
  rw [parse, String.toList_ofList]
  show Reader.run ⟨[], .value⟩ (lexemes text.length {} text).2 (lexemes text.length {} text).1 = _
  have hrun := Reader.takes_tokens hdistinct depthLimit [] hnests (by simp)
    (lexemes text.length {} text).2 _ [] hlexemes
  rw [List.append_nil] at hrun
  rw [hrun]
  rfl

end RouteScaffold.Json
