import RouteScaffold.Json.Lexer
import RouteScaffold.Proofs.Number.Text
import RouteScaffold.Proofs.Text.Seams

/-!
# Trees, tokens and characters

A token sequence belongs to one tree (`tokens_injective`), and the characters of a token tell the token
and where it ends (`Token.eq_of_chars_append`).  Numbers are the exception: their texts must differ, and
what follows them must not go on with a numeral.
-/

namespace RouteScaffold.Json

/-! ## Induction on trees -/

/-- A property of trees holds if it passes from the trees an array or an object holds to itself. -/
@[elab_as_elim]
theorem tree_induction {motive : Json → Prop} (null : motive null)
    (bool : ∀ value, motive (bool value)) (num : ∀ value, motive (num value))
    (str : ∀ text, motive (str text))
    (arr : ∀ items : List Json, (∀ item ∈ items, motive item) → motive (arr items))
    (obj : ∀ members : List (String × Json), (∀ member ∈ members, motive member.2) →
      motive (obj members)) (tree : Json) : motive tree :=
  match tree with
  | .null => null
  | .bool value => bool value
  | .num value => num value
  | .str text => str text
  | .arr items => arr items fun item _ => tree_induction null bool num str arr obj item
  | .obj members => obj members fun member _ => tree_induction null bool num str arr obj member.2
termination_by sizeOf tree
decreasing_by
  · have hlt := List.sizeOf_lt_of_mem ‹item ∈ items›
    rw [Json.arr.sizeOf_spec]
    omega
  · have hlt := List.sizeOf_lt_of_mem ‹member ∈ members›
    obtain ⟨key, value⟩ := member
    rw [Prod.mk.sizeOf_spec] at hlt
    rw [Json.obj.sizeOf_spec]
    show sizeOf value < _
    omega

/-! ## Parts with separators -/

section

variable {α β γ : Type} {write : α → List β} {separator : List β}

theorem intercalate_map_cons_cons (first second : α) (rest : List α) :
    separator.intercalate ((first :: second :: rest).map write) =
      write first ++ (separator ++ separator.intercalate ((second :: rest).map write)) := by
  rw [List.map_cons, List.map_cons, List.intercalate_cons_cons, List.append_assoc]

/-- Parts with separators are the first part and the others, each after a separator. -/
theorem intercalate_map_cons (first : α) (rest : List α) :
    separator.intercalate ((first :: rest).map write) =
      write first ++ rest.flatMap fun next => separator ++ write next := by
  induction rest generalizing first with
  | nil => rw [List.map_singleton, List.intercalate_singleton, List.flatMap_nil, List.append_nil]
  | cons next more ih => rw [intercalate_map_cons_cons, ih, List.flatMap_cons, List.append_assoc]

/-- What writes parts one by one with a separator between two of them. -/
theorem eq_intercalate {written : List α → List β} (hnil : written [] = [])
    (hone : ∀ part, written [part] = write part)
    (hmore : ∀ part next rest,
      written (part :: next :: rest) = write part ++ (separator ++ written (next :: rest)))
    (parts : List α) : written parts = separator.intercalate (parts.map write) := by
  induction parts with
  | nil => exact hnil
  | cons part rest ih =>
      cases rest with
      | nil => rw [hone, List.map_singleton, List.intercalate_singleton]
      | cons next more => rw [hmore, ih, intercalate_map_cons_cons]

theorem flatMap_intercalate (f : β → List γ) (parts : List α) :
    (separator.intercalate (parts.map write)).flatMap f =
      (separator.flatMap f).intercalate (parts.map fun part => (write part).flatMap f) := by
  cases parts with
  | nil => rfl
  | cons part rest =>
      rw [intercalate_map_cons, intercalate_map_cons, List.flatMap_append, List.flatMap_assoc]
      simp only [List.flatMap_append]

variable {comma stop : β}

/-- Parts that each follow a separator, with a mark at the end, are read off in one way. -/
theorem flatMap_append_inj (hne : comma ≠ stop) {parts others : List α}
    (hparts : ∀ part ∈ parts, ∀ other x y, write part ++ x = write other ++ y →
      part = other ∧ x = y) {x y : List β}
    (h : (parts.flatMap fun part => comma :: write part) ++ stop :: x =
      (others.flatMap fun other => comma :: write other) ++ stop :: y) :
    parts = others ∧ x = y := by
  induction parts generalizing others with
  | nil =>
      cases others with
      | nil => exact ⟨rfl, (List.cons.inj h).2⟩
      | cons other more => exact absurd (List.cons.inj h).1.symm hne
  | cons part rest ih =>
      cases others with
      | nil => exact absurd (List.cons.inj h).1 hne
      | cons other more =>
          rw [List.forall_mem_cons] at hparts
          rw [List.flatMap_cons, List.flatMap_cons, List.append_assoc, List.append_assoc] at h
          obtain ⟨rfl, hrest⟩ := hparts.1 _ _ _ (List.cons.inj h).2
          obtain ⟨rfl, hxy⟩ := ih hparts.2 hrest
          exact ⟨rfl, hxy⟩

/-- Parts with a separator between them and a mark at the end are read off in one way, if each part is and none
starts with the mark. -/
theorem intercalate_append_inj (hne : comma ≠ stop)
    (hstart : ∀ part x y, write part ++ x ≠ stop :: y) {parts others : List α}
    (hparts : ∀ part ∈ parts, ∀ other x y, write part ++ x = write other ++ y →
      part = other ∧ x = y) {x y : List β}
    (h : [comma].intercalate (parts.map write) ++ stop :: x =
      [comma].intercalate (others.map write) ++ stop :: y) : parts = others ∧ x = y := by
  cases parts with
  | nil =>
      cases others with
      | nil => exact ⟨rfl, (List.cons.inj h).2⟩
      | cons other more =>
          rw [intercalate_map_cons, List.append_assoc] at h
          exact absurd h.symm (hstart _ _ _)
  | cons part rest =>
      rw [intercalate_map_cons, List.append_assoc] at h
      cases others with
      | nil => exact absurd h (hstart _ _ _)
      | cons other more =>
          rw [intercalate_map_cons, List.append_assoc] at h
          rw [List.forall_mem_cons] at hparts
          obtain ⟨rfl, hrest⟩ := hparts.1 _ _ _ h
          obtain ⟨rfl, hxy⟩ := flatMap_append_inj hne hparts.2 hrest
          exact ⟨rfl, hxy⟩

end

/-- The tokens of a member. -/
def memberPart (member : String × Json) : List Token :=
  .str member.1 :: .colon :: member.2.tokens

theorem itemTokens_eq (items : List Json) :
    itemTokens items = [Token.comma].intercalate (items.map tokens) :=
  eq_intercalate (by rw [itemTokens]) (fun _ => by rw [itemTokens])
    (fun _ _ _ => by rw [itemTokens]; rfl) items

theorem memberTokens_eq (members : List (String × Json)) :
    memberTokens members = [Token.comma].intercalate (members.map memberPart) :=
  eq_intercalate (by rw [memberTokens]) (fun _ => by rw [memberTokens, memberPart])
    (fun _ _ _ => by rw [memberTokens, memberPart]; rfl) members

/-! ## The tree of a token sequence -/

/-- A tree does not start with a mark that ends one. -/
theorem tokens_append_ne (tree : Json) (x y : List Token) :
    tree.tokens ++ x ≠ .closeArray :: y := by
  cases tree <;> simp [tokens]

/-- The tokens of a tree are read off in one way. -/
theorem eq_of_tokens_append (tree : Json) :
    ∀ (other : Json) (x y : List Token), tree.tokens ++ x = other.tokens ++ y →
      tree = other ∧ x = y := by
  induction tree using tree_induction with
  -- a value that holds nothing is one token
  | null | bool | num | str => intro other x y h; cases other <;> simp_all [tokens]
  | arr items ih =>
      intro other x y h
      cases other with
      | arr others =>
          rw [tokens, tokens, itemTokens_eq, itemTokens_eq] at h
          simp only [List.cons_append, List.append_assoc, List.nil_append, List.cons.injEq,
            true_and] at h
          obtain ⟨rfl, hxy⟩ := intercalate_append_inj (by decide) tokens_append_ne ih h
          exact ⟨rfl, hxy⟩
      | _ => simp [tokens] at h
  | obj members ih =>
      intro other x y h
      cases other with
      | obj others =>
          rw [tokens, tokens, memberTokens_eq, memberTokens_eq] at h
          simp only [List.cons_append, List.append_assoc, List.nil_append, List.cons.injEq,
            true_and] at h
          -- a member is its key, a colon and its value, and the key comes first
          have hparts : ∀ member ∈ members, ∀ other x y,
              memberPart member ++ x = memberPart other ++ y → member = other ∧ x = y := by
            intro member hmember other x y h
            simp only [memberPart, List.cons_append, List.cons.injEq, Token.str.injEq, true_and] at h
            obtain ⟨hvalue, hxy⟩ := ih member hmember _ _ _ h.2
            exact ⟨Prod.ext h.1 hvalue, hxy⟩
          obtain ⟨rfl, hxy⟩ := intercalate_append_inj (by decide)
            (fun _ _ _ h => by simp [memberPart] at h) hparts h
          exact ⟨rfl, hxy⟩
      | _ => simp [tokens] at h

/-- A token sequence belongs to one tree. -/
theorem tokens_injective {tree other : Json} (h : tree.tokens = other.tokens) : tree = other :=
  (eq_of_tokens_append tree other [] [] (by rw [h])).1

/-! ## The token of a text -/

/-- A number may end before the text: no numeral goes on with it. -/
def Stops (text : List Char) : Prop := ∀ c ∈ text.head?, Number.isNumeral c = false

theorem isNumeral_of_isSpace {c : Char} (hc : isSpace c = true) : Number.isNumeral c = false := by
  simp only [isSpace, Bool.or_eq_true, decide_eq_true_eq] at hc
  rcases hc with ((rfl | rfl) | rfl) | rfl <;> rfl

/-- A text of a number that goes on with no numeral ends in one place. -/
theorem number_text_append_inj {m n : Number} {x y : List Char} (hx : Stops x) (hy : Stops y)
    (h : m.text ++ x = n.text ++ y) : m.text = n.text ∧ x = y := by
  have htake : ∀ (number : Number) (z : List Char), Stops z →
      (number.text ++ z).takeWhile Number.isNumeral = number.text := fun number z hz =>
    Text.takeWhile_scanned (Number.isNumeral_of_mem_text number) hz
  have hsame : m.text = n.text := by rw [← htake m x hx, h, htake n y hy]
  rw [hsame] at h
  exact ⟨hsame, List.append_cancel_left h⟩

theorem hexUnit?_control : ∀ code < 32,
    hexUnit? '0' '0' (Nat.digitChar (code / 16)) (Nat.digitChar (code % 16)) = some code := by
  decide

/-- What stands for a character in a literal is read as the character. -/
theorem stringBody_escapedChar (place : Position) (found : List Char) (c : Char)
    (rest : List Char) :
    ∃ next, stringBody place found (escapedChar c ++ rest) = stringBody next (c :: found) rest := by
  rw [escapedChar]
  split_ifs with hquote hslash hb hf hn hr ht hcontrol
  · subst hquote; exact ⟨_, rfl⟩
  · subst hslash; exact ⟨_, rfl⟩
  · subst hb; exact ⟨_, rfl⟩
  · subst hf; exact ⟨_, rfl⟩
  · subst hn; exact ⟨_, rfl⟩
  · subst hr; exact ⟨_, rfl⟩
  · subst ht; exact ⟨_, rfl⟩
  · have hunits : ∀ code < 32, isTrailingSurrogate code = false ∧ isLeadingSurrogate code = false := by
      decide
    refine ⟨((place.after '\\').after 'u').afterAll
      ['0', '0', Nat.digitChar (c.toNat / 16), Nat.digitChar (c.toNat % 16)], ?_⟩
    simp only [List.cons_append, List.nil_append]
    rw [stringBody, hexUnit?_control _ hcontrol]
    simp only [hunits _ hcontrol, Bool.false_eq_true, if_false, Char.ofNat_toNat]
  · refine ⟨place.after c, ?_⟩
    rw [List.singleton_append, stringBody]
    · rw [if_neg hcontrol]
    all_goals simp_all

/-- A literal is read up to its end. -/
theorem stringBody_literal (place : Position) (found text rest : List Char) :
    ∃ next, stringBody place found (text.flatMap escapedChar ++ '"' :: rest) =
      .ok (String.ofList (found.reverse ++ text), next, rest) := by
  induction text generalizing place found with
  | nil => exact ⟨_, by rw [List.append_nil]; rfl⟩
  | cons c more ih =>
      rw [List.flatMap_cons, List.append_assoc]
      obtain ⟨next, hchar⟩ := stringBody_escapedChar place found c
        (more.flatMap escapedChar ++ '"' :: rest)
      obtain ⟨last, hmore⟩ := ih next (c :: found)
      exact ⟨last, by rw [hchar, hmore, List.reverse_cons, List.append_assoc]; rfl⟩

/-- A literal tells its text and where it ends. -/
theorem literal_append_inj {text other : String} {x y : List Char}
    (h : literal text ++ x = literal other ++ y) : text = other ∧ x = y := by
  have hread : ∀ (text : String) (z : List Char), ∃ next,
      stringBody {} [] ((literal text ++ z).tail) = .ok (text, next, z) := by
    intro text z
    obtain ⟨next, hnext⟩ := stringBody_literal {} [] text.toList z
    refine ⟨next, ?_⟩
    rw [literal, List.cons_append, List.tail_cons, List.append_assoc]
    simpa using hnext
  obtain ⟨_, hfirst⟩ := hread text x
  obtain ⟨_, hsecond⟩ := hread other y
  rw [h, hsecond] at hfirst
  simp only [Except.ok.injEq, Prod.mk.injEq] at hfirst
  exact ⟨hfirst.1.symm, hfirst.2.2.symm⟩

namespace Token

/-- The first character of a token. -/
def lead : Token → Char
  | openArray => '['
  | closeArray => ']'
  | openObject => '{'
  | closeObject => '}'
  | comma => ','
  | colon => ':'
  | null => 'n'
  | bool true => 't'
  | bool false => 'f'
  | num value => value.text.headD '0'
  | str _ => '"'

theorem chars_eq_cons (token : Token) : ∃ rest, token.chars = token.lead :: rest := by
  cases token with
  | bool value => cases value <;> exact ⟨_, rfl⟩
  | num value =>
      obtain ⟨c, rest, htext⟩ := List.exists_cons_of_ne_nil value.text_ne_nil
      exact ⟨rest, by rw [chars, lead, htext]; rfl⟩
  | _ => exact ⟨_, rfl⟩

theorem isNumeral_lead (number : Number) : Number.isNumeral (lead (num number)) = true := by
  obtain ⟨rest, hrest⟩ := chars_eq_cons (num number)
  exact number.isNumeral_of_mem_text _ (by rw [show number.text = _ from hrest]; exact List.mem_cons_self)

theorem isNumeral_lead_eq_false {token : Token} (h : ∀ number, token ≠ num number) :
    Number.isNumeral token.lead = false := by
  cases token with
  | bool value => cases value <;> rfl
  | num value => exact absurd rfl (h value)
  | _ => rfl

/-- The first character tells a token, up to the text of a number or a string. -/
theorem eq_of_lead_eq {token other : Token} (h : token.lead = other.lead) :
    token = other ∨ (∃ m n, token = num m ∧ other = num n) ∨
      ∃ text more, token = str text ∧ other = str more := by
  -- numbers may begin alike and differ, so they are told from the other tokens first
  by_cases hnum : ∃ m, token = num m
  · obtain ⟨m, rfl⟩ := hnum
    by_cases hother : ∃ n, other = num n
    · obtain ⟨n, rfl⟩ := hother
      exact Or.inr (Or.inl ⟨m, n, rfl, rfl⟩)
    · have hlead := isNumeral_lead m
      rw [h, isNumeral_lead_eq_false (not_exists.mp hother)] at hlead
      cases hlead
  · by_cases hother : ∃ n, other = num n
    · obtain ⟨n, rfl⟩ := hother
      have hlead := isNumeral_lead n
      rw [← h, isNumeral_lead_eq_false (not_exists.mp hnum)] at hlead
      cases hlead
    · rcases token with _ | _ | _ | _ | _ | _ | _ | (_ | _) | m | text <;>
        rcases other with _ | _ | _ | _ | _ | _ | _ | (_ | _) | n | more <;>
        first
          | exact Or.inl rfl
          | exact Or.inr (Or.inr ⟨_, _, rfl, rfl⟩)
          | exact absurd ⟨_, rfl⟩ hnum
          | exact absurd ⟨_, rfl⟩ hother
          | exact absurd h (by simp [lead])

/-- The characters of a token tell the token and where it ends, if numbers with one text are one number. -/
theorem eq_of_chars_append {token other : Token} {x y : List Char}
    (hx : ∀ m, token = num m → Stops x) (hy : ∀ n, other = num n → Stops y)
    (hnumbers : ∀ m n, token = num m → other = num n → m.text = n.text → m = n)
    (h : token.chars ++ x = other.chars ++ y) : token = other ∧ x = y := by
  have hlead : token.lead = other.lead := by
    obtain ⟨_, hchars⟩ := chars_eq_cons token
    obtain ⟨_, hchars'⟩ := chars_eq_cons other
    rw [hchars, hchars'] at h
    exact (List.cons.inj h).1
  rcases eq_of_lead_eq hlead with rfl | ⟨m, n, rfl, rfl⟩ | ⟨text, more, rfl, rfl⟩
  · exact ⟨rfl, List.append_cancel_left h⟩
  · obtain ⟨htext, hxy⟩ := number_text_append_inj (hx m rfl) (hy n rfl) h
    exact ⟨congrArg num (hnumbers m n rfl rfl htext), hxy⟩
  · obtain ⟨rfl, hxy⟩ := literal_append_inj h
    exact ⟨rfl, hxy⟩

theorem lead_not_space (token : Token) : isSpace token.lead = false := by
  by_cases hnum : ∃ m, token = num m
  · obtain ⟨m, rfl⟩ := hnum
    by_contra hc
    have hlead := isNumeral_lead m
    rw [isNumeral_of_isSpace (by simpa using hc)] at hlead
    cases hlead
  · rcases token with _ | _ | _ | _ | _ | _ | _ | (_ | _) | m | text <;>
      first | rfl | exact absurd ⟨_, rfl⟩ hnum

theorem chars_append_ne_nil (token : Token) (x : List Char) : token.chars ++ x ≠ [] := by
  obtain ⟨_, hchars⟩ := token.chars_eq_cons
  rw [hchars]
  exact List.cons_ne_nil _ _

/-- No token starts with a blank. -/
theorem chars_append_ne_blank {c : Char} (hc : isSpace c = true) (token : Token) (x y : List Char) :
    token.chars ++ x ≠ c :: y := by
  obtain ⟨_, hchars⟩ := token.chars_eq_cons
  rw [hchars]
  intro h
  have hlead := token.lead_not_space
  rw [(List.cons.inj h).1, hc] at hlead
  cases hlead

/-! ### No control characters -/

/-- A character that is no control character. -/
def printable (c : Char) : Bool := decide (0x20 ≤ c.toNat)

theorem printable_of_isNumeral {c : Char} (h : Number.isNumeral c = true) : printable c = true := by
  have hnone : ∀ code < 0x20, Number.isNumeral (Char.ofNat code) = false := by decide
  refine decide_eq_true (Nat.not_lt.mp fun hlow => ?_)
  have hfalse := hnone c.toNat hlow
  rw [Char.ofNat_toNat, h] at hfalse
  cases hfalse

theorem all_printable_escapedChar (c : Char) : (escapedChar c).all printable = true := by
  have hdigits : ∀ code < 0x20, printable (Nat.digitChar (code / 16)) = true ∧
      printable (Nat.digitChar (code % 16)) = true := by decide
  rw [escapedChar]
  split_ifs with _ _ _ _ _ _ _ hcontrol
  iterate 7 · rfl
  · obtain ⟨hhigh, hlow⟩ := hdigits _ hcontrol
    rw [List.all_cons, List.all_cons, List.all_cons, List.all_cons, List.all_cons, List.all_cons,
      hhigh, hlow]
    rfl
  · rw [List.all_cons, List.all_nil, Bool.and_true]
    exact decide_eq_true (Nat.not_lt.mp hcontrol)

/-- No control character stands in a token, in particular no line break. -/
theorem all_printable_chars (token : Token) : token.chars.all printable = true := by
  cases token with
  | bool value => cases value <;> decide
  | num value =>
      exact List.all_eq_true.mpr fun c hc => printable_of_isNumeral (value.isNumeral_of_mem_text c hc)
  | str text =>
      have htext : (text.toList.flatMap escapedChar).all printable = true := by
        rw [List.all_flatMap]
        exact List.all_eq_true.mpr fun c _ => all_printable_escapedChar c
      rw [chars, literal, List.all_cons, List.all_append, htext]
      rfl
  | _ => decide

end Token

end RouteScaffold.Json
