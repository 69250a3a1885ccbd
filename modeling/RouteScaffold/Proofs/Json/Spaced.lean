import RouteScaffold.Json.Printer
import RouteScaffold.Proofs.Json.Tokens

/-!
# Tokens with blanks between them

Both written forms of a tree are its tokens one after the other, with nothing but blanks between them
(`spaced_prettyChars`, `spaced_compact`), and such a text belongs to one token sequence (`Spaced.unique`).
-/

namespace RouteScaffold.Json

/-- A text is tokens one after the other, with nothing but blanks before, between and after them.  What follows
a number does not go on with a numeral. -/
inductive Spaced : List Token → List Char → Prop
  | nil : Spaced [] []
  | blank {c : Char} {tokens : List Token} {text : List Char} (hc : isSpace c = true)
      (h : Spaced tokens text) : Spaced tokens (c :: text)
  | token {token : Token} {tokens : List Token} {text : List Char}
      (hstops : ∀ number, token = .num number → Stops text) (h : Spaced tokens text) :
      Spaced (token :: tokens) (token.chars ++ text)

/-! ## One token sequence -/

namespace Spaced

variable {tokens others : List Token} {text : List Char}

theorem eq_nil (h : Spaced tokens []) : tokens = [] := by
  generalize htext : ([] : List Char) = text at h
  cases h with
  | nil => rfl
  | blank => cases htext
  | token _ _ => exact absurd htext.symm (Token.chars_append_ne_nil _ _)

theorem of_blank {c : Char} (hc : isSpace c = true) (h : Spaced tokens (c :: text)) :
    Spaced tokens text := by
  generalize htext : c :: text = whole at h
  cases h with
  | nil => cases htext
  | blank _ hrest => exact (List.cons.inj htext).2 ▸ hrest
  | token _ _ => exact absurd htext.symm (Token.chars_append_ne_blank hc _ _ _)

/-- A text that starts with a token is that token and others after it. -/
theorem of_token {token : Token} (hstops : ∀ number, token = .num number → Stops text)
    (hnumbers : ∀ m n, token = .num m → .num n ∈ others → m.text = n.text → m = n)
    (h : Spaced others (token.chars ++ text)) :
    ∃ rest, others = token :: rest ∧ Spaced rest text := by
  generalize hwhole : token.chars ++ text = whole at h
  cases h with
  | nil => exact absurd hwhole (Token.chars_append_ne_nil _ _)
  | blank hc _ => exact absurd hwhole (Token.chars_append_ne_blank hc _ _ _)
  | @token other rest _ hother hrest =>
      obtain ⟨rfl, rfl⟩ := Token.eq_of_chars_append hstops hother
        (fun m n hm hn => hnumbers m n hm (hn ▸ List.mem_cons_self)) hwhole
      exact ⟨rest, rfl, hrest⟩

/-- A text belongs to one token sequence, if numbers with one text are one number. -/
theorem unique (h : Spaced tokens text) (hothers : Spaced others text)
    (hnumbers : ∀ m n, .num m ∈ tokens → .num n ∈ others → m.text = n.text → m = n) :
    tokens = others := by
  induction h generalizing others with
  | nil => exact hothers.eq_nil.symm
  | blank hc _ ih => exact ih (hothers.of_blank hc) hnumbers
  | @token token tokens text hstops _ ih =>
      obtain ⟨rest, rfl, hrest⟩ := hothers.of_token hstops
        fun m n hm => hnumbers m n (hm ▸ List.mem_cons_self)
      rw [ih hrest fun m n hm hn =>
        hnumbers m n (List.mem_cons_of_mem _ hm) (List.mem_cons_of_mem _ hn)]

/-! ## Putting texts together -/

theorem blanks {gap : List Char} (hgap : ∀ c ∈ gap, isSpace c = true) (h : Spaced tokens text) :
    Spaced tokens (gap ++ text) := by
  induction gap with
  | nil => exact h
  | cons c rest ih =>
      rw [List.forall_mem_cons] at hgap
      exact .blank hgap.1 (ih hgap.2)

/-- A token other than a number may stand before any text. -/
theorem mark (token : Token) (htoken : ∀ number, token ≠ .num number) (h : Spaced tokens text) :
    Spaced (token :: tokens) (token.chars ++ text) :=
  .token (fun number hnumber => absurd hnumber (htoken number)) h

end Spaced

theorem stops_cons {c : Char} (hc : Number.isNumeral c = false) (rest : List Char) :
    Stops (c :: rest) := by
  intro d hd
  cases hd
  exact hc

/-- The text stands for the tokens before any text that a number may end before. -/
def Stands (tokens : List Token) (text : List Char) : Prop :=
  ∀ more rest, Stops rest → Spaced more rest → Spaced (tokens ++ more) (text ++ rest)

theorem Stands.spaced {tokens : List Token} {text : List Char} (h : Stands tokens text) :
    Spaced tokens text := by
  have hempty := h [] [] (fun _ hc => by cases hc) .nil
  rwa [List.append_nil, List.append_nil] at hempty

theorem Stands.token (token : Token) : Stands [token] token.chars :=
  fun _ _ hstops h => .token (fun _ _ => hstops) h

/-- Parts with commas between them, each of which stands for its tokens. -/
theorem Stands.intercalate {α : Type} (write : α → List Token) {shown : α → List Char}
    {gap : List Char} (hgap : ∀ c ∈ gap, isSpace c = true) {parts : List α}
    (hparts : ∀ part ∈ parts, Stands (write part) (shown part)) :
    Stands ([Token.comma].intercalate (parts.map write))
      ((',' :: gap).intercalate (parts.map shown)) := by
  induction parts with
  | nil => exact fun _ _ _ h => h
  | cons part rest ih =>
      rw [List.forall_mem_cons] at hparts
      cases rest with
      | nil =>
          rw [List.map_singleton, List.map_singleton, List.intercalate_singleton,
            List.intercalate_singleton]
          exact hparts.1
      | cons next more =>
          intro tokens text hstops h
          rw [intercalate_map_cons_cons, intercalate_map_cons_cons]
          simp only [List.append_assoc]
          refine hparts.1 _ _ (stops_cons rfl _) ?_
          exact .mark .comma nofun (.blanks hgap (ih hparts.2 _ _ hstops h))

/-- A text stands for its tokens also within a pair of marks. -/
theorem Stands.enclosed (opening closing : Token) (hopening : ∀ number, opening ≠ .num number)
    (hclosing : ∀ number, closing ≠ .num number) {tokens : List Token} {text before after : List Char}
    (hbefore : ∀ c ∈ before, isSpace c = true) (hafter : ∀ c ∈ after, isSpace c = true)
    (h : Stands tokens text) :
    Stands (opening :: (tokens ++ [closing]))
      (opening.chars ++ (before ++ (text ++ (after ++ closing.chars)))) := by
  intro more rest _ hmore
  have hstops : Stops (after ++ (closing.chars ++ rest)) := by
    cases after with
    | nil =>
        obtain ⟨_, hchars⟩ := closing.chars_eq_cons
        rw [hchars]
        exact stops_cons (Token.isNumeral_lead_eq_false hclosing) _
    | cons c _ => exact stops_cons (isNumeral_of_isSpace (hafter c List.mem_cons_self)) _
  simp only [List.cons_append, List.append_assoc, List.nil_append]
  exact .mark _ hopening (.blanks hbefore (h _ _ hstops (.blanks hafter (.mark _ hclosing hmore))))

theorem Stands.array {tokens : List Token} {text before after : List Char}
    (hbefore : ∀ c ∈ before, isSpace c = true) (hafter : ∀ c ∈ after, isSpace c = true)
    (h : Stands tokens text) :
    Stands (.openArray :: (tokens ++ [.closeArray]))
      ('[' :: (before ++ (text ++ (after ++ [']'])))) :=
  .enclosed .openArray .closeArray nofun nofun hbefore hafter h

theorem Stands.object {tokens : List Token} {text before after : List Char}
    (hbefore : ∀ c ∈ before, isSpace c = true) (hafter : ∀ c ∈ after, isSpace c = true)
    (h : Stands tokens text) :
    Stands (.openObject :: (tokens ++ [.closeObject]))
      ('\x7b' :: (before ++ (text ++ (after ++ ['\x7d'])))) :=
  .enclosed .openObject .closeObject nofun nofun hbefore hafter h

theorem Stands.nil : Stands [] [] := fun _ _ _ h => h

/-- A member stands for its key, a colon and its value. -/
theorem Stands.member {gap shown : List Char} (hgap : ∀ c ∈ gap, isSpace c = true) (key : String)
    {value : Json} (h : Stands value.tokens shown) :
    Stands (memberPart (key, value)) (literal key ++ (':' :: (gap ++ shown))) := by
  intro more rest hstops hmore
  rw [memberPart, List.append_assoc]
  have hvalue : Spaced (value.tokens ++ more) (gap ++ shown ++ rest) := by
    rw [List.append_assoc]
    exact .blanks hgap (h _ _ hstops hmore)
  exact .mark (.str key) (fun _ h => by cases h) (.mark .colon (fun _ h => by cases h) hvalue)

theorem no_blanks : ∀ c ∈ ([] : List Char), isSpace c = true := fun _ h => absurd h List.not_mem_nil

/-! ## The pretty form -/

theorem isSpace_of_mem_lineBreak (level : Nat) : ∀ c ∈ lineBreak level, isSpace c = true := by
  intro c hc
  rcases List.mem_cons.mp hc with rfl | hc
  · rfl
  · rw [List.eq_of_mem_replicate hc]
    rfl

/-- The pretty form of a member. -/
def memberChars (level : Nat) (member : String × Json) : List Char :=
  literal member.1 ++ ':' :: ' ' :: prettyChars level member.2

theorem prettyItems_eq (level : Nat) (items : List Json) :
    prettyItems level items = (',' :: lineBreak level).intercalate (items.map (prettyChars level)) :=
  eq_intercalate (by rw [prettyItems]) (fun _ => by rw [prettyItems])
    (fun _ _ _ => by rw [prettyItems]; rfl) items

theorem prettyMembers_eq (level : Nat) (members : List (String × Json)) :
    prettyMembers level members =
      (',' :: lineBreak level).intercalate (members.map (memberChars level)) :=
  eq_intercalate (by rw [prettyMembers]) (fun _ => by rw [prettyMembers, memberChars])
    (fun _ _ _ => by
      rw [prettyMembers, memberChars]
      simp only [List.append_assoc, List.cons_append]) members

/-- The pretty form stands for the tokens of the tree. -/
theorem stands_prettyChars (tree : Json) : ∀ level, Stands tree.tokens (prettyChars level tree) := by
  induction tree using tree_induction with
  -- what holds nothing is written as its token
  | null | bool | num | str =>
      intro level
      rw [tokens, prettyChars]
      exact .token _
  | arr items ih =>
      intro level
      cases items with
      | nil => exact .array no_blanks no_blanks .nil
      | cons item rest =>
          have hitems : Stands (itemTokens (item :: rest)) (prettyItems (level + 1) (item :: rest)) := by
            rw [itemTokens_eq, prettyItems_eq]
            exact .intercalate tokens (isSpace_of_mem_lineBreak _)
              fun item hitem => ih item hitem (level + 1)
          rw [tokens, prettyChars, List.append_assoc, List.append_assoc]
          exact .array (isSpace_of_mem_lineBreak _) (isSpace_of_mem_lineBreak _) hitems
  | obj members ih =>
      intro level
      cases members with
      | nil => exact .object no_blanks no_blanks .nil
      | cons member rest =>
          have hmembers : Stands (memberTokens (member :: rest))
              (prettyMembers (level + 1) (member :: rest)) := by
            rw [memberTokens_eq, prettyMembers_eq]
            exact .intercalate memberPart (isSpace_of_mem_lineBreak _) fun member hmember =>
              .member (List.forall_mem_singleton.mpr rfl) member.1 (ih member hmember (level + 1))
          rw [tokens, prettyChars, List.append_assoc, List.append_assoc]
          exact .object (isSpace_of_mem_lineBreak _) (isSpace_of_mem_lineBreak _) hmembers

theorem spaced_prettyChars (level : Nat) (tree : Json) :
    Spaced tree.tokens (prettyChars level tree) :=
  (stands_prettyChars tree level).spaced

/-! ## The compact form -/

/-- The compact form stands for the tokens of the tree, with no blanks at all. -/
theorem stands_compact (tree : Json) : Stands tree.tokens (tree.tokens.flatMap Token.chars) := by
  induction tree using tree_induction with
  | null | bool | num | str =>
      rw [tokens, List.flatMap_singleton]
      exact .token _
  | arr items ih =>
      rw [tokens, itemTokens_eq, List.flatMap_cons, List.flatMap_append, flatMap_intercalate,
        List.flatMap_singleton]
      exact .array no_blanks no_blanks (.intercalate tokens no_blanks ih)
  | obj members ih =>
      have hmember : ∀ member ∈ members,
          Stands (memberPart member) ((memberPart member).flatMap Token.chars) :=
        fun member hmember => .member no_blanks member.1 (ih member hmember)
      rw [tokens, memberTokens_eq, List.flatMap_cons, List.flatMap_append, flatMap_intercalate,
        List.flatMap_singleton]
      exact .object no_blanks no_blanks (.intercalate memberPart no_blanks hmember)

theorem spaced_compact (tree : Json) : Spaced tree.tokens tree.compact.toList := by
  rw [compact, String.toList_ofList]
  exact (stands_compact tree).spaced

end RouteScaffold.Json
