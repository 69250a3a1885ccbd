import RouteScaffold.Proofs.Json.Spaced
import RouteScaffold.Proofs.Scaffold.Greeting

/-!
# A text determines its scaffold

Two scaffolds with one text have the same path, method, style, access mark and schema
(`determined_of_text_eq`).  The text is read from its ends inwards.  The last line tells the style and the
method.  Before it the greeting is cut off at the last quote that follows a parenthesis, which no quote of
the path does, and the path is read from the greeting, as its escape loses nothing.  So the header is known
too, and what is left are the lines of the access mark, which the first characters tell, and the schema.
-/

namespace RouteScaffold.Scaffold

open Json (Spaced Token)
open Synthesis (Access RequestSchema)
open Text

/-! ## The path in the greeting -/

/-- The escape of a string loses nothing. -/
theorem stringText_injective {text other : List Char} (h : stringText text = stringText other) :
    text = other := by
  -- one character is read off in one way
  have hchar : ∀ (c d : Char) (x y : List Char), stringChar c ++ x = stringChar d ++ y →
      c = d ∧ x = y := by
    intro c d x y h
    rw [stringChar, stringChar] at h
    split_ifs at h with hc hd hd
    · simpa using h
    · exact absurd (Or.inl (List.cons.inj h).1.symm) hd
    · exact absurd (Or.inl (List.cons.inj h).1) hc
    · simpa using h
  have hne : ∀ (c : Char) (x : List Char), stringChar c ++ x ≠ [] := by
    intro c x
    rw [stringChar]
    split <;> exact List.cons_ne_nil _ _
  induction text generalizing other with
  | nil =>
      cases other with
      | nil => rfl
      | cons d more => exact absurd h.symm (hne d _)
  | cons c rest ih =>
      cases other with
      | nil => exact absurd h (hne c _)
      | cons d more =>
          obtain ⟨rfl, hrest⟩ := hchar c d _ _ h
          rw [ih hrest]

theorem head?_stringText_ne (text : List Char) : (stringText text).head? ≠ some '\'' := by
  cases text with
  | nil => exact nofun
  | cons c rest =>
      rw [stringText, List.flatMap_cons, stringChar]
      split
      · exact fun h => absurd (Option.some.inj h) (by decide)
      · rename_i hc
        exact fun h => hc (Or.inr (Option.some.inj h))

/-- A quote in an escaped text follows a backslash, not a parenthesis. -/
theorem opened_not_infix_stringText (text : List Char) : ¬ ['(', '\''] <:+: stringText text := by
  induction text with
  | nil => exact fun h => absurd h.length_le (by decide)
  | cons c rest ih =>
      rw [stringText, List.flatMap_cons, ← stringText]
      have hseam : ∀ d : Char, ¬ ['(', '\''] <:+: d :: stringText rest :=
        fun d => pair_not_infix_cons ih fun _ => head?_stringText_ne rest
      rw [stringChar]
      split
      · exact pair_not_infix_cons (hseam c) fun h => absurd h (by decide)
      · exact hseam c

theorem opened_not_infix_hello (text : List Char) :
    ¬ ['(', '\''] <:+: "Hello ".toList ++ stringText text :=
  pair_not_infix_append (by decide) (opened_not_infix_stringText text) fun h => absurd h (by decide)

/-- The argument of `send` follows a parenthesis. -/
theorem beforeGreeting_eq (scaffold : Scaffold) :
    ∃ front, scaffold.beforeGreeting = front ++ ['('] := by
  have hopen : "        res.send(".toList = "        res.send".toList ++ ['('] := by decide
  exact ⟨_, by rw [beforeGreeting, hopen, ← List.append_assoc, ← List.append_assoc]⟩

variable {first second : Scaffold}

/-- The text tells the path, and what precedes the greeting. -/
theorem mapped_eq_of_text_eq (h : first.text = second.text) :
    first.beforeGreeting = second.beforeGreeting ∧ first.mapped = second.mapped := by
  obtain ⟨-, hstyle, hmethod⟩ := eq_of_text_eq h
  have hafter : first.afterGreeting = second.afterGreeting := by
    rw [afterGreeting, afterGreeting, hstyle, hmethod]
  have hchars := congrArg String.toList h
  rw [toList_text_eq_greeting, toList_text_eq_greeting, hafter, List.append_left_inj] at hchars
  obtain ⟨front, hfront⟩ := beforeGreeting_eq first
  obtain ⟨front', hfront'⟩ := beforeGreeting_eq second
  have hopened : ∀ (front : List Char) (scaffold : Scaffold),
      front ++ ['('] ++ scaffold.greeting =
        (front ++ '(' :: '\'' :: ("Hello ".toList ++ stringText scaffold.mapped.toList)) ++ ['\''] := by
    intro front scaffold
    rw [greeting]
    simp only [List.append_assoc, List.cons_append, List.nil_append]
  rw [hfront, hfront', hopened, hopened, List.append_left_inj] at hchars
  obtain ⟨hfronts, hpaths⟩ := cut_last_pair (by decide) (opened_not_infix_hello _)
    (opened_not_infix_hello _) hchars
  have hmapped := stringText_injective (List.append_cancel_left hpaths)
  exact ⟨by rw [hfront, hfront', hfronts], String.toList_inj.mp hmapped⟩

/-! ## The access mark and the schema -/

/-- The text tells the lines of the access mark and of the schema together. -/
theorem blocks_eq_of_text_eq (h : first.text = second.text) :
    first.accessLines ++ first.schemaLines = second.accessLines ++ second.schemaLines := by
  obtain ⟨-, -, hmethod⟩ := eq_of_text_eq h
  obtain ⟨hbefore, hmapped⟩ := mapped_eq_of_text_eq h
  have hheader : first.header = second.header := by rw [header, header, hmethod, hmapped]
  have hbinding : first.binding = second.binding := by rw [binding, binding, hmethod]
  rw [beforeGreeting, beforeGreeting, hheader, hbinding, List.append_left_inj] at hbefore
  simp only [List.append_assoc, List.append_cancel_left_eq] at hbefore
  exact hbefore

/-- The comment of the access mark. -/
def comment? (scaffold : Scaffold) : Option String := scaffold.access.bind (·.comment)

/-- A number stands in the schema of a scaffold. -/
def HasNumber (scaffold : Scaffold) (number : Number) : Prop :=
  ∃ schema, scaffold.schema = some schema ∧ Token.num number ∈ schema.tree.tokens

/-- Lines are none, or they start with an indentation and a character. -/
def Begins (lines : List Char) : Option Char → Prop
  | none => lines = []
  | some c => ∃ rest, lines = "    ".toList ++ c :: rest

theorem Begins.unique {lines : List Char} {mark other : Option Char} (h : Begins lines mark)
    (hother : Begins lines other) : mark = other := by
  cases mark with
  | none =>
      cases other with
      | none => rfl
      | some d =>
          obtain ⟨rest, hrest⟩ := hother
          rw [Begins.eq_1] at h
          exact absurd (hrest.symm.trans h) (by simp)
  | some c =>
      obtain ⟨rest, rfl⟩ := h
      cases other with
      | none => exact absurd hother (by simp [Begins])
      | some d =>
          obtain ⟨more, hmore⟩ := hother
          rw [(List.cons.inj (List.append_cancel_left hmore)).1]

theorem begins_append {lines rest : List Char} {c : Char} (h : lines = "    ".toList ++ c :: rest)
    (more : List Char) : Begins (lines ++ more) (some c) :=
  ⟨rest ++ more, by rw [h, List.append_assoc, List.cons_append]⟩

/-- The character that the lines of an access mark start with. -/
def accessInitial : Option Access → Option Char
  | none => none
  | some ⟨none⟩ => some 'p'
  | some ⟨some _⟩ => some '/'

theorem begins_schemaLines (scaffold : Scaffold) :
    Begins scaffold.schemaLines (scaffold.schema.map fun _ => 's') := by
  have hopen : "    schema: ".toList = "    ".toList ++ 's' :: "chema: ".toList := by decide
  rw [schemaLines]
  cases scaffold.schema with
  | none => rfl
  | some schema =>
      dsimp only
      rw [line, List.append_assoc, List.append_assoc]
      exact begins_append hopen _

theorem privateLine_eq :
    line "    private: true,".toList = "    ".toList ++ 'p' :: "rivate: true,\n".toList := by decide

theorem accessLines_of_comment {scaffold : Scaffold} {comment : String}
    (h : scaffold.access = some ⟨some comment⟩) (hne : comment ≠ "") :
    scaffold.accessLines =
      "    // ".toList ++ (comment.toList ++ '\n' :: line "    private: true,".toList) := by
  have hnil : comment.toList.isEmpty = false := by
    rw [List.isEmpty_eq_false_iff]
    exact fun hnil => hne (String.toList_eq_nil_iff.mp hnil)
  rw [accessLines, h]
  dsimp only [Option.getD]
  rw [hnil, if_neg (by decide), line, List.append_assoc, List.append_assoc]
  rfl

theorem begins_accessLines {scaffold : Scaffold}
    (hcomment : ∀ comment, scaffold.comment? = some comment → comment ≠ "" ∧ '\n' ∉ comment.toList)
    (more : List Char) {mark : Option Char} (hmore : Begins more mark) :
    Begins (scaffold.accessLines ++ more) ((accessInitial scaffold.access).or mark) := by
  match haccess : scaffold.access with
  | none =>
      rw [accessLines, haccess]
      exact hmore
  | some ⟨none⟩ =>
      rw [accessLines, haccess]
      exact begins_append privateLine_eq more
  | some ⟨some comment⟩ =>
      have hopen : "    // ".toList = "    ".toList ++ '/' :: "/ ".toList := by decide
      have hne := (hcomment comment (by rw [comment?, haccess]; rfl)).1
      rw [accessLines_of_comment haccess hne, List.append_assoc]
      exact begins_append hopen _

/-- No schema starts like an access mark, so that the first character tells which access mark there is. -/
theorem accessInitial_eq_of_or_eq {access other : Option Access} {schema more : Option RequestSchema}
    (h : (accessInitial access).or (schema.map fun _ => 's') =
      (accessInitial other).or (more.map fun _ => 's')) :
    accessInitial access = accessInitial other := by
  rcases access with _ | ⟨_ | _⟩ <;> rcases other with _ | ⟨_ | _⟩ <;> cases schema <;> cases more <;>
    simp_all [accessInitial]

/-- The lines of the access mark and of the schema tell where the one ends and the other starts. -/
theorem access_eq_of_blocks_eq
    (hfirst : ∀ comment, first.comment? = some comment → comment ≠ "" ∧ '\n' ∉ comment.toList)
    (hsecond : ∀ comment, second.comment? = some comment → comment ≠ "" ∧ '\n' ∉ comment.toList)
    (h : first.accessLines ++ first.schemaLines = second.accessLines ++ second.schemaLines) :
    first.access = second.access ∧ first.schemaLines = second.schemaLines := by
  -- how the lines begin tells which kind of mark there is
  have hinitial := accessInitial_eq_of_or_eq <|
    (begins_accessLines hfirst _ (begins_schemaLines first)).unique
      (h ▸ begins_accessLines hsecond _ (begins_schemaLines second))
  match haccess : first.access, haccess' : second.access with
  | none, none =>
      rw [accessLines, accessLines, haccess, haccess'] at h
      exact ⟨rfl, h⟩
  | some ⟨none⟩, some ⟨none⟩ =>
      rw [accessLines, accessLines, haccess, haccess'] at h
      exact ⟨rfl, List.append_cancel_left h⟩
  | some ⟨some comment⟩, some ⟨some other⟩ =>
      obtain ⟨hne, hline⟩ := hfirst comment (by rw [comment?, haccess]; rfl)
      obtain ⟨hne', hline'⟩ := hsecond other (by rw [comment?, haccess']; rfl)
      rw [accessLines_of_comment haccess hne, accessLines_of_comment haccess' hne'] at h
      simp only [List.append_assoc, List.append_cancel_left_eq, List.cons_append] at h
      obtain ⟨hcomment, hrest⟩ := cut_first hline hline' h
      rw [String.toList_inj.mp hcomment]
      exact ⟨rfl, List.append_cancel_left hrest⟩
  | none, some ⟨none⟩ | none, some ⟨some _⟩ | some ⟨none⟩, none | some ⟨some _⟩, none
  | some ⟨none⟩, some ⟨some _⟩ | some ⟨some _⟩, some ⟨none⟩ =>
      rw [haccess, haccess'] at hinitial
      cases hinitial

/-- The tree of a schema tells its headers and its body. -/
theorem tree_injective {schema other : RequestSchema} (h : schema.tree = other.tree) :
    schema = other := by
  obtain ⟨headers, body⟩ := schema
  obtain ⟨headers', body'⟩ := other
  rw [RequestSchema.tree, RequestSchema.tree] at h
  cases headers <;> cases headers' <;> cases body <;> cases body' <;> simp_all

/-- The lines of a schema tell the schema. -/
theorem schema_eq_of_schemaLines_eq
    (hnumbers : ∀ m n, first.HasNumber m → second.HasNumber n → m.text = n.text → m = n)
    (h : first.schemaLines = second.schemaLines) : first.schema = second.schema := by
  have hinitial := (begins_schemaLines first).unique (h ▸ begins_schemaLines second)
  cases hschema : first.schema with
  | none =>
      cases hschema' : second.schema with
      | none => rfl
      | some other =>
          rw [hschema, hschema'] at hinitial
          cases hinitial
  | some schema =>
      cases hschema' : second.schema with
      | none =>
          rw [hschema, hschema'] at hinitial
          cases hinitial
      | some other =>
          rw [schemaLines, schemaLines, hschema, hschema'] at h
          dsimp only at h
          rw [line, line, List.append_left_inj, List.append_left_inj, List.append_right_inj] at h
          -- both texts are laid out forms, which stand for one list of tokens
          have htokens := (Json.spaced_prettyChars 1 schema.tree).unique
            (h ▸ Json.spaced_prettyChars 1 other.tree)
            fun m n hm hn => hnumbers m n ⟨schema, hschema, hm⟩ ⟨other, hschema', hn⟩
          rw [tree_injective (Json.tokens_injective htokens)]

/-- Two scaffolds with one text have the same path, method, style, access mark and schema, if comments are not empty
and on one line, and numbers with one text are one number. -/
theorem determined_of_text_eq
    (hfirst : ∀ comment, first.comment? = some comment → comment ≠ "" ∧ '\n' ∉ comment.toList)
    (hsecond : ∀ comment, second.comment? = some comment → comment ≠ "" ∧ '\n' ∉ comment.toList)
    (hnumbers : ∀ m n, first.HasNumber m → second.HasNumber n → m.text = n.text → m = n)
    (h : first.text = second.text) :
    first.mapped = second.mapped ∧ first.method = second.method ∧ first.style = second.style ∧
      first.access = second.access ∧ first.schema = second.schema := by
  obtain ⟨-, hstyle, hmethod⟩ := eq_of_text_eq h
  obtain ⟨-, hmapped⟩ := mapped_eq_of_text_eq h
  obtain ⟨haccess, hlines⟩ := access_eq_of_blocks_eq hfirst hsecond (blocks_eq_of_text_eq h)
  exact ⟨hmapped, hmethod, hstyle, haccess, schema_eq_of_schemaLines_eq hnumbers hlines⟩

/-- The place and the template of a scaffold do not show in its text. -/
theorem text_moved (scaffold : Scaffold) (file template : String) :
    ({ scaffold with file, template } : Scaffold).text = scaffold.text := rfl

/-- A scaffold whose path, comment and schema look like other parts of its text. -/
def mimicScaffold : Scaffold where
  file := "a/get.ts"
  method := .get
  template := "/a"
  mapped := "/a');\n    \x7d\n\x7d;\n\nsend('Hello \\"
  access := some ⟨some "private: true, schema: "⟩
  schema := some { body := some (.obj [("\n    handler", .num (.int 1)), (",", .num (.int 10))]) }
  style := .dynamicAssignment

theorem determined_of_text_eq_mimic :
    ∃ moved : Scaffold, moved.file ≠ mimicScaffold.file ∧
      (∀ comment, mimicScaffold.comment? = some comment → comment ≠ "" ∧ '\n' ∉ comment.toList) ∧
      (∀ comment, moved.comment? = some comment → comment ≠ "" ∧ '\n' ∉ comment.toList) ∧
      (∀ m n, mimicScaffold.HasNumber m → moved.HasNumber n → m.text = n.text → m = n) ∧
      mimicScaffold.text = moved.text ∧
      mimicScaffold.mapped = moved.mapped ∧ mimicScaffold.method = moved.method ∧
      mimicScaffold.style = moved.style ∧ mimicScaffold.access = moved.access ∧
      mimicScaffold.schema = moved.schema := by
  have hcomment : ∀ comment, mimicScaffold.comment? = some comment →
      comment ≠ "" ∧ '\n' ∉ comment.toList := by
    intro comment hcomment
    obtain rfl : "private: true, schema: " = comment := Option.some.inj hcomment
    decide
  have hnumber : ∀ m, mimicScaffold.HasNumber m → m = .int 1 ∨ m = .int 10 := by
    rintro m ⟨schema, hschema, hm⟩
    cases hschema
    simpa [RequestSchema.tree, Json.tokens, Json.memberTokens] using hm
  have hnumbers : ∀ m n, mimicScaffold.HasNumber m → mimicScaffold.HasNumber n →
      m.text = n.text → m = n := by
    intro m n hm hn htext
    rcases hnumber m hm with rfl | rfl <;> rcases hnumber n hn with rfl | rfl <;>
      first | rfl | exact absurd htext (by decide)
  have htext := (text_moved mimicScaffold "b/get.ts" "/b").symm
  exact ⟨{ mimicScaffold with file := "b/get.ts", template := "/b" }, by decide, hcomment, hcomment,
    hnumbers, htext, determined_of_text_eq hcomment hcomment hnumbers htext⟩

end RouteScaffold.Scaffold
