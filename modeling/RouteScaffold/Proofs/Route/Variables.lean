import Mathlib.Data.List.TakeWhile
import RouteScaffold.Proofs.Text.Seams
import RouteScaffold.Route.Template

/-!
# The variables of a template

A variable stands in a text wherever a name stands between braces (`Occurs`).  Names hold no brace, so two
variables never overlap, and reading a text from left to right finds each of them (`occurs_iff_holds`): where a
variable begins it is read whole, and nothing else is passed over than characters at which none begins.

So a text is read as a template in one way (`Reads.eq_ofChars`), and mapping it puts a dollar sign in place of the
braces of each variable and changes nothing else (`exists_reads`).
-/

namespace RouteScaffold.Route

/-! ## Names between braces -/

/-- A name that a variable can have: a word of letters, digits and underscores. -/
structure IsVariableName (name : List Char) : Prop where
  ne_nil : name ≠ []
  chars : ∀ c ∈ name, ('A' ≤ c ∧ c ≤ 'Z') ∨ ('a' ≤ c ∧ c ≤ 'z') ∨ ('0' ≤ c ∧ c ≤ '9') ∨ c = '_'

theorem isNameChar_iff {c : Char} :
    isNameChar c = true ↔
      ('A' ≤ c ∧ c ≤ 'Z') ∨ ('a' ≤ c ∧ c ≤ 'z') ∨ ('0' ≤ c ∧ c ≤ '9') ∨ c = '_' := by
  have hupper : c.isUpper = true ↔ 'A' ≤ c ∧ c ≤ 'Z' := decide_eq_true_iff
  have hlower : c.isLower = true ↔ 'a' ≤ c ∧ c ≤ 'z' :=
    Bool.and_eq_true_iff.trans (and_congr decide_eq_true_iff decide_eq_true_iff)
  have hdigit : c.isDigit = true ↔ '0' ≤ c ∧ c ≤ '9' :=
    Bool.and_eq_true_iff.trans (and_congr decide_eq_true_iff decide_eq_true_iff)
  change (((c.isUpper || c.isLower) || c.isDigit) || decide (c = '_')) = true ↔ _
  simp only [Bool.or_eq_true, hupper, hlower, hdigit, decide_eq_true_eq, or_assoc]

theorem isVariableName_iff {name : List Char} :
    IsVariableName name ↔ name ≠ [] ∧ ∀ c ∈ name, isNameChar c = true := by
  simp only [isNameChar_iff]
  exact ⟨fun h => ⟨h.ne_nil, h.chars⟩, fun h => ⟨h.1, h.2⟩⟩

theorem IsVariableName.not_mem {name : List Char} (h : IsVariableName name) {c : Char}
    (hc : isNameChar c = false) : c ∉ name := by
  intro hmem
  have hchar := (isVariableName_iff.mp h).2 c hmem
  rw [hc] at hchar
  cases hchar

/-- A variable stands in a text, with what is before it and what is after it. -/
structure Occurs (text front name back : List Char) : Prop where
  isName : IsVariableName name
  text_eq : text = front ++ '{' :: (name ++ '}' :: back)

/-- A text begins with a variable when one stands in it with nothing before it. -/
theorem variableAt?_eq_some {text name rest : List Char} :
    variableAt? text = some (name, rest) ↔ Occurs text [] name rest := by
  constructor
  · intro h
    unfold variableAt? at h
    split at h
    · rename_i after
      split at h
      · rename_i more hmore
        split at h
        · cases h
        · rename_i hne
          cases h
          refine ⟨isVariableName_iff.mpr ⟨by simpa using hne, fun c hc => ?_⟩, ?_⟩
          · exact List.mem_takeWhile_imp hc
          · rw [List.nil_append, ← hmore, List.takeWhile_append_dropWhile]
      · cases h
    · cases h
  · rintro ⟨hname, rfl⟩
    obtain ⟨hne, hchars⟩ := isVariableName_iff.mp hname
    have hbrace : isNameChar '}' = false := by decide
    have hhead : ∀ c ∈ ('}' :: rest).head?, isNameChar c = false := by
      intro c hc
      rw [← Option.some.inj hc]
      exact hbrace
    have htake := Text.takeWhile_scanned hchars hhead
    have hdrop := Text.dropWhile_scanned hchars hhead
    rw [List.nil_append, variableAt?]
    simp only [hdrop, htake]
    rw [if_neg (by simpa using hne)]

/-- Where no variable begins, those of the text are those of the rest. -/
theorem occurs_cons_of_none {c : Char} {rest front name back : List Char}
    (hnone : variableAt? (c :: rest) = none) :
    Occurs (c :: rest) front name back ↔
      ∃ more, front = c :: more ∧ Occurs rest more name back := by
  constructor
  · rintro ⟨hname, htext⟩
    cases front with
    | nil =>
        have hhere := variableAt?_eq_some.mpr (Occurs.mk hname htext)
        rw [hnone] at hhere
        cases hhere
    | cons d more =>
        obtain ⟨rfl, hrest⟩ := List.cons.inj htext
        exact ⟨more, rfl, hname, hrest⟩
  · rintro ⟨more, rfl, hname, rfl⟩
    exact ⟨hname, rfl⟩

/-- Where a variable begins no other one begins before its end. -/
theorem occurs_variable {first rest front name back : List Char} (hfirst : IsVariableName first) :
    Occurs ('{' :: (first ++ '}' :: rest)) front name back ↔
      (front = [] ∧ name = first ∧ back = rest) ∨
        ∃ more, front = '{' :: (first ++ '}' :: more) ∧ Occurs rest more name back := by
  have hopen : '{' ∉ first := hfirst.not_mem (by decide)
  have hclose : '}' ∉ first := hfirst.not_mem (by decide)
  constructor
  · rintro ⟨hname, htext⟩
    cases front with
    | nil =>
        obtain ⟨rfl, rfl⟩ := Text.cut_first hclose (hname.not_mem (by decide)) (List.cons.inj htext).2
        exact Or.inl ⟨rfl, rfl, rfl⟩
    | cons d more =>
        -- the opening brace is behind the closing one of the first variable
        obtain ⟨rfl, hrest⟩ := List.cons.inj htext
        have hsplit : (first ++ ['}']) ++ rest = more ++ '{' :: (name ++ '}' :: back) := by
          rw [List.append_assoc]
          exact hrest
        rcases List.append_eq_append_iff.mp hsplit with ⟨later, rfl, rfl⟩ | ⟨later, hlater, hback⟩
        · exact Or.inr ⟨later, by rw [List.append_assoc]; rfl, hname, rfl⟩
        · cases later with
          | nil =>
              refine Or.inr ⟨[], ?_, hname, hback.symm⟩
              rw [List.append_nil] at hlater
              rw [← hlater]
          | cons e later =>
              obtain ⟨rfl, -⟩ := List.cons.inj hback
              have hmem : '{' ∈ first ++ ['}'] := by simp [hlater]
              simp [hopen] at hmem
  · rintro (⟨rfl, rfl, rfl⟩ | ⟨more, rfl, hname, rfl⟩)
    · exact ⟨hfirst, rfl⟩
    · exact ⟨hname, by simp⟩

/-! ## Templates -/

namespace Template

/-- A template is empty, or begins with a character or with a variable. -/
theorem induction {P : Template → Prop} (empty : P ⟨[], []⟩)
    (char : ∀ c template, P template → P (template.prepend c))
    (named : ∀ name template, P template → P (template.prependVariable name))
    (template : Template) : P template := by
  obtain ⟨head, tail⟩ := template
  induction tail generalizing head with
  | nil =>
      induction head with
      | nil => exact empty
      | cons c rest ih => exact char c _ ih
  | cons first tail ih =>
      induction head with
      | nil => exact named first.1 _ (ih first.2)
      | cons c rest ihHead => exact char c _ ihHead

/-- Names and literals in turn, with one mark before each name and another one after it. -/
def alternating (opening closing : List Char) : List (List Char × List Char) → List Char
  | [] => []
  | (name, literal) :: rest =>
      opening ++ (name ++ (closing ++ (literal ++ alternating opening closing rest)))

/-- The text of a template, with marks around the names of its variables. -/
def spelled (opening closing : List Char) (template : Template) : List Char :=
  template.head ++ alternating opening closing template.tail

/-- A template as it is written, with its names between braces. -/
def written (template : Template) : List Char := template.spelled ['{'] ['}']

/-- A variable of a template, with what is written before it and after it. -/
def Holds (template : Template) (front name back : List Char) : Prop :=
  ∃ before literal after, template.tail = before ++ (name, literal) :: after ∧
    front = (Template.mk template.head before).written ∧ back = (Template.mk literal after).written

variable (template : Template)

@[simp] theorem spelled_prepend (opening closing : List Char) (c : Char) :
    (template.prepend c).spelled opening closing = c :: template.spelled opening closing := rfl

@[simp] theorem spelled_prependVariable (opening closing name : List Char) :
    (template.prependVariable name).spelled opening closing =
      opening ++ (name ++ (closing ++ template.spelled opening closing)) := rfl

@[simp] theorem written_prepend (c : Char) :
    (template.prepend c).written = c :: template.written := rfl

@[simp] theorem written_prependVariable (name : List Char) :
    (template.prependVariable name).written = '{' :: (name ++ '}' :: template.written) := rfl

@[simp] theorem mapped_prepend (c : Char) :
    (template.prepend c).mapped = c :: template.mapped := rfl

@[simp] theorem mapped_prependVariable (name : List Char) :
    (template.prependVariable name).mapped = '$' :: (name ++ template.mapped) := by
  simp [prependVariable, mapped]

@[simp] theorem variableNames_prepend (c : Char) :
    (template.prepend c).variableNames = template.variableNames := rfl

@[simp] theorem variableNames_prependVariable (name : List Char) :
    (template.prependVariable name).variableNames = name :: template.variableNames := rfl

variable {template}

theorem holds_prepend {c : Char} {front name back : List Char} :
    (template.prepend c).Holds front name back ↔
      ∃ more, front = c :: more ∧ template.Holds more name back := by
  constructor
  · rintro ⟨before, literal, after, htail, rfl, rfl⟩
    exact ⟨_, rfl, before, literal, after, htail, rfl, rfl⟩
  · rintro ⟨more, rfl, before, literal, after, htail, rfl, rfl⟩
    exact ⟨before, literal, after, htail, rfl, rfl⟩

theorem holds_prependVariable {first front name back : List Char} :
    (template.prependVariable first).Holds front name back ↔
      (front = [] ∧ name = first ∧ back = template.written) ∨
        ∃ more, front = '{' :: (first ++ '}' :: more) ∧ template.Holds more name back := by
  constructor
  · rintro ⟨before, literal, after, htail, rfl, rfl⟩
    cases before with
    | nil =>
        obtain ⟨hfirst, rfl⟩ := List.cons.inj htail
        obtain ⟨rfl, rfl⟩ := Prod.mk.inj hfirst
        exact Or.inl ⟨rfl, rfl, rfl⟩
    | cons pair before =>
        obtain ⟨rfl, hrest⟩ := List.cons.inj htail
        refine Or.inr ⟨_, ?_, before, literal, after, hrest, rfl, rfl⟩
        exact written_prependVariable ⟨template.head, before⟩ first
  · rintro (⟨rfl, rfl, rfl⟩ | ⟨more, rfl, before, literal, after, htail, rfl, rfl⟩)
    · exact ⟨[], template.head, template.tail, rfl, rfl, rfl⟩
    · refine ⟨(first, template.head) :: before, literal, after, ?_, ?_, rfl⟩
      · rw [List.cons_append, ← htail]
        rfl
      · exact (written_prependVariable ⟨template.head, before⟩ first).symm

/-- Each name of a template stands where the template holds it. -/
theorem exists_holds {name : List Char} (h : name ∈ template.variableNames) :
    ∃ front back, template.Holds front name back := by
  obtain ⟨⟨found, literal⟩, hmem, rfl⟩ := List.mem_map.mp h
  obtain ⟨before, after, htail⟩ := List.append_of_mem hmem
  exact ⟨_, _, before, literal, after, htail, rfl, rfl⟩

/-! ## Reading a text -/

theorem ofChars_variable {name : List Char} (h : IsVariableName name) (rest : List Char) :
    ofChars ('{' :: (name ++ '}' :: rest)) = (ofChars rest).prependVariable name := by
  have hfound : variableAt? ('{' :: (name ++ '}' :: rest)) = some (name, rest) :=
    variableAt?_eq_some.mpr ⟨h, rfl⟩
  rw [ofChars]
  split
  · rename_i hother
    rw [hfound] at hother
    cases hother
    rfl
  · rename_i hother
    rw [hfound] at hother
    cases hother

theorem ofChars_nil : ofChars [] = ⟨[], []⟩ := by
  rw [ofChars]
  rfl

theorem ofChars_cons {c : Char} {rest : List Char} (h : variableAt? (c :: rest) = none) :
    ofChars (c :: rest) = (ofChars rest).prepend c := by
  rw [ofChars]
  split
  · rename_i hfound
    rw [h] at hfound
    cases hfound
  · rfl

/-- A text is empty, or begins with a variable, or with a character at which none begins. -/
theorem text_induction {P : List Char → Prop} (empty : P [])
    (named : ∀ name rest, IsVariableName name → P rest → P ('{' :: (name ++ '}' :: rest)))
    (char : ∀ c rest, variableAt? (c :: rest) = none → P rest → P (c :: rest)) (text : List Char) :
    P text := by
  induction text using ofChars.induct with
  | case1 text name rest found hsmaller ih =>
      obtain ⟨hname, rfl⟩ := variableAt?_eq_some.mp found
      exact named name rest hname ih
  | case2 found => exact empty
  | case3 c rest found ih => exact char c rest found ih

/-- A template is written as the text it was read from. -/
theorem written_ofChars (text : List Char) : (ofChars text).written = text := by
  induction text using text_induction with
  | empty => rw [ofChars_nil]; rfl
  | named name rest hname ih =>
      rw [ofChars_variable hname, written_prependVariable, ih]
  | char c rest hnone ih => rw [ofChars_cons hnone, written_prepend, ih]

end Template

open Template

/-- The variables that stand in a text are those of the template that it is read as. -/
theorem occurs_iff_holds {text front name back : List Char} :
    Occurs text front name back ↔ (ofChars text).Holds front name back := by
  induction text using text_induction generalizing front with
  | empty =>
      rw [ofChars_nil]
      constructor
      · rintro ⟨-, htext⟩
        simp at htext
      · rintro ⟨before, literal, after, htail, -⟩
        simp at htail
  | named first rest hfirst ih =>
      rw [ofChars_variable hfirst, occurs_variable hfirst,
        holds_prependVariable, written_ofChars]
      simp only [ih]
  | char c rest hnone ih =>
      rw [ofChars_cons hnone, occurs_cons_of_none hnone, holds_prepend]
      simp only [ih]

/-- A template with all variables that stand in its text is what its text is read as. -/
theorem ofChars_written {template : Template}
    (hnames : ∀ name ∈ template.variableNames, IsVariableName name)
    (hcomplete : ∀ front name back, Occurs template.written front name back →
      template.Holds front name back) : ofChars template.written = template := by
  induction template using Template.induction with
  | empty => exact ofChars_nil
  | char c template ih =>
      -- a variable at the start would not be among those behind the character
      have hnone : variableAt? (c :: template.written) = none := by
        rw [Option.eq_none_iff_forall_ne_some]
        rintro ⟨name, rest⟩ hfound
        obtain ⟨more, hmore, -⟩ :=
          holds_prepend.mp (hcomplete [] name rest (variableAt?_eq_some.mp hfound))
        cases hmore
      rw [written_prepend, ofChars_cons hnone, ih hnames]
      intro front name back hoccurs
      have hbehind := occurs_cons_of_none hnone |>.mpr ⟨front, rfl, hoccurs⟩
      obtain ⟨more, hmore, hholds⟩ := holds_prepend.mp (hcomplete _ _ _ hbehind)
      obtain rfl := (List.cons.inj hmore).2
      exact hholds
  | named first template ih =>
      rw [variableNames_prependVariable, List.forall_mem_cons] at hnames
      obtain ⟨hfirst, hlater⟩ := hnames
      rw [written_prependVariable] at hcomplete ⊢
      rw [ofChars_variable hfirst, ih hlater]
      intro front name back hoccurs
      have hbehind := (occurs_variable hfirst).mpr (Or.inr ⟨front, rfl, hoccurs⟩)
      rcases holds_prependVariable.mp (hcomplete _ _ _ hbehind) with ⟨hnil, -⟩ | ⟨more, hmore, hholds⟩
      · cases hnil
      · have hsame := List.append_cancel_left (List.cons.inj hmore).2
        obtain rfl := (List.cons.inj hsame).2
        exact hholds

/-- Mapping a template puts a dollar sign in place of the braces of each variable. -/
theorem count_mapped (template : Template) :
    template.mapped.count '$' = template.written.count '$' + template.variableNames.length := by
  induction template using Template.induction with
  | empty => rfl
  | char c template ih =>
      rw [mapped_prepend, written_prepend, variableNames_prepend, List.count_cons, List.count_cons, ih]
      omega
  | named name template ih =>
      rw [mapped_prependVariable, written_prependVariable, variableNames_prependVariable,
        List.count_cons_self, List.count_append, ih, List.count_cons_of_ne (by decide),
        List.count_append, List.count_cons_of_ne (by decide), List.length_cons]
      omega

/-- Mapping a template spells it out with a dollar sign before each name and nothing after it. -/
theorem mapped_eq_spelled (template : Template) : template.mapped = template.spelled ['$'] [] := by
  induction template using Template.induction with
  | empty => rfl
  | char c template ih => rw [mapped_prepend, spelled_prepend, ih]
  | named name template ih =>
      rw [mapped_prependVariable, spelled_prependVariable, ih]
      rfl

/-- Without variables it does not matter what the marks are. -/
theorem spelled_of_variableNames_eq_nil {template : Template} (h : template.variableNames = [])
    (opening closing : List Char) : template.spelled opening closing = template.head := by
  have htail : template.tail = [] := List.map_eq_nil_iff.mp h
  rw [spelled, htail]
  exact List.append_nil _

/-- A template without variables is mapped to itself. -/
theorem mapped_of_variableNames_eq_nil {template : Template} (h : template.variableNames = []) :
    template.mapped = template.written := by
  rw [mapped_eq_spelled, written, spelled_of_variableNames_eq_nil h, spelled_of_variableNames_eq_nil h]

/-- A text is read as a template: it is what is written for the template, the variables have proper names,
and no variable that stands in the text is missed. -/
structure Reads (text : String) (template : Template) : Prop where
  written : template.written = text.toList
  names : ∀ name ∈ template.variableNames, IsVariableName name
  complete : ∀ front name back, Occurs text.toList front name back → template.Holds front name back

theorem reads_ofChars (text : String) : Reads text (ofChars text.toList) where
  written := written_ofChars text.toList
  names name hname := by
    obtain ⟨front, back, hholds⟩ := exists_holds hname
    exact (occurs_iff_holds.mpr hholds).isName
  complete _ _ _ hoccurs := occurs_iff_holds.mp hoccurs

/-- A text is read as one template only. -/
theorem Reads.eq_ofChars {text : String} {template : Template} (h : Reads text template) :
    template = ofChars text.toList := by
  have hcomplete := h.complete
  rw [← h.written] at hcomplete ⊢
  exact (ofChars_written h.names hcomplete).symm

/-- A text is read as one template.  The variables of the text are those of the template, and mapping the text
puts a dollar sign before each of their names in place of the braces: it has one dollar sign more for each variable,
and is the text itself when there is none. -/
theorem exists_reads (text : String) :
    ∃ template, Reads text template ∧ (∀ other, Reads text other → other = template) ∧
      templateVariables text = template.variableNames.map String.ofList ∧
      mapTemplate text = String.ofList (template.spelled ['$'] []) ∧
      (mapTemplate text).toList.count '$' =
        text.toList.count '$' + (templateVariables text).length ∧
      (templateVariables text = [] → mapTemplate text = text) := by
  refine ⟨ofChars text.toList, reads_ofChars text, fun other hother => hother.eq_ofChars, rfl, ?_, ?_, ?_⟩
  · rw [mapTemplate, mapped_eq_spelled]
  · rw [mapTemplate, templateVariables, String.toList_ofList, List.length_map, count_mapped,
      written_ofChars]
  · intro hnone
    have hnames : (ofChars text.toList).variableNames = [] := List.map_eq_nil_iff.mp hnone
    rw [mapTemplate, mapped_of_variableNames_eq_nil hnames, written_ofChars, String.ofList_toList]

/-- Braces may stand side by side and within each other. -/
example : templateVariables "/\x7b\x7ba\x7d\x7d/\x7ba\x7bb_1\x7d\x7b\x7d" = ["a", "b_1"] ∧
    mapTemplate "/\x7b\x7ba\x7d\x7d/\x7ba\x7bb_1\x7d\x7b\x7d" = "/\x7b$a\x7d/\x7ba$b_1\x7b\x7d" := by
  constructor <;> cbv

end RouteScaffold.Route
