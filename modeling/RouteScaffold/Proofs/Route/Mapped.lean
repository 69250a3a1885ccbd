import RouteScaffold.Proofs.Route.Directory
import RouteScaffold.Proofs.Route.Variables

/-!
# What mapping leaves

A variable holds no slash, so that it stands within one piece of a template: mapping a template is mapping its pieces
one by one (`splitOn_mapped`).  A mapped variable is more than a few dots, and everything else stays as it is, so
that mapping neither makes nor hides a piece that is empty, a single dot or a step to the parent
(`pieces_mapTemplate`).

No variable is left in a mapped template (`templateVariables_mapTemplate`).  One that stood there would begin at a
brace of the template, since the names that are put in have none, and would end before the next dollar sign, since a
name has none either.  Up to a dollar sign a mapped text is the text itself (`prefix_of_prefix_mapped`), so that the
variable would have stood in the template at that brace and have been mapped.
-/

namespace RouteScaffold.Route

open Template

/-! ## Where no variable begins -/

/-- No variable begins with a brace when none began with it in front of another text, and the names that are closed in
the one text are closed in the other. -/
theorem variableAt?_eq_none_of_prefix {c : Char} {text other : List Char}
    (hnone : variableAt? (c :: text) = none)
    (hclosed : ∀ name, IsVariableName name → name ++ ['}'] <+: other → name ++ ['}'] <+: text) :
    variableAt? (c :: other) = none := by
  rw [Option.eq_none_iff_forall_ne_some]
  rintro ⟨name, rest⟩ hfound
  obtain ⟨hname, htext⟩ := variableAt?_eq_some.mp hfound
  obtain ⟨rfl, rfl⟩ := List.cons.inj htext
  obtain ⟨more, rfl⟩ := hclosed name hname ⟨rest, by simp⟩
  have hoccurs : Occurs ('{' :: (name ++ ['}'] ++ more)) [] name more := ⟨hname, by simp⟩
  rw [variableAt?_eq_some.mpr hoccurs] at hnone
  cases hnone

theorem IsVariableName.not_mem_closed {name : List Char} (h : IsVariableName name) {c : Char}
    (hc : isNameChar c = false) (hne : c ≠ '}') : c ∉ name ++ ['}'] := by
  simpa [hne] using h.not_mem hc

/-! ## Slashes -/

/-- A start without slashes is one of what comes before a slash. -/
theorem prefix_of_prefix_append_slash {start front back : List Char} (hslash : '/' ∉ start)
    (h : start <+: front ++ '/' :: back) : start <+: front := by
  rcases List.prefix_or_prefix_of_prefix h (List.prefix_append front _) with hfront | ⟨rest, rfl⟩
  · exact hfront
  · cases rest with
    | nil => simp
    | cons c rest =>
        obtain ⟨rfl, -⟩ := List.cons_prefix_cons.mp ((List.prefix_append_right_inj front).mp h)
        simp at hslash

/-- A slash ends what a variable can hold. -/
theorem variableAt?_append_slash {c : Char} {rest : List Char} (back : List Char)
    (hnone : variableAt? (c :: rest) = none) : variableAt? (c :: (rest ++ '/' :: back)) = none :=
  variableAt?_eq_none_of_prefix hnone fun _ hname =>
    prefix_of_prefix_append_slash (hname.not_mem_closed (by decide) (by decide))

theorem mapped_append_slash (front back : List Char) :
    (ofChars (front ++ '/' :: back)).mapped = (ofChars front).mapped ++ '/' :: (ofChars back).mapped := by
  induction front using text_induction with
  | empty =>
      have hnone : variableAt? ('/' :: back) = none := rfl
      rw [List.nil_append, ofChars_cons hnone, mapped_prepend, ofChars_nil]
      rfl
  | named name rest hname ih =>
      rw [List.cons_append, List.append_assoc, List.cons_append, ofChars_variable hname, ofChars_variable hname,
        mapped_prependVariable, mapped_prependVariable, ih, List.cons_append, List.append_assoc]
  | char c rest hnone ih =>
      rw [List.cons_append, ofChars_cons (variableAt?_append_slash back hnone), ofChars_cons hnone,
        mapped_prepend, mapped_prepend, ih, List.cons_append]

theorem mapped_intercalate (parts : List (List Char)) :
    (ofChars (['/'].intercalate parts)).mapped =
      ['/'].intercalate (parts.map fun part => (ofChars part).mapped) := by
  induction parts with
  | nil =>
      rw [List.intercalate_nil, ofChars_nil]
      rfl
  | cons part rest ih =>
      cases rest with
      | nil => rw [List.map_singleton, List.intercalate_singleton, List.intercalate_singleton]
      | cons next more =>
          rw [List.map_cons] at ih
          rw [List.map_cons, List.map_cons, List.intercalate_cons_cons, List.intercalate_cons_cons,
            List.append_assoc, List.append_assoc, List.singleton_append, List.singleton_append,
            mapped_append_slash, ih]

/-- Mapping a text adds dollar signs only. -/
theorem mem_of_mem_mapped {text : List Char} {c : Char} (h : c ∈ (ofChars text).mapped) : c = '$' ∨ c ∈ text := by
  induction text using text_induction with
  | empty =>
      rw [ofChars_nil] at h
      cases h
  | named name rest hname ih =>
      rw [ofChars_variable hname, mapped_prependVariable, List.mem_cons, List.mem_append] at h
      rcases h with hdollar | hmem | hrest
      · exact .inl hdollar
      · exact .inr (by simp [hmem])
      · exact (ih hrest).imp_right fun hmem => by simp [hmem]
  | char d rest hnone ih =>
      rw [ofChars_cons hnone, mapped_prepend, List.mem_cons] at h
      rcases h with rfl | hrest
      · exact .inr List.mem_cons_self
      · exact (ih hrest).imp_right (List.mem_cons_of_mem _)

/-- The pieces of a mapped text are the mapped pieces of the text. -/
theorem splitOn_mapped (text : List Char) :
    (ofChars text).mapped.splitOn '/' = (text.splitOn '/').map fun piece => (ofChars piece).mapped := by
  have hslash : ∀ piece ∈ (text.splitOn '/').map fun piece => (ofChars piece).mapped, '/' ∉ piece := by
    intro mapped hmapped hmem
    obtain ⟨piece, hpiece, rfl⟩ := List.mem_map.mp hmapped
    rw [← Text.slashPieces_eq_splitOn] at hpiece
    rcases mem_of_mem_mapped hmem with hdollar | hmem
    · cases hdollar
    · exact Text.slash_not_mem_of_mem_slashPieces hpiece hmem
  have hne : (text.splitOn '/').map (fun piece => (ofChars piece).mapped) ≠ [] := by
    simp [List.splitOn_ne_nil]
  calc (ofChars text).mapped.splitOn '/'
      = (ofChars (['/'].intercalate (text.splitOn '/'))).mapped.splitOn '/' := by
        rw [List.intercalate_splitOn]
    _ = _ := by rw [mapped_intercalate, List.splitOn_intercalate '/' hslash hne]

/-! ## Dollar signs -/

/-- A mapped text without dollar signs is the text itself. -/
theorem mapped_eq_of_not_mem {text : List Char} (h : '$' ∉ (ofChars text).mapped) : (ofChars text).mapped = text := by
  induction text using text_induction with
  | empty =>
      rw [ofChars_nil]
      rfl
  | named name rest hname ih =>
      rw [ofChars_variable hname, mapped_prependVariable] at h
      simp at h
  | char c rest hnone ih =>
      rw [ofChars_cons hnone, mapped_prepend, List.mem_cons, not_or] at h
      rw [ofChars_cons hnone, mapped_prepend, ih h.2]

/-- What begins a mapped text before its first dollar sign begins the text itself. -/
theorem prefix_of_prefix_mapped {text start : List Char} (hdollar : '$' ∉ start)
    (h : start <+: (ofChars text).mapped) : start <+: text := by
  induction text using text_induction generalizing start with
  | empty =>
      rw [ofChars_nil] at h
      exact h
  | named name rest hname ih =>
      rw [ofChars_variable hname, mapped_prependVariable] at h
      cases start with
      | nil => exact List.nil_prefix
      | cons c more =>
          obtain ⟨rfl, -⟩ := List.cons_prefix_cons.mp h
          simp at hdollar
  | char c rest hnone ih =>
      rw [ofChars_cons hnone, mapped_prepend] at h
      cases start with
      | nil => exact List.nil_prefix
      | cons d more =>
          obtain ⟨rfl, hmore⟩ := List.cons_prefix_cons.mp h
          rw [List.mem_cons, not_or] at hdollar
          exact List.cons_prefix_cons.mpr ⟨rfl, ih hdollar.2 hmore⟩

/-! ## Nothing left to map -/

/-- A variable does not begin in a text without an opening brace. -/
theorem Occurs.of_append {before text front name back : List Char} (hopen : '{' ∉ before)
    (h : Occurs (before ++ text) front name back) : ∃ more, Occurs text more name back := by
  rcases List.append_eq_append_iff.mp h.text_eq with ⟨more, rfl, htext⟩ | ⟨more, rfl, hmore⟩
  · exact ⟨more, h.isName, htext⟩
  · cases more with
    | nil => exact ⟨[], h.isName, hmore.symm⟩
    | cons c more =>
        obtain ⟨rfl, -⟩ := List.cons.inj hmore
        simp at hopen

/-- No variable stands in a mapped text. -/
theorem not_occurs_mapped {text front name back : List Char} :
    ¬ Occurs (ofChars text).mapped front name back := by
  induction text using text_induction generalizing front with
  | empty =>
      rw [ofChars_nil]
      rintro ⟨-, htext⟩
      simp [Template.mapped] at htext
  | named first rest hfirst ih =>
      rw [ofChars_variable hfirst, mapped_prependVariable, ← List.cons_append]
      intro hoccurs
      have hopen : '{' ∉ '$' :: first := by simpa using hfirst.not_mem (by decide)
      obtain ⟨more, hmore⟩ := Occurs.of_append hopen hoccurs
      exact ih hmore
  | char c rest hnone ih =>
      have hmapped : variableAt? (c :: (ofChars rest).mapped) = none :=
        variableAt?_eq_none_of_prefix hnone fun _ hname =>
          prefix_of_prefix_mapped (hname.not_mem_closed (by decide) (by decide))
      rw [ofChars_cons hnone, mapped_prepend, occurs_cons_of_none hmapped]
      rintro ⟨more, -, hoccurs⟩
      exact ih hoccurs

/-! ## Templates as strings -/

/-- A text in which no variable stands is read as a template without variables. -/
theorem variableNames_ofChars_eq_nil {text : List Char}
    (h : ∀ front name back, ¬ Occurs text front name back) : (ofChars text).variableNames = [] := by
  rw [List.eq_nil_iff_forall_not_mem]
  intro name hname
  obtain ⟨front, back, hholds⟩ := exists_holds hname
  exact h front name back (occurs_iff_holds.mpr hholds)

theorem toList_mapTemplate (template : String) :
    (mapTemplate template).toList = (ofChars template.toList).mapped := String.toList_ofList

/-- A text that has no dollar sign and is mapped to itself is what only itself is mapped to. -/
theorem mapTemplate_eq_iff {template special : String} (hdollar : '$' ∉ special.toList)
    (hspecial : mapTemplate special = special) : mapTemplate template = special ↔ template = special := by
  constructor
  · rintro rfl
    rw [toList_mapTemplate] at hdollar
    rw [mapTemplate, mapped_eq_of_not_mem hdollar, String.ofList_toList]
  · rintro rfl
    exact hspecial

/-- Mapping a template maps its pieces one by one, and neither makes nor hides one that is empty, a single dot or a
step to the parent.  So the directory of a template is refused exactly when such a step is among its own pieces. -/
theorem pieces_mapTemplate (template : String) :
    pieces (mapTemplate template) = (pieces template).map mapTemplate ∧
      (∀ piece, (mapTemplate piece = "" ↔ piece = "") ∧ (mapTemplate piece = "." ↔ piece = ".") ∧
        (mapTemplate piece = ".." ↔ piece = "..")) ∧
        ∀ destination, directory? destination (mapTemplate template) = none ↔ ".." ∈ pieces template := by
  have hpieces : pieces (mapTemplate template) = (pieces template).map mapTemplate := by
    rw [pieces, pieces, toList_mapTemplate, splitOn_mapped, List.map_map, List.map_map]
    refine List.map_congr_left fun piece _ => ?_
    rw [Function.comp, Function.comp, mapTemplate, String.toList_ofList]
  have hparent : ∀ piece, mapTemplate piece = ".." ↔ piece = ".." := fun piece =>
    mapTemplate_eq_iff (by decide) (by cbv)
  refine ⟨hpieces, fun piece => ⟨?_, ?_, hparent piece⟩, fun destination => ?_⟩
  · exact mapTemplate_eq_iff (by decide) (by cbv)
  · exact mapTemplate_eq_iff (by decide) (by cbv)
  · rw [directory?_eq_none_iff, hpieces, List.mem_map]
    simp [hparent]

/-- A brace that is closed behind a slash stays as it is, and so does one around dots. -/
example : mapTemplate "/\x7ba/b\x7d/\x7b..\x7d/\x7bc\x7d" = "/\x7ba/b\x7d/\x7b..\x7d/$c" := by cbv

/-- No variable stands in a mapped template, so that mapping it once more changes nothing. -/
theorem templateVariables_mapTemplate (template : String) :
    (∀ front name back, ¬ Occurs (mapTemplate template).toList front name back) ∧
      templateVariables (mapTemplate template) = [] ∧
        mapTemplate (mapTemplate template) = mapTemplate template := by
  have hnone : ∀ front name back, ¬ Occurs (mapTemplate template).toList front name back := by
    rw [toList_mapTemplate]
    exact fun _ _ _ => not_occurs_mapped
  have hnames := variableNames_ofChars_eq_nil hnone
  refine ⟨hnone, ?_, ?_⟩
  · rw [templateVariables, hnames, List.map_nil]
  · rw [mapTemplate, mapped_of_variableNames_eq_nil hnames, written_ofChars, String.ofList_toList]

end RouteScaffold.Route
