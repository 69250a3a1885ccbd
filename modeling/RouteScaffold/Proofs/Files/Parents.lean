import RouteScaffold.Proofs.Files.Way

/-!
# Paths put together

A name pushed onto a path adds one step to it (`steps_push`), so that names pushed one after the
other lead below the location of the path (`locationOf_pushNames`).  The parents of a path are put
together from its first components, and each leads to a location on the way of the path
(`locationOf_mem_wayTo_of_mem_parents`).
-/

namespace RouteScaffold.Files

/-! ## Pushing a segment -/

theorem steps_empty : steps "" = [] := rfl

theorem steps_ofList (path : List Char) :
    steps (String.ofList path) =
      ((Text.slashPieces path).filter (!·.isEmpty)).map String.ofList := by
  rw [steps, String.toList_ofList]

theorem isAbsolute_ofList (path : List Char) :
    isAbsolute (String.ofList path) = decide (path.head? = some '/') := by
  rw [isAbsolute, String.toList_ofList]

theorem steps_append_slash (front back : List Char) :
    steps (String.ofList (front ++ '/' :: back)) =
      steps (String.ofList front) ++ steps (String.ofList back) := by
  simp only [steps_ofList, Text.slashPieces_append_slash, List.filter_append, List.map_append]

theorem steps_segment {segment : List Char} (hne : segment ≠ []) (hslash : '/' ∉ segment) :
    steps (String.ofList segment) = [String.ofList segment] := by
  rw [steps_ofList, Text.slashPieces_of_not_mem hslash]
  simp [hne]

theorem steps_push (path : List Char) {segment : List Char} (hne : segment ≠ [])
    (hslash : '/' ∉ segment) :
    steps (String.ofList (push path segment)) =
      steps (String.ofList path) ++ [String.ofList segment] := by
  unfold push
  split
  · rename_i hlast
    rw [List.getLast?_eq_none_iff.mp hlast, steps_segment hne hslash]
    rfl
  · rename_i hlast
    obtain ⟨front, rfl⟩ := List.getLast?_eq_some_iff.mp hlast
    rw [List.append_assoc, List.singleton_append, steps_append_slash, steps_append_slash,
      steps_segment hne hslash, String.ofList_nil, steps_empty, List.append_nil]
  · rw [steps_append_slash, steps_segment hne hslash]

theorem head?_push_eq_slash (path : List Char) {segment : List Char} (hslash : '/' ∉ segment) :
    (push path segment).head? = some '/' ↔ path.head? = some '/' := by
  have hsegment : segment.head? ≠ some '/' := fun h => hslash (List.mem_of_mem_head? h)
  cases path with
  | nil => simpa [push] using hsegment
  | cons c rest =>
      unfold push
      split
      · simp_all
      · simp
      · simp

theorem isAbsolute_push (path : List Char) {segment : List Char} (hslash : '/' ∉ segment) :
    isAbsolute (String.ofList (push path segment)) = isAbsolute (String.ofList path) := by
  rw [isAbsolute_ofList, isAbsolute_ofList]
  exact decide_eq_decide.mpr (head?_push_eq_slash path hslash)

/-! ## Pushing names -/

/-- A path with names pushed onto it one after the other. -/
def pushNames (path : List Char) (names : List String) : List Char :=
  names.foldl (fun current name => push current name.toList) path

theorem IsName.toList_ne_nil {name : String} (h : IsName name) : name.toList ≠ [] :=
  fun hnil => h.ne_empty (String.toList_eq_nil_iff.mp hnil)

theorem steps_pushNames (path : List Char) {names : List String} (h : ∀ name ∈ names, IsName name) :
    steps (String.ofList (pushNames path names)) = steps (String.ofList path) ++ names := by
  induction names generalizing path with
  | nil => simp [pushNames]
  | cons name rest ih =>
      have hname := h name (List.mem_cons_self ..)
      rw [show pushNames path (name :: rest) = pushNames (push path name.toList) rest from rfl,
        ih _ fun other hother => h other (List.mem_cons_of_mem _ hother),
        steps_push path hname.toList_ne_nil hname.slash_not_mem]
      simp

theorem isAbsolute_pushNames (path : List Char) {names : List String}
    (h : ∀ name ∈ names, IsName name) :
    isAbsolute (String.ofList (pushNames path names)) = isAbsolute (String.ofList path) := by
  induction names generalizing path with
  | nil => rfl
  | cons name rest ih =>
      rw [show pushNames path (name :: rest) = pushNames (push path name.toList) rest from rfl,
        ih _ fun other hother => h other (List.mem_cons_of_mem _ hother),
        isAbsolute_push path (h name (List.mem_cons_self ..)).slash_not_mem]

namespace FileTree

variable (tree : FileTree) (path : List Char) {names : List String}

theorem startOf_pushNames (h : ∀ name ∈ names, IsName name) :
    tree.startOf (String.ofList (pushNames path names)) = tree.startOf (String.ofList path) := by
  rw [startOf, startOf, isAbsolute_pushNames path h]

/-- Names pushed onto a path lead below its location. -/
theorem locationOf_pushNames (h : ∀ name ∈ names, IsName name) :
    tree.locationOf (String.ofList (pushNames path names)) =
      tree.locationOf (String.ofList path) ++ names := by
  rw [locationOf, startOf_pushNames tree path h, steps_pushNames path h, follow_append,
    follow_names h, locationOf]

/-- Names pushed onto a path are passed after the way of the path. -/
theorem mem_wayTo_pushNames (h : ∀ name ∈ names, IsName name) {other : Location} :
    other ∈ tree.wayTo (String.ofList (pushNames path names)) ↔
      other ∈ tree.wayTo (String.ofList path) ∨
        ∃ front, front ≠ [] ∧ front <+: names ∧
          other = tree.locationOf (String.ofList path) ++ front := by
  have hback : other ∈ way (tree.locationOf (String.ofList path)) names ↔
      ∃ front, front ≠ [] ∧ front <+: names ∧
        other = tree.locationOf (String.ofList path) ++ front := by
    rw [mem_way]
    refine exists_congr fun front => and_congr_right fun _ => and_congr_right fun hfront => ?_
    rw [follow_names fun name hname => h name (hfront.subset hname)]
  rw [wayTo, startOf_pushNames tree path h, steps_pushNames path h, way_append, List.mem_append]
  exact or_congr_right hback

end FileTree

/-! ## Parents -/

/-- The steps that a component takes. -/
def Component.steps : Component → List String
  | root => []
  | current => ["."]
  | parent => [".."]
  | name segment => [String.ofList segment]

/-- The components of a path after the one it may start with. -/
def inner (path : List Char) : List Component :=
  ((Text.slashPieces path).filter isStep).map .ofPiece

theorem components_eq (path : List Char) : components path = start path ++ inner path := rfl

/-- A component that can stand anywhere in a path: a step to the parent, or a name. -/
inductive IsInner : Component → Prop
  | parent : IsInner .parent
  | name {segment : List Char} (hne : segment ≠ []) (hslash : '/' ∉ segment) :
      IsInner (.name segment)

theorem isInner_of_mem_inner {path : List Char} {component : Component}
    (h : component ∈ inner path) : IsInner component := by
  obtain ⟨piece, hpiece, rfl⟩ := List.mem_map.mp h
  obtain ⟨hmem, hstep⟩ := List.mem_filter.mp hpiece
  have hne : piece ≠ [] := by
    rintro rfl
    simp [isStep] at hstep
  unfold Component.ofPiece
  split
  · exact .parent
  · exact .name hne (Text.slash_not_mem_of_mem_slashPieces hmem)

theorem steps_pushComponent (path : List Char) {component : Component} (h : IsInner component) :
    steps (String.ofList (pushComponent path component)) =
      steps (String.ofList path) ++ component.steps := by
  cases h with
  | parent => exact steps_push path (by decide) (by decide)
  | name hne hslash => exact steps_push path hne hslash

theorem isAbsolute_pushComponent (path : List Char) {component : Component}
    (h : IsInner component) :
    isAbsolute (String.ofList (pushComponent path component)) = isAbsolute (String.ofList path) := by
  cases h with
  | parent => exact isAbsolute_push path (by decide)
  | name hne hslash => exact isAbsolute_push path hslash

theorem steps_foldl_pushComponent (path : List Char) {found : List Component}
    (h : ∀ component ∈ found, IsInner component) :
    steps (String.ofList (found.foldl pushComponent path)) =
      steps (String.ofList path) ++ found.flatMap Component.steps := by
  induction found generalizing path with
  | nil => simp
  | cons component rest ih =>
      rw [List.foldl_cons, ih _ fun other hother => h other (List.mem_cons_of_mem _ hother),
        steps_pushComponent path (h component (List.mem_cons_self ..)), List.flatMap_cons,
        List.append_assoc]

theorem isAbsolute_foldl_pushComponent (path : List Char) {found : List Component}
    (h : ∀ component ∈ found, IsInner component) :
    isAbsolute (String.ofList (found.foldl pushComponent path)) =
      isAbsolute (String.ofList path) := by
  induction found generalizing path with
  | nil => rfl
  | cons component rest ih =>
      rw [List.foldl_cons, ih _ fun other hother => h other (List.mem_cons_of_mem _ hother),
        isAbsolute_pushComponent path (h component (List.mem_cons_self ..))]

theorem steps_ofPiece (piece : List Char) :
    (Component.ofPiece piece).steps = [String.ofList piece] := by
  unfold Component.ofPiece
  split
  · rename_i hpiece
    rw [hpiece]
    rfl
  · rfl

theorem ofList_eq_dot {piece : List Char} : String.ofList piece = "." ↔ piece = ['.'] := by
  rw [show "." = String.ofList ['.'] from rfl, String.ofList_inj]

/-- The steps of a path that are no single dots are those of its inner components. -/
theorem flatMap_steps_inner (path : List Char) :
    (inner path).flatMap Component.steps =
      (steps (String.ofList path)).filter (· ≠ ".") := by
  rw [steps_ofList, inner]
  induction Text.slashPieces path with
  | nil => rfl
  | cons piece rest ih =>
      by_cases hempty : piece = []
      · simpa [hempty, isStep] using ih
      by_cases hdot : piece = ['.']
      · simpa [hdot, isStep] using ih
      · have hstep : isStep piece = true := by simp [isStep, hempty, hdot]
        have hpiece : ¬ piece.isEmpty := by simpa using hempty
        have hname : String.ofList piece ≠ "." := fun heq => hdot (ofList_eq_dot.mp heq)
        rw [List.filter_cons_of_pos hstep, List.map_cons, List.flatMap_cons, steps_ofPiece, ih,
          List.filter_cons_of_pos (by simpa using hpiece), List.map_cons,
          List.filter_cons_of_pos (by simpa using hname), List.singleton_append]

/-- The steps of the first inner components of a path come first among its steps that are no single
dots. -/
theorem flatMap_steps_take_inner (path : List Char) (count : Nat) :
    ((inner path).take count).flatMap Component.steps <+:
      (steps (String.ofList path)).filter (· ≠ ".") := by
  refine ⟨((inner path).drop count).flatMap Component.steps, ?_⟩
  rw [← List.flatMap_append, List.take_append_drop, flatMap_steps_inner]

/-! ## Parents are on the way -/

/-- The steps that are no single dots lead through the same locations. -/
theorem follow_mem_way_of_prefix_filter {location : Location} {front steps : List String}
    (hne : front ≠ []) (hfront : front <+: steps.filter (· ≠ ".")) :
    follow location front ∈ way location steps := by
  induction steps generalizing location front with
  | nil => exact absurd (List.prefix_nil.mp hfront) hne
  | cons step rest ih =>
      rw [way, List.mem_cons]
      by_cases hdot : step = "."
      · subst hdot
        rw [List.filter_cons_of_neg (by simp)] at hfront
        exact .inr (ih hne hfront)
      · rw [List.filter_cons_of_pos (by simpa using hdot)] at hfront
        obtain ⟨first, more, rfl⟩ := List.exists_cons_of_ne_nil hne
        obtain ⟨rfl, hmore⟩ := List.cons_prefix_cons.mp hfront
        by_cases hnil : more = []
        · exact .inl (by rw [hnil]; rfl)
        · exact .inr (ih hnil hmore)

/-- A path starts with the root, with a single dot, or with an inner component. -/
theorem start_cases (path : List Char) :
    start path = [.root] ∧ isAbsolute (String.ofList path) = true ∨
      (start path = [.current] ∧ isAbsolute (String.ofList path) = false ∧
        ∃ rest, steps (String.ofList path) = "." :: rest) ∨
      start path = [] ∧ isAbsolute (String.ofList path) = false := by
  rw [isAbsolute_ofList, steps_ofList]
  cases path with
  | nil => exact .inr (.inr ⟨rfl, rfl⟩)
  | cons c rest =>
      obtain ⟨piece, more, hrest⟩ := Text.exists_slashPieces_eq_cons rest
      by_cases hc : c = '/'
      · subst hc
        refine .inl ⟨?_, by simp⟩
        rw [start, Text.slashPieces_cons_slash, hrest]
      · refine .inr ?_
        rw [start, Text.slashPieces_cons hc hrest]
        by_cases hdot : c :: piece = ['.']
        · obtain ⟨rfl, rfl⟩ := List.cons_eq_cons.mp hdot
          refine .inl ⟨rfl, by simp, (more.filter (!·.isEmpty)).map String.ofList, ?_⟩
          rfl
        · refine .inr ⟨?_, by simpa using hc⟩
          split <;> simp_all

/-! ## What a path starts with -/

theorem length_start_le (path : List Char) : (start path).length ≤ 1 := by
  rcases start_cases path with ⟨hstart, -⟩ | ⟨hstart, -⟩ | ⟨hstart, -⟩ <;> simp [hstart]

theorem take_components {path : List Char} {count : Nat} (h : count ≠ 0) :
    (components path).take count =
      start path ++ (inner path).take (count - (start path).length) := by
  have hstart := length_start_le path
  rw [components_eq, List.take_append, List.take_of_length_le (by omega)]

/-- What a path starts with tells whether it is absolute. -/
theorem isAbsolute_start (path : List Char) :
    isAbsolute (String.ofList (ofComponents (start path))) = isAbsolute (String.ofList path) := by
  rcases start_cases path with ⟨hstart, habsolute⟩ | ⟨hstart, habsolute, -⟩ | ⟨hstart, habsolute⟩
  all_goals
    rw [hstart, habsolute]
    rfl

/-- What a path starts with takes no step, or a single dot that is the first step of the path. -/
theorem steps_start (path : List Char) :
    steps (String.ofList (ofComponents (start path))) = [] ∨
      steps (String.ofList (ofComponents (start path))) = ["."] ∧
        ∃ rest, steps (String.ofList path) = "." :: rest := by
  rcases start_cases path with ⟨hstart, -⟩ | ⟨hstart, -, hrest⟩ | ⟨hstart, -⟩
  · exact .inl (by rw [hstart]; rfl)
  · exact .inr ⟨by rw [hstart]; rfl, hrest⟩
  · exact .inl (by rw [hstart]; rfl)

section

variable {found : List Component} (path : List Char) (h : found <+: inner path)

include h

theorem isAbsolute_start_append :
    isAbsolute (String.ofList (ofComponents (start path ++ found))) =
      isAbsolute (String.ofList path) := by
  rw [ofComponents, List.foldl_append, isAbsolute_foldl_pushComponent _ fun component hmem =>
    isInner_of_mem_inner (h.subset hmem)]
  exact isAbsolute_start path

theorem steps_start_append :
    steps (String.ofList (ofComponents (start path ++ found))) =
      steps (String.ofList (ofComponents (start path))) ++ found.flatMap Component.steps := by
  rw [ofComponents, List.foldl_append, steps_foldl_pushComponent _ fun component hmem =>
    isInner_of_mem_inner (h.subset hmem)]
  rfl

end

namespace FileTree

theorem startOf_eq_of_isAbsolute {tree : FileTree} {first second : String}
    (h : isAbsolute first = isAbsolute second) : tree.startOf first = tree.startOf second := by
  rw [startOf, startOf, h]

/-- Each parent of a path, other than the empty path and the root, leads to a location on the way of
the path. -/
theorem locationOf_mem_wayTo_of_mem_parents (tree : FileTree) {path parent : List Char}
    (h : parent ∈ parents path) (hsteps : steps (String.ofList parent) ≠ []) :
    tree.locationOf (String.ofList parent) ∈ tree.wayTo (String.ofList path) := by
  obtain ⟨count, -, rfl⟩ := List.mem_map.mp h
  have hcount : count ≠ 0 := by
    rintro rfl
    exact hsteps rfl
  have hbegins : (inner path).take (count - (start path).length) <+: inner path :=
    List.take_prefix ..
  have hfront := flatMap_steps_take_inner path (count - (start path).length)
  rw [take_components hcount] at hsteps ⊢
  rw [locationOf, wayTo, startOf_eq_of_isAbsolute (isAbsolute_start_append path hbegins)]
  rw [steps_start_append path hbegins] at hsteps ⊢
  rcases steps_start path with hnone | ⟨hdot, rest, hrest⟩
  · rw [hnone, List.nil_append] at hsteps ⊢
    exact follow_mem_way_of_prefix_filter hsteps hfront
  · rw [hdot, List.singleton_append, follow_dot_cons]
    -- the parent may be the single dot alone, which is the first step of the path
    by_cases hnil : ((inner path).take (count - (start path).length)).flatMap Component.steps = []
    · rw [hnil, hrest]
      exact List.mem_cons_self
    · exact follow_mem_way_of_prefix_filter hnil hfront

end FileTree

end RouteScaffold.Files
