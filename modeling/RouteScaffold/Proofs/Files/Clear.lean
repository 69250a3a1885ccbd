import Mathlib
import RouteScaffold.Proofs.Files.Visits

/-!
# Ways that are clear

A directory can be made with its parents when its way is clear (`Clear.makes`): the path passes, its names
are not too long, it starts at a directory, and no file is on the way.  Conversely a path that leads to
something has short names (`short_of_spotFrom`).

Parents are tried as they are put together from the components of the path.  They pass when the path does
(`passes_take`), being shorter, and each takes at most one step more than the next one
(`Stage.namedSteps_succ`), so that nothing but this step can stop a directory from being made after its
parents (`Clear.makeWithin_stage`).
-/

namespace RouteScaffold.Files

open String (utf8Len)

/-! ## Parents are shorter -/

theorem utf8Len_push_le (path segment : List Char) :
    utf8Len (push path segment) ≤ utf8Len path + (utf8Len segment + 1) := by
  have hslash : ('/' : Char).utf8Size = 1 := by decide
  unfold push
  split
  · exact Nat.le_succ_of_le (Nat.le_add_left _ _)
  · rw [String.utf8Len_append, ← Nat.add_assoc]
    exact Nat.le_succ _
  · rw [String.utf8Len_append, String.utf8Len_cons, hslash]

theorem le_utf8Len_push (path segment : List Char) :
    utf8Len path + utf8Len segment ≤ utf8Len (push path segment) := by
  unfold push
  split
  · rename_i hlast
    rw [List.getLast?_eq_none_iff.mp hlast, String.utf8Len_nil, Nat.zero_add]
  · rw [String.utf8Len_append]
  · rw [String.utf8Len_append, String.utf8Len_cons]
    omega

/-- The bytes of a component with a slash. -/
def Component.size : Component → Nat
  | root => 1
  | current => 2
  | parent => 3
  | name segment => utf8Len segment + 1

theorem size_ofPiece (piece : List Char) : (Component.ofPiece piece).size = utf8Len piece + 1 := by
  unfold Component.ofPiece
  split
  · rename_i hpiece
    rw [hpiece]
    rfl
  · rfl

theorem utf8Len_foldl_pushComponent_le (path : List Char) {found : List Component}
    (h : ∀ component ∈ found, IsInner component) :
    utf8Len (found.foldl pushComponent path) ≤ utf8Len path + (found.map Component.size).sum := by
  induction found generalizing path with
  | nil => simp
  | cons component rest ih =>
      obtain ⟨hcomponent, hrest⟩ := List.forall_mem_cons.mp h
      have hpush : utf8Len (pushComponent path component) ≤ utf8Len path + component.size := by
        cases hcomponent with
        | parent => exact utf8Len_push_le path parentSegment
        | name hne hslash => exact utf8Len_push_le path _
      have hlater := ih (pushComponent path component) hrest
      rw [List.foldl_cons, List.map_cons, List.sum_cons]
      omega

/-- The pieces of a text with a slash after each are as long as the text with one slash more. -/
theorem sum_slashPieces (text : List Char) :
    ((Text.slashPieces text).map fun piece => utf8Len piece + 1).sum = utf8Len text + 1 := by
  induction text with
  | nil => rfl
  | cons c rest ih =>
      by_cases hc : c = '/'
      · subst hc
        rw [Text.slashPieces_cons_slash, List.map_cons, List.sum_cons, ih, String.utf8Len_cons]
        rw [show ('/' : Char).utf8Size = 1 by decide, String.utf8Len_nil]
        omega
      · obtain ⟨piece, more, hrest⟩ := Text.exists_slashPieces_eq_cons rest
        rw [hrest, List.map_cons, List.sum_cons] at ih
        rw [Text.slashPieces_cons hc hrest, List.map_cons, List.sum_cons, String.utf8Len_cons,
          String.utf8Len_cons]
        omega

/-- The inner components of a path, and the one it may start with, take no more bytes than the path. -/
theorem sum_size_inner_le (path : List Char) :
    (start path).length + ((inner path).map Component.size).sum ≤ utf8Len path + 1 := by
  have hkept : ∀ pieces : List (List Char),
      (((pieces.filter isStep).map .ofPiece).map Component.size).sum ≤
        (pieces.map fun piece => utf8Len piece + 1).sum := by
    intro pieces
    have hsizes : Component.size ∘ Component.ofPiece = fun piece => utf8Len piece + 1 :=
      funext size_ofPiece
    rw [List.map_map, hsizes]
    exact (List.filter_sublist.map _).sum_le_sum fun _ _ => Nat.zero_le _
  have hpath := sum_slashPieces path
  -- a first piece that is empty or a dot is counted by the start and by no component
  rw [inner]
  unfold start
  split
  · rename_i piece more hpieces
    have hrest := hkept (piece :: more)
    rw [hpieces, List.map_cons, List.sum_cons] at hpath
    rw [hpieces, List.filter_cons_of_neg (by simp [isStep])]
    simp only [List.length_singleton, String.utf8Len_nil] at hpath ⊢
    omega
  · rename_i more hpieces
    have hrest := hkept more
    rw [hpieces, List.map_cons, List.sum_cons] at hpath
    rw [hpieces, List.filter_cons_of_neg (by simp [isStep]), List.length_singleton]
    omega
  · have hall := hkept (Text.slashPieces path)
    rw [List.length_nil]
    omega

theorem mem_push {path segment : List Char} {c : Char} (h : c ∈ push path segment) :
    c ∈ path ∨ c = '/' ∨ c ∈ segment := by
  unfold push at h
  split at h
  · exact .inr (.inr h)
  · exact (List.mem_append.mp h).imp_right .inr
  · rcases List.mem_append.mp h with h | h
    · exact .inl h
    · exact .inr (List.mem_cons.mp h)

theorem mem_of_mem_slashPieces {text piece : List Char} (h : piece ∈ Text.slashPieces text) {c : Char}
    (hc : c ∈ piece) : c ∈ text := by
  induction text generalizing piece with
  | nil => simp_all [Text.slashPieces]
  | cons first rest ih =>
      by_cases hfirst : first = '/'
      · subst hfirst
        rw [Text.slashPieces_cons_slash] at h
        rcases List.mem_cons.mp h with rfl | h
        · cases hc
        · exact List.mem_cons_of_mem _ (ih h hc)
      · obtain ⟨found, more, hrest⟩ := Text.exists_slashPieces_eq_cons rest
        rw [Text.slashPieces_cons hfirst hrest] at h
        rw [hrest] at ih
        rcases List.mem_cons.mp h with rfl | h
        · rcases List.mem_cons.mp hc with rfl | hc
          · exact List.mem_cons_self
          · exact List.mem_cons_of_mem _ (ih List.mem_cons_self hc)
        · exact List.mem_cons_of_mem _ (ih (List.mem_cons_of_mem _ h) hc)

/-- The characters of a name are those of the path. -/
theorem mem_of_name_mem_components {path segment : List Char} (h : .name segment ∈ components path)
    {c : Char} (hc : c ∈ segment) : c ∈ path := by
  have hinner : Component.name segment ∈ inner path := by
    rw [components_eq] at h
    refine (List.mem_append.mp h).resolve_left fun hmem => ?_
    rcases start_cases path with ⟨hstart, -⟩ | ⟨hstart, -⟩ | ⟨hstart, -⟩ <;> simp [hstart] at hmem
  obtain ⟨piece, hpiece, heq⟩ := List.mem_map.mp hinner
  unfold Component.ofPiece at heq
  split at heq
  · cases heq
  · cases heq
    exact mem_of_mem_slashPieces (List.mem_of_mem_filter hpiece) hc

/-- Besides slashes and dots, a path that is put together has the characters of its names. -/
theorem mem_foldl_pushComponent {found : List Component} {path : List Char} {c : Char}
    (h : c ∈ found.foldl pushComponent path) :
    c ∈ path ∨ c = '/' ∨ c = '.' ∨ ∃ segment, .name segment ∈ found ∧ c ∈ segment := by
  induction found generalizing path with
  | nil => exact .inl h
  | cons component rest ih =>
      rcases ih h with hpushed | hslash | hdot | ⟨segment, hsegment, hc⟩
      · cases component with
        | root => exact .inr (.inl (List.mem_singleton.mp hpushed))
        | current =>
            rcases mem_push hpushed with hc | hc | hc
            · exact .inl hc
            · exact .inr (.inl hc)
            · exact .inr (.inr (.inl (List.mem_singleton.mp hc)))
        | parent =>
            rcases mem_push hpushed with hc | hc | hc
            · exact .inl hc
            · exact .inr (.inl hc)
            · exact .inr (.inr (.inl (by simpa [parentSegment] using hc)))
        | name segment =>
            rcases mem_push hpushed with hc | hc | hc
            · exact .inl hc
            · exact .inr (.inl hc)
            · exact .inr (.inr (.inr ⟨segment, List.mem_cons_self, hc⟩))
      · exact .inr (.inl hslash)
      · exact .inr (.inr (.inl hdot))
      · exact .inr (.inr (.inr ⟨segment, List.mem_cons_of_mem _ hsegment, hc⟩))

/-- A parent is no longer than its path: it is without the last component, which takes a byte at least. -/
theorem utf8Len_take_le {path : List Char} {count : Nat} (hzero : count ≠ 0)
    (hcount : count < (components path).length) :
    utf8Len (ofComponents ((components path).take count)) ≤ utf8Len path := by
  have hstart := length_start_le path
  rw [components_eq, List.length_append] at hcount
  rw [take_components hzero]
  set shift := count - (start path).length with hshift
  have hinner : ∀ component ∈ (inner path).take shift, IsInner component := fun _ hmem =>
    isInner_of_mem_inner (List.mem_of_mem_take hmem)
  have hbound := utf8Len_foldl_pushComponent_le (ofComponents (start path)) hinner
  have hbase : utf8Len (ofComponents (start path)) ≤ (start path).length := by
    rcases start_cases path with ⟨hs, -⟩ | ⟨hs, -⟩ | ⟨hs, -⟩ <;> rw [hs] <;> decide
  have hdropped : 1 ≤ (((inner path).drop shift).map Component.size).sum := by
    have hshort : shift < (inner path).length := by omega
    rw [List.drop_eq_getElem_cons hshort, List.map_cons, List.sum_cons]
    have hlast : 1 ≤ (inner path)[shift].size := by
      cases (inner path)[shift] <;> simp [Component.size]
    omega
  have hsplit := congrArg List.sum (congrArg (List.map Component.size)
    (List.take_append_drop shift (inner path)))
  rw [List.map_append, List.sum_append] at hsplit
  have hpath := sum_size_inner_le path
  rw [ofComponents, List.foldl_append]
  exact Nat.le_trans hbound (by omega)

/-- A parent passes when the path does, unless it is empty. -/
theorem passes_take {path : List Char} (h : Passes (String.ofList path)) {count : Nat}
    (hcount : count < (components path).length)
    (hne : ofComponents ((components path).take count) ≠ []) :
    Passes (String.ofList (ofComponents ((components path).take count))) := by
  refine ⟨?_, ?_, ?_⟩
  · have hnul := h.nul_not_mem
    rw [String.toList_ofList, List.contains_eq_mem, decide_eq_false_iff_not] at hnul ⊢
    intro hmem
    rcases mem_foldl_pushComponent hmem with hnil | hslash | hdot | ⟨segment, hsegment, hc⟩
    · cases hnil
    · cases hslash
    · cases hdot
    · exact hnul (mem_of_name_mem_components (List.mem_of_mem_take hsegment) hc)
  · rw [Bool.eq_false_iff]
    exact fun hempty => hne (FileTree.eq_nil_of_isEmpty_ofList hempty)
  · have hzero : count ≠ 0 := by
      rintro rfl
      exact hne rfl
    have hsize := h.size_lt
    rw [String.utf8ByteSize_ofList] at hsize ⊢
    exact Nat.lt_of_le_of_lt (utf8Len_take_le hzero hcount) hsize

/-! ## Steps of parents -/

/-- The named steps of a parent are the first of those of the path. -/
theorem namedSteps_take (path : List Char) (count : Nat) :
    namedSteps (ofComponents ((components path).take count)) =
      (namedSteps path).take (count - (start path).length) := by
  by_cases hzero : count = 0
  · rw [hzero, Nat.zero_sub]
    rfl
  · have hsteps : ∀ pieces : List (List Char),
        (pieces.map Component.ofPiece).flatMap Component.steps = pieces.map String.ofList := by
      intro pieces
      rw [List.flatMap_map, List.flatMap_congr fun piece _ => steps_ofPiece piece,
        ← List.map_eq_flatMap]
    rw [take_components hzero, namedSteps_start_append path (List.take_prefix ..), inner,
      ← List.map_take, hsteps, List.map_take, ← hsteps]
    exact congrArg _ (flatMap_steps_inner path)

/-- Counting from somewhere, one more takes at most one element more. -/
theorem take_succ_sub_cases {α : Type} (values : List α) (count start : Nat) :
    values.take (count + 1 - start) = values.take (count - start) ∨
      ∃ value, values.take (count + 1 - start) = values.take (count - start) ++ [value] := by
  by_cases hstart : start ≤ count
  · rw [Nat.succ_sub hstart, List.take_add_one]
    cases values[count - start]? with
    | none => exact .inl (List.append_nil _)
    | some value => exact .inr ⟨value, rfl⟩
  · exact .inl (by rw [show count + 1 - start = 0 by omega, show count - start = 0 by omega])

theorem isAbsolute_take (path : List Char) {count : Nat} (hzero : count ≠ 0) :
    isAbsolute (String.ofList (ofComponents ((components path).take count))) =
      isAbsolute (String.ofList path) := by
  rw [take_components hzero]
  exact isAbsolute_start_append path (List.take_prefix ..)

/-- A path that does not end in a single dot, unless it names nothing else. -/
def Plain (path : List Char) : Prop :=
  namedSteps path = [] ∨ (steps (String.ofList path)).getLast? ≠ some "."

theorem plain_take (path : List Char) (count : Nat) :
    Plain (ofComponents ((components path).take count)) := by
  by_cases hzero : count = 0
  · exact .inl (by rw [hzero]; rfl)
  set found := (inner path).take (count - (start path).length) with hfound
  have hbegins : found <+: inner path := List.take_prefix ..
  have hnamed := flatMap_steps_filter path hbegins
  rw [Plain, namedSteps, take_components hzero, ← hfound, steps_start_append path hbegins]
  by_cases hnil : found.flatMap Component.steps = []
  · left
    rw [hnil, List.append_nil]
    exact namedSteps_start path
  · right
    intro hlast
    rw [List.getLast?_append_of_ne_nil _ hnil] at hlast
    have hmem := List.mem_of_getLast? hlast
    rw [← hnamed] at hmem
    simp at hmem

/-- A path that is tried while a directory is made with its parents: one that is put together from as many
of the first components, or the path itself. -/
structure Stage (path : String) (count : Nat) (whole : List Char) : Prop where
  eq_nil_of_zero : count = 0 → whole = []
  passes : whole ≠ [] → Passes (String.ofList whole)
  plain : Plain whole
  isAbsolute_eq : whole ≠ [] → isAbsolute (String.ofList whole) = isAbsolute path
  namedSteps_eq : namedSteps whole =
    (namedSteps path.toList).take (count - (start path.toList).length)

theorem stage_take {path : String} (h : Passes path) {count : Nat}
    (hcount : count < (components path.toList).length) :
    Stage path count (ofComponents ((components path.toList).take count)) where
  eq_nil_of_zero := by
    rintro rfl
    rfl
  passes hne := by
    rw [← String.ofList_toList (s := path)] at h
    exact passes_take h hcount hne
  plain := plain_take _ _
  isAbsolute_eq hne := by
    rw [isAbsolute_take _ (by rintro rfl; exact hne rfl), String.ofList_toList]
  namedSteps_eq := namedSteps_take _ _

namespace Stage

variable {path : String} {count : Nat} {whole before : List Char}

theorem namedSteps_prefix (h : Stage path count whole) :
    namedSteps whole <+: namedSteps path.toList :=
  h.namedSteps_eq ▸ List.take_prefix ..

/-- A stage takes at most one step more than the one before it. -/
theorem namedSteps_succ (h : Stage path (count + 1) whole) (hbefore : Stage path count before) :
    namedSteps whole = namedSteps before ∨
      ∃ step, namedSteps whole = namedSteps before ++ [step] := by
  rw [h.namedSteps_eq, hbefore.namedSteps_eq]
  exact take_succ_sub_cases _ _ _

end Stage

namespace FileTree

variable {tree : FileTree} {location : Location}

/-! ## Following short names -/

/-- Single dots in front of other steps make no difference. -/
theorem spotFrom_plain (tree : FileTree) (location : Location) {steps : List String}
    (hlast : steps.getLast? ≠ some ".") :
    tree.spotFrom location steps = tree.spotFrom location (steps.filter (· ≠ ".")) := by
  induction steps generalizing location with
  | nil => rfl
  | cons step rest ih =>
      by_cases hrest : rest = []
      · subst hrest
        rw [List.filter_cons_of_pos (by simpa using hlast), List.filter_nil]
      rw [List.getLast?_cons_of_ne_nil hrest] at hlast
      have hnamed : rest.filter (· ≠ ".") ≠ [] := by
        intro hnil
        have hmem := List.getLast_mem hrest
        rw [List.getLast?_eq_some_getLast hrest] at hlast
        exact List.filter_eq_nil_iff.mp hnil _ hmem (by simpa using hlast)
      by_cases hdot : step = "."
      · rw [List.filter_cons_of_neg (by simpa using hdot), spotFrom_cons, if_pos hdot, ih _ hlast]
        -- the dot is not the last step, so it only asks for a directory, as the next step does
        obtain ⟨next, more, hmore⟩ := List.exists_cons_of_ne_nil hnamed
        rw [hmore]
        cases hshape : tree.shapeAt? location with
        | none => rw [spotFrom_cons, hshape]
        | some isDirectory => cases isDirectory <;> rw [spotFrom_cons, hshape]
      · have hempty : rest.isEmpty = (rest.filter (· ≠ ".")).isEmpty := by
          rw [List.isEmpty_eq_false_iff.mpr hrest, List.isEmpty_eq_false_iff.mpr hnamed]
        rw [List.filter_cons_of_pos (by simpa using hdot), spotFrom_cons, spotFrom_cons, hempty,
          ih _ hlast, ih _ hlast, ih _ hlast]

/-- From a directory, a path leads where its named steps do. -/
theorem spot_of_plain {path : List Char} (hpasses : Passes (String.ofList path)) (hplain : Plain path)
    (hstart : tree.shapeAt? (tree.startOf (String.ofList path)) = some true) :
    tree.spot (String.ofList path) =
      tree.spotFrom (tree.startOf (String.ofList path)) (namedSteps path) := by
  rcases hplain with hnil | hlast
  · have hspot := spot_of_passes_ofList hpasses tree
    rw [hnil, spotFrom_nil, hstart] at hspot ⊢
    exact hspot.elim id id
  · rw [spot_of_passes hpasses]
    exact spotFrom_plain tree _ hlast

theorem spotFrom_there {found : Location} {isDirectory : Bool} {steps : List String}
    (h : tree.spotFrom location steps = .ok (.there found isDirectory)) :
    found = follow location steps ∧ tree.shapeAt? found = some isDirectory := by
  rw [spotFrom] at h
  rcases hwalk : tree.walk location steps with fault | ⟨other, node⟩ | ⟨directory, name⟩
  · rw [hwalk] at h
    cases h
  · rw [hwalk] at h
    cases h
    obtain ⟨hfollow, hnode⟩ := walk_node hwalk
    exact ⟨hfollow, shapeAt?_of_at? hnode⟩
  · rw [hwalk] at h
    cases h

/-- From a directory a short step leads to a directory or to a free name, unless it leads to a file. -/
theorem spotFrom_step {step : String} (hhere : tree.shapeAt? location = some true)
    (hshort : step.utf8ByteSize ≤ nameLimit)
    (hclear : tree.shapeAt? (followStep location step) ≠ some false) :
    (∃ found, tree.spotFrom location [step] = .ok (.there found true)) ∨
      ∃ directory name, tree.spotFrom location [step] = .ok (.free directory name) := by
  rw [spotFrom_followStep, hhere]
  dsimp only
  rw [if_neg (Nat.not_lt.mpr hshort), spotFrom_nil]
  cases hshape : tree.shapeAt? (followStep location step) with
  | none => exact .inr ⟨_, _, if_pos ⟨rfl, rfl⟩⟩
  | some isDirectory =>
      cases isDirectory with
      | true => exact .inl ⟨_, if_neg fun h => Option.some_ne_none _ h.2⟩
      | false => exact absurd hshape hclear

/-- Short steps that lead through no file lead to a directory, or end before one for want of it. -/
theorem spotFrom_clear {steps : List String} (hstart : tree.shapeAt? location = some true)
    (hshort : ∀ step ∈ steps, step.utf8ByteSize ≤ nameLimit)
    (hway : ∀ passed ∈ way location steps, tree.shapeAt? passed ≠ some false) :
    (∃ found, tree.spotFrom location steps = .ok (.there found true)) ∨
      (∃ directory name, tree.spotFrom location steps = .ok (.free directory name)) ∨
        tree.spotFrom location steps = .error .notFound := by
  induction steps generalizing location with
  | nil =>
      rw [spotFrom_nil, hstart]
      exact .inl ⟨_, rfl⟩
  | cons step rest ih =>
      obtain ⟨hstep, hrest⟩ := List.forall_mem_cons.mp hshort
      rw [way] at hway
      obtain ⟨hnext, hlater⟩ := List.forall_mem_cons.mp hway
      by_cases hnil : rest = []
      · subst hnil
        exact (spotFrom_step hstart hstep hnext).imp_right .inl
      rw [show step :: rest = [step] ++ rest from rfl, spotFrom_append _ _ _ hnil]
      rcases spotFrom_step hstart hstep hnext with ⟨found, hfound⟩ | ⟨directory, name, hfree⟩
      · obtain ⟨rfl, hshape⟩ := spotFrom_there hfound
        rw [hfound]
        exact ih hshape hrest hlater
      · rw [hfree]
        exact .inr (.inr rfl)

/-- What is found is found by short steps. -/
theorem short_of_spotFrom {steps : List String} {found : Spot}
    (h : tree.spotFrom location steps = .ok found) :
    ∀ step ∈ steps, step.utf8ByteSize ≤ nameLimit := by
  induction steps generalizing location with
  | nil => simp
  | cons step rest ih =>
      rw [spotFrom_followStep] at h
      split at h
      · cases h
      · cases h
      split at h
      · cases h
      rename_i hshort
      refine List.forall_mem_cons.mpr ⟨Nat.not_lt.mp hshort, ?_⟩
      split at h
      · rename_i hlast
        simp [hlast.1]
      · exact ih h

/-- What is found by some steps is found from a directory. -/
theorem shapeAt?_of_spotFrom {steps : List String} {found : Spot}
    (h : tree.spotFrom location steps = .ok found) (hne : steps ≠ []) :
    tree.shapeAt? location = some true := by
  obtain ⟨step, rest, rfl⟩ := List.exists_cons_of_ne_nil hne
  rw [spotFrom_cons] at h
  split at h
  · cases h
  · cases h
  · assumption

/-- A path that leads to a directory starts at one. -/
theorem shapeAt?_startOf_of_spot {path : String}
    (h : tree.spot path = .ok (.there location true)) :
    tree.shapeAt? (tree.startOf path) = some true := by
  rw [spot_of_passes (passes_of_spot h)] at h
  by_cases hnil : Files.steps path = []
  · rw [hnil] at h
    obtain ⟨rfl, hshape⟩ := spotFrom_there h
    exact hshape
  · exact shapeAt?_of_spotFrom h hnil

/-! ## Making directories -/

/-- The way of a path is clear: the path passes and ends in no single dot, its steps are short, it starts at
a directory, and no file is on its way. -/
structure Clear (tree : FileTree) (path : String) : Prop where
  passes : Passes path
  plain : Plain path.toList
  short : ∀ step ∈ Files.steps path, step.utf8ByteSize ≤ nameLimit
  start : tree.shapeAt? (tree.startOf path) = some true
  way : ∀ location ∈ tree.wayTo path, tree.shapeAt? location ≠ some false

theorem exists_grows_makeWithin (tree : FileTree) (path : List Char) (parents : List (List Char)) :
    ∃ created, tree.Grows created (tree.applyAll (tree.makeWithin path parents).changes) := by
  have hmade : MakesWay tree ((path :: parents).map fun passed =>
      tree.locationOf (String.ofList passed)) (String.ofList path) (tree.makeWithin path parents) :=
    makesWay_makeWithin tree fun passed hpassed _ => List.mem_map_of_mem hpassed
  obtain ⟨created, -, hgrows⟩ := hmade.grows _ List.prefix_rfl
  exact ⟨created, hgrows⟩

/-- Where directories are made no file is. -/
theorem Grows.shapeAt?_file {created : List Location} {after : FileTree}
    (h : tree.Grows created after) (hfile : after.shapeAt? location = some false) :
    tree.shapeAt? location = some false := by
  rw [shapeAt?, h.kindAt?_eq] at hfile
  split at hfile
  · cases hfile
  · exact hfile

namespace Clear

variable {path : String} (h : tree.Clear path)

include h

theorem named_prefix {steps : List String} (hsteps : steps <+: namedSteps path.toList) :
    (∀ step ∈ steps, step.utf8ByteSize ≤ nameLimit) ∧
      ∀ passed ∈ Files.way (tree.startOf path) steps, tree.shapeAt? passed ≠ some false := by
  rw [namedSteps, String.ofList_toList] at hsteps
  refine ⟨fun step hstep => h.short step (List.mem_of_mem_filter (hsteps.subset hstep)), ?_⟩
  intro passed hpassed
  obtain ⟨front, hne, hfront, rfl⟩ := mem_way.mp hpassed
  exact h.way _ (follow_mem_way_of_prefix_filter hne (hfront.trans hsteps))

/-- In each tree that covers this one a stage leads where its named steps do. -/
theorem spot_stage {count : Nat} {whole : List Char} (hstage : Stage path count whole)
    (hne : whole ≠ []) {later : FileTree} (hcovers : Covers tree later) :
    later.spot (String.ofList whole) =
      later.spotFrom (tree.startOf path) (namedSteps whole) := by
  have hstart : later.startOf (String.ofList whole) = tree.startOf path := by
    rw [startOf_eq_of_isAbsolute (hstage.isAbsolute_eq hne), startOf_congr hcovers.current_eq]
  have hdirectory := hcovers.shapeAt?_of_some _ _ h.start
  rw [← hstart] at hdirectory ⊢
  exact spot_of_plain (hstage.passes hne) hstage.plain hdirectory

/-- After the stage before it, a stage is made: its last step leads from there to no file. -/
theorem finish_stage {count : Nat} {whole before : List Char} {made : Made} {created : List Location}
    {found : Location} (hstage : Stage path (count + 1) whole) (hne : whole ≠ [])
    (hbefore : Stage path count before) (hmade : made.fault = none)
    (hgrows : tree.Grows created (tree.applyAll made.changes))
    (hfound : (tree.applyAll made.changes).spotFrom (tree.startOf path) (namedSteps before) =
      .ok (.there found true)) :
    (tree.finish whole made).fault = none := by
  rw [finish, if_neg (by simp [hmade]), h.spot_stage hstage hne hgrows.covers]
  rcases hstage.namedSteps_succ hbefore with hsame | ⟨step, hstep⟩
  · rw [hsame, hfound]
    exact hmade
  obtain ⟨hfollow, hshape⟩ := spotFrom_there hfound
  obtain ⟨hshort, hway⟩ := h.named_prefix hstage.namedSteps_prefix
  have hnext : followStep found step = follow (tree.startOf path) (namedSteps whole) := by
    rw [hstep, follow_append, ← hfollow]
    rfl
  have hclear : (tree.applyAll made.changes).shapeAt? (followStep found step) ≠ some false := by
    intro hfile
    rw [hnext] at hfile
    have hsteps : namedSteps whole ≠ [] := by simp [hstep]
    exact hway _ (follow_mem_way _ hsteps) (hgrows.shapeAt?_file hfile)
  have hmem : step ∈ namedSteps whole := by simp [hstep]
  rw [hstep, spotFrom_append _ _ _ (List.cons_ne_nil _ _), hfound, onward]
  rcases spotFrom_step hshape (hshort step hmem) hclear with ⟨_, hthere⟩ | ⟨_, _, hfree⟩
  · rw [hthere]
    exact hmade
  · rw [hfree]
    exact hmade

/-- The empty path needs nothing: it leads to where the path starts. -/
theorem makeWithin_empty (parents : List (List Char)) :
    (tree.makeWithin [] parents).fault = none ∧
      ∃ found, (tree.applyAll (tree.makeWithin [] parents).changes).spotFrom (tree.startOf path)
        (namedSteps []) = .ok (.there found true) := by
  rw [makeWithin_nil]
  refine ⟨rfl, tree.startOf path, ?_⟩
  show tree.spotFrom (tree.startOf path) [] = _
  rw [spotFrom_nil, h.start]

/-- The stages of a path whose way is clear are made one after the other. -/
theorem makeWithin_stage {count : Nat} (hcount : count ≤ (components path.toList).length)
    {whole : List Char} (hstage : Stage path count whole) :
    let made := tree.makeWithin whole ((List.range count).reverse.map fun count =>
      ofComponents ((components path.toList).take count))
    made.fault = none ∧ ∃ found, (tree.applyAll made.changes).spotFrom (tree.startOf path)
      (namedSteps whole) = .ok (.there found true) := by
  dsimp only
  induction count generalizing whole with
  | zero =>
      obtain rfl := hstage.eq_nil_of_zero rfl
      exact h.makeWithin_empty _
  | succ count ih =>
      by_cases hne : whole = []
      · rw [hne]
        exact h.makeWithin_empty _
      rw [List.range_succ, List.reverse_append, List.reverse_singleton, List.singleton_append,
        List.map_cons]
      set parent := ofComponents ((components path.toList).take count) with hparent
      set outer := (List.range count).reverse.map fun count =>
        ofComponents ((components path.toList).take count) with houter
      suffices hfault : (tree.makeWithin whole (parent :: outer)).fault = none by
        refine ⟨hfault, ?_⟩
        obtain ⟨found, hfound⟩ := makeWithin_there hne hfault
        obtain ⟨_, hgrows⟩ := exists_grows_makeWithin tree whole (parent :: outer)
        rw [h.spot_stage hstage hne hgrows.covers] at hfound
        exact ⟨found, hfound⟩
      have hfirst := h.spot_stage hstage hne (Covers.refl tree)
      obtain ⟨hshort, hway⟩ := h.named_prefix hstage.namedSteps_prefix
      -- the stage is there, or its name is free, or its parent has to be made first
      rcases spotFrom_clear h.start hshort hway with ⟨found, hfound⟩ | ⟨directory, name, hfree⟩ |
        hmissing
      · rw [makeWithin_of_there (hfirst.trans hfound)]
      · have hmet : tree.spot (String.ofList whole) ≠ .error .notFound := by simp [hfirst, hfree]
        rw [makeWithin_of_ne_notFound hne hmet, finish,
          show tree.applyAll ({} : Made).changes = tree from rfl, hfirst, hfree]
        rfl
      · have hbefore : Stage path count parent := stage_take h.passes (Nat.lt_of_succ_le hcount)
        obtain ⟨hmade, found, hfound⟩ := ih (Nat.le_of_succ_le hcount) hbefore
        obtain ⟨_, hgrows⟩ := exists_grows_makeWithin tree parent outer
        rw [makeWithin_of_notFound hne (hfirst.trans hmissing)]
        exact h.finish_stage hstage hne hbefore hmade hgrows hfound

/-- Where the way is clear a directory is made with its parents. -/
theorem makes : (tree.makeDirectories path).fault = none := by
  have hpath := h.passes
  rw [← String.ofList_toList (s := path)] at hpath
  by_cases hnil : namedSteps path.toList = []
  · -- the path leads to where it starts
    have hstart := h.start
    rw [← String.ofList_toList (s := path)] at hstart
    have hspot := spot_of_plain hpath h.plain hstart
    rw [hnil, spotFrom_nil, hstart] at hspot
    rw [makeDirectories, makeWithin_of_there hspot]
  refine (h.makeWithin_stage Nat.le.refl ⟨fun hzero => absurd ?_ hnil, fun _ => hpath, h.plain,
    fun _ => by rw [String.ofList_toList], ?_⟩).1
  · rw [components_eq, List.length_append, Nat.add_eq_zero_iff] at hzero
    rw [namedSteps, ← flatMap_steps_inner, List.length_eq_zero_iff.mp hzero.2]
    rfl
  · rw [← namedSteps_take, List.take_length, components_eq,
      namedSteps_start_append _ List.prefix_rfl, flatMap_steps_inner, namedSteps]

end Clear

end FileTree

end RouteScaffold.Files
