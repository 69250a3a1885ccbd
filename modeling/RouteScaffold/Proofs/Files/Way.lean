import RouteScaffold.Proofs.Files.Kind
import RouteScaffold.Proofs.Text.Pieces

/-!
# Where paths lead

Without links a path leads to one location, whatever stands in the tree: its steps are followed from
where it starts.  `locationOf` is that location, and `wayTo` are the locations passed on the way, its
own included; they are those of the lexical prefixes of the path.

What a call finds agrees with this: `resolve_node` and `resolve_vacant` say what stands at the
location of a path that resolves, and `directory_of_mem_wayTo` that all locations before it are
directories.
-/

namespace RouteScaffold.Files

/-! ## Locations of paths -/

/-- The location after a step. -/
def followStep (location : Location) (step : String) : Location :=
  if step = "." then location
  else if step = ".." then location.dropLast
  else location ++ [step]

/-- The location after some steps. -/
def follow (location : Location) (steps : List String) : Location := steps.foldl followStep location

/-- The locations after each of some steps. -/
def way (location : Location) : List String → List Location
  | [] => []
  | step :: rest => followStep location step :: way (followStep location step) rest

namespace FileTree

/-- The location that a path leads to. -/
def locationOf (tree : FileTree) (path : String) : Location :=
  follow (tree.startOf path) (steps path)

/-- The locations that the lexical prefixes of a path lead to, its own included. -/
def wayTo (tree : FileTree) (path : String) : List Location := way (tree.startOf path) (steps path)

end FileTree

theorem follow_cons (location : Location) (step : String) (rest : List String) :
    follow location (step :: rest) = follow (followStep location step) rest := rfl

theorem follow_dot_cons (location : Location) (rest : List String) :
    follow location ("." :: rest) = follow location rest := rfl

/-- Single dots lead nowhere. -/
theorem follow_filter (location : Location) (steps : List String) :
    follow location (steps.filter (· ≠ ".")) = follow location steps := by
  induction steps generalizing location with
  | nil => rfl
  | cons step rest ih =>
      by_cases hdot : step = "."
      · rw [List.filter_cons_of_neg (by simpa using hdot), ih, hdot, follow_dot_cons]
      · rw [List.filter_cons_of_pos (by simpa using hdot), follow_cons, follow_cons, ih]

theorem follow_append (location : Location) (front back : List String) :
    follow location (front ++ back) = follow (follow location front) back :=
  List.foldl_append ..

theorem way_append (location : Location) (front back : List String) :
    way location (front ++ back) = way location front ++ way (follow location front) back := by
  induction front generalizing location with
  | nil => rfl
  | cons step rest ih => rw [List.cons_append, way, way, ih, List.cons_append, follow_cons]

/-- The way leads through the location of each lexical prefix and no other. -/
theorem mem_way {location other : Location} {steps : List String} :
    other ∈ way location steps ↔ ∃ front, front ≠ [] ∧ front <+: steps ∧ other = follow location front := by
  induction steps generalizing location with
  | nil => simp [way]
  | cons step rest ih =>
      rw [way, List.mem_cons, ih]
      constructor
      · rintro (rfl | ⟨front, -, hfront, rfl⟩)
        · exact ⟨[step], by simp, by simp, rfl⟩
        · exact ⟨step :: front, by simp, List.cons_prefix_cons.mpr ⟨rfl, hfront⟩, rfl⟩
      · rintro ⟨front, hne, hfront, rfl⟩
        obtain ⟨first, more, rfl⟩ := List.exists_cons_of_ne_nil hne
        obtain ⟨rfl, hmore⟩ := List.cons_prefix_cons.mp hfront
        by_cases hnil : more = []
        · exact .inl (by rw [hnil]; rfl)
        · exact .inr ⟨more, hnil, hmore, rfl⟩

theorem follow_mem_way (location : Location) {steps : List String} (h : steps ≠ []) :
    follow location steps ∈ way location steps :=
  mem_way.mpr ⟨steps, h, List.prefix_rfl, rfl⟩

/-! ## Names -/

/-- A text that can be the name of something in a directory. -/
structure IsName (text : String) : Prop where
  ne_empty : text ≠ ""
  slash_not_mem : '/' ∉ text.toList
  ne_current : text ≠ "."
  ne_parent : text ≠ ".."

theorem followStep_name {name : String} (h : IsName name) (location : Location) :
    followStep location name = location ++ [name] := by
  rw [followStep, if_neg h.ne_current, if_neg h.ne_parent]

theorem follow_names {names : List String} (h : ∀ name ∈ names, IsName name) (location : Location) :
    follow location names = location ++ names := by
  induction names generalizing location with
  | nil => simp [follow]
  | cons name rest ih =>
      rw [follow_cons, followStep_name (h name (List.mem_cons_self ..)),
        ih fun other hother => h other (List.mem_cons_of_mem _ hother)]
      simp

/-! ## What is found on the way -/

namespace FileTree

variable {tree : FileTree} {location : Location} {steps : List String}

theorem kindAt?_of_walk_cons {step : String} {rest : List String} {place : Place}
    (h : tree.walk location (step :: rest) = .ok place) : tree.kindAt? location = some .directory := by
  rw [walk] at h
  split at h
  · cases h
  · cases h
  · rename_i entries hentries
    exact kindAt?_of_at? hentries

/-- A step of a walk leads to where the step leads lexically, or ends the walk at a free name. -/
theorem walk_cons {step : String} {rest : List String} {place : Place}
    (h : tree.walk location (step :: rest) = .ok place) :
    tree.walk (followStep location step) rest = .ok place ∨
      rest = [] ∧ place = .vacant location step ∧ followStep location step = location ++ [step] ∧
        tree.kindAt? (location ++ [step]) = none := by
  rw [walk] at h
  split at h
  · cases h
  · cases h
  · rename_i entries hentries
    -- the step stays, goes to the parent, into an entry, or to a name that is free
    unfold followStep
    split at h
    · exact .inl (by rwa [if_pos ‹_›])
    rw [if_neg ‹_›]
    split at h
    · exact .inl (by rwa [if_pos ‹_›])
    rw [if_neg ‹_›]
    split at h
    · cases h
    split at h
    · exact .inl h
    · rename_i hlookup
      split at h
      · refine .inr ⟨by simpa using ‹rest.isEmpty = true›, (Except.ok.inj h).symm, rfl, ?_⟩
        rw [kindAt?_child hentries, Option.not_isSome_iff_eq_none.mp hlookup, Option.map_none]
      · cases h

theorem walk_node {found : Location} {node : Node}
    (h : tree.walk location steps = .ok (.node found node)) :
    found = follow location steps ∧ tree.at? found = some node := by
  induction steps generalizing location with
  | nil =>
      rw [walk] at h
      split at h
      · rename_i hnode
        cases h
        exact ⟨rfl, hnode⟩
      · cases h
  | cons step rest ih =>
      rcases walk_cons h with h | ⟨-, hplace, -⟩
      · exact ih h
      · cases hplace

theorem walk_vacant {directory : Location} {name : String}
    (h : tree.walk location steps = .ok (.vacant directory name)) :
    follow location steps = directory ++ [name] ∧ steps ≠ [] ∧
      tree.kindAt? directory = some .directory ∧ tree.kindAt? (directory ++ [name]) = none := by
  induction steps generalizing location with
  | nil =>
      rw [walk] at h
      split at h <;> cases h
  | cons step rest ih =>
      rcases walk_cons h with hrest | ⟨rfl, hplace, hstep, hfree⟩
      · obtain ⟨hfollow, -, hkinds⟩ := ih hrest
        exact ⟨hfollow, List.cons_ne_nil _ _, hkinds⟩
      · cases hplace
        exact ⟨hstep, List.cons_ne_nil _ _, kindAt?_of_walk_cons h, hfree⟩

/-- All that a walk passes before its end are directories. -/
theorem walk_way {place : Place} (h : tree.walk location steps = .ok place) {other : Location}
    (hother : other ∈ way location steps) :
    other = follow location steps ∨ tree.kindAt? other = some .directory := by
  induction steps generalizing location with
  | nil => simp [way] at hother
  | cons step rest ih =>
      rcases walk_cons h with hrest | ⟨rfl, -, -, -⟩
      · rcases List.mem_cons.mp hother with rfl | hother
        · -- what a walk goes on from is a directory
          cases rest with
          | nil => exact .inl rfl
          | cons next more => exact .inr (kindAt?_of_walk_cons hrest)
        · exact ih hrest hother
      · exact .inl (by simpa [way, follow] using hother)

theorem resolve_eq_walk {path : String} {place : Place} (h : tree.resolve path = .ok place) :
    tree.walk (tree.startOf path) (Files.steps path) = .ok place := by
  unfold resolve at h
  split at h
  · cases h
  split at h
  · cases h
  split at h
  · cases h
  · exact h

theorem resolve_node {path : String} {found : Location} {node : Node}
    (h : tree.resolve path = .ok (.node found node)) :
    found = tree.locationOf path ∧ tree.at? found = some node := walk_node (resolve_eq_walk h)

theorem resolve_vacant {path : String} {directory : Location} {name : String}
    (h : tree.resolve path = .ok (.vacant directory name)) :
    tree.locationOf path = directory ++ [name] ∧ Files.steps path ≠ [] ∧
      tree.kindAt? directory = some .directory ∧ tree.kindAt? (directory ++ [name]) = none :=
  walk_vacant (resolve_eq_walk h)

/-- Where a path resolves, all that its proper lexical prefixes lead to are directories. -/
theorem directory_of_mem_wayTo {path : String} {place : Place} (h : tree.resolve path = .ok place)
    {other : Location} (hother : other ∈ tree.wayTo path) :
    other = tree.locationOf path ∨ tree.kindAt? other = some .directory :=
  walk_way (resolve_eq_walk h) hother

/-! ## Trees with the same current directory -/

variable {first second : FileTree}

theorem startOf_congr (h : first.current = second.current) (path : String) :
    first.startOf path = second.startOf path := by
  rw [startOf, startOf, h]

theorem locationOf_congr (h : first.current = second.current) (path : String) :
    first.locationOf path = second.locationOf path := by
  rw [locationOf, locationOf, startOf_congr h]

theorem wayTo_congr (h : first.current = second.current) (path : String) :
    first.wayTo path = second.wayTo path := by
  rw [wayTo, wayTo, startOf_congr h]

end FileTree

end RouteScaffold.Files
