import RouteScaffold.Proofs.Files.Calls

/-!
# The shape of a file tree

Calls look at where directories and files are, and never at what a file holds.  `shapeAt?` is what
they look at, and `spot` is what they find at the end of a path; each call is a function of `spot`
(`makeDirectory_eq`, `isDirectory_eq`, `exists?_eq`, `writeNew_eq`, `write_eq`).

* Trees that are `Alike` have one shape, so that calls do the same on them.
* A tree that `Covers` another one has all that is there, directories as directories and files as
  files, so that what a path names there it names here too.
-/

namespace RouteScaffold.Files

/-- Whether a kind is that of a directory. -/
def Kind.isDirectory : Kind → Bool
  | directory => true
  | file _ => false

theorem Kind.isDirectory_eq_true {kind : Kind} : kind.isDirectory = true ↔ kind = .directory := by
  cases kind <;> simp [isDirectory]

namespace Node

theorem isDirectory_kind (node : Node) : node.kind.isDirectory = node.isDir := by
  cases node <;> rfl

/-- Putting back what is there changes nothing. -/
theorem putMember_of_lookup {name : String} {child : Node} {entries : List (String × Node)}
    (h : entries.lookup name = some child) : putMember name child entries = entries := by
  induction entries with
  | nil => cases h
  | cons entry rest ih =>
      obtain ⟨other, node⟩ := entry
      rw [List.lookup_cons] at h
      by_cases hname : other = name
      · subst hname
        simp only [beq_self_eq_true, Option.some.injEq] at h
        simp [putMember, h]
      · have hne : (name == other) = false := by simpa using Ne.symm hname
        simp only [hne] at h
        simp [putMember, hname, ih h]

/-- Without a directory to put it into a node is not put. -/
theorem put_of_no_parent {node : Node} {location : Location} (new : Node) (hne : location ≠ [])
    (hparent : node.kindAt? location.dropLast ≠ some .directory) : node.put location new = node := by
  induction location generalizing node with
  | nil => exact absurd rfl hne
  | cons name rest ih =>
      cases node with
      | file contents => cases rest <;> rfl
      | dir entries =>
          cases rest with
          | nil => exact absurd rfl hparent
          | cons next more =>
              rw [put_cons_cons]
              split
              · rename_i child hchild
                have hbelow : child.kindAt? (next :: more).dropLast ≠ some .directory := by
                  rwa [List.dropLast_cons_cons, kindAt?_cons, entries_dir, hchild] at hparent
                rw [ih (List.cons_ne_nil _ _) hbelow, putMember_of_lookup hchild]
              · rfl

end Node

namespace FileTree

/-- Whether a directory or a file is at a location, if anything is. -/
def shapeAt? (tree : FileTree) (location : Location) : Option Bool :=
  (tree.kindAt? location).map Kind.isDirectory

theorem shapeAt?_eq_true {tree : FileTree} {location : Location} :
    tree.shapeAt? location = some true ↔ tree.kindAt? location = some .directory := by
  rw [shapeAt?, Option.map_eq_some_iff]
  simp [Kind.isDirectory_eq_true]

theorem shapeAt?_of_at? {tree : FileTree} {location : Location} {node : Node}
    (h : tree.at? location = some node) : tree.shapeAt? location = some node.isDir := by
  rw [shapeAt?, kindAt?_of_at? h, Option.map_some, Node.isDirectory_kind]

theorem shapeAt?_of_at?_none {tree : FileTree} {location : Location}
    (h : tree.at? location = none) : tree.shapeAt? location = none := by
  rw [shapeAt?, kindAt?_eq_map, h]
  rfl

theorem isSome_shapeAt?_child {tree : FileTree} {location : Location}
    {entries : List (String × Node)} (h : tree.at? location = some (.dir entries)) (name : String) :
    (tree.shapeAt? (location ++ [name])).isSome = (entries.lookup name).isSome := by
  rw [shapeAt?, kindAt?_child h, Option.isSome_map, Option.isSome_map]

/-! ## Trees of one shape -/

/-- Trees with directories and files in the same places. -/
structure Alike (first second : FileTree) : Prop where
  current_eq : first.current = second.current
  shapeAt?_eq : ∀ location, first.shapeAt? location = second.shapeAt? location

/-- A tree that has all that another one has, directories as directories and files as files. -/
structure Covers (before after : FileTree) : Prop where
  current_eq : after.current = before.current
  shapeAt?_of_some : ∀ location isDirectory, before.shapeAt? location = some isDirectory →
    after.shapeAt? location = some isDirectory

variable {before middle after first second : FileTree}

theorem Alike.refl (tree : FileTree) : Alike tree tree := ⟨rfl, fun _ => rfl⟩

theorem Alike.trans {third : FileTree} (hfirst : Alike first second) (hsecond : Alike second third) :
    Alike first third :=
  ⟨hfirst.current_eq.trans hsecond.current_eq, fun location =>
    (hfirst.shapeAt?_eq location).trans (hsecond.shapeAt?_eq location)⟩

theorem Covers.refl (tree : FileTree) : Covers tree tree := ⟨rfl, fun _ _ h => h⟩

theorem Covers.trans (hfirst : Covers before middle) (hsecond : Covers middle after) :
    Covers before after :=
  ⟨hsecond.current_eq.trans hfirst.current_eq, fun location isDirectory h =>
    hsecond.shapeAt?_of_some _ _ (hfirst.shapeAt?_of_some location isDirectory h)⟩

theorem Grows.covers {created : List Location} (h : before.Grows created after) :
    Covers before after := by
  refine ⟨h.current_eq, fun location isDirectory hshape => ?_⟩
  obtain ⟨kind, hkind, rfl⟩ := Option.map_eq_some_iff.mp hshape
  rw [shapeAt?, h.kindAt?_of_some hkind, Option.map_some]

/-- A file put where nothing or a file is. -/
theorem Puts.covers {location : Location} {contents : ByteArray}
    (h : before.Puts location (.file contents) after)
    (hold : before.kindAt? location ≠ some .directory) : Covers before after := by
  refine ⟨h.current_eq, fun other isDirectory hshape => ?_⟩
  rw [shapeAt?, h.kindAt?_eq]
  split
  · rename_i hother
    subst hother
    cases isDirectory with
    | true => exact absurd (shapeAt?_eq_true.mp hshape) hold
    | false => rfl
  · exact hshape

/-! ## Changes of trees of one shape -/

/-- What stands where after a change: if there is a directory to put something into, what is put
counts at its location and below. -/
theorem kindAt?_apply (tree : FileTree) (change : Change) (other : Location) :
    (tree.apply change).kindAt? other =
      if (change.location = [] ∨ tree.shapeAt? change.location.dropLast = some true) ∧
          change.location <+: other then
        change.node.kindAt? (other.drop change.location.length)
      else tree.kindAt? other := by
  rw [apply_eq]
  by_cases hparent : change.location = [] ∨ tree.shapeAt? change.location.dropLast = some true
  · simp only [hparent, true_and]
    refine Node.kindAt?_put _ (fun hne => ?_) other
    exact shapeAt?_eq_true.mp (hparent.resolve_left hne)
  · rw [if_neg fun hand => hparent hand.1]
    obtain ⟨hne, hnone⟩ := not_or.mp hparent
    rw [kindAt?, Node.put_of_no_parent _ hne fun hdirectory => hnone (shapeAt?_eq_true.mpr hdirectory)]
    rfl

/-- Trees of one shape that hold the same but for one location. -/
structure SameBut (away : Location) (first second : FileTree) : Prop extends
    Alike first second where
  kindAt?_eq : ∀ other, other ≠ away → first.kindAt? other = second.kindAt? other

theorem Alike.apply (h : Alike first second) (change : Change) :
    Alike (first.apply change) (second.apply change) := by
  refine ⟨by rw [apply_eq, apply_eq]; exact h.current_eq, fun other => ?_⟩
  rw [shapeAt?, shapeAt?, kindAt?_apply, kindAt?_apply, h.shapeAt?_eq]
  split
  · rfl
  · exact h.shapeAt?_eq other

theorem Alike.applyAll (h : Alike first second) (changes : List Change) :
    Alike (first.applyAll changes) (second.applyAll changes) := by
  induction changes generalizing first second with
  | nil => exact h
  | cons change rest ih => exact ih (h.apply change)

theorem SameBut.apply {away : Location} (h : SameBut away first second) (change : Change) :
    SameBut away (first.apply change) (second.apply change) := by
  refine ⟨h.toAlike.apply change, fun other hother => ?_⟩
  rw [kindAt?_apply, kindAt?_apply, h.shapeAt?_eq, h.kindAt?_eq other hother]

theorem SameBut.applyAll {away : Location} (h : SameBut away first second) (changes : List Change) :
    SameBut away (first.applyAll changes) (second.applyAll changes) := by
  induction changes generalizing first second with
  | nil => exact h
  | cons change rest ih => exact ih (h.apply change)

/-- Two files put at one location. -/
theorem Puts.sameBut_of_puts {location : Location} {one other : ByteArray}
    (hfirst : before.Puts location (.file one) first)
    (hsecond : before.Puts location (.file other) second) : SameBut location first second := by
  have hkind : ∀ elsewhere, elsewhere ≠ location →
      first.kindAt? elsewhere = second.kindAt? elsewhere := by
    intro elsewhere hne
    rw [hfirst.kindAt?_of_ne hne, hsecond.kindAt?_of_ne hne]
  refine ⟨⟨hfirst.current_eq.trans hsecond.current_eq.symm, fun elsewhere => ?_⟩, hkind⟩
  by_cases hne : elsewhere = location
  · rw [hne, shapeAt?, shapeAt?, hfirst.kindAt?_self, hsecond.kindAt?_self]
    rfl
  · rw [shapeAt?, shapeAt?, hkind elsewhere hne]

/-- A file that is put in place of another one changes no shape. -/
theorem Puts.sameBut {location : Location} {old contents : ByteArray}
    (h : before.Puts location (.file contents) after)
    (hold : before.kindAt? location = some (.file old)) : SameBut location before after := by
  have hself : before.Puts location (.file old) before := by
    refine ⟨rfl, fun other => ?_⟩
    split
    · rename_i hother
      rw [hother, hold]
    · rfl
  exact hself.sameBut_of_puts h

/-! ## What a path leads to -/

end FileTree

/-- What a path leads to, without what is held there. -/
inductive Spot where
  | there (location : Location) (isDirectory : Bool)
  | free (directory : Location) (name : String)

/-- A place without what is held there. -/
def Place.spot : Place → Spot
  | node location found => .there location found.isDir
  | vacant directory name => .free directory name

/-- Whether a path can be followed at all. -/
structure Passes (path : String) : Prop where
  nul_not_mem : path.toList.contains '\x00' = false
  ne_empty : path.isEmpty = false
  size_lt : path.utf8ByteSize < pathLimit

namespace FileTree

variable {tree before after first second : FileTree} {path : String}

/-- What some steps lead to from a location. -/
def spotFrom (tree : FileTree) (location : Location) (steps : List String) : Except Fault Spot :=
  (tree.walk location steps).map Place.spot

/-- What a path leads to. -/
def spot (tree : FileTree) (path : String) : Except Fault Spot := (tree.resolve path).map Place.spot

theorem spotFrom_nil (tree : FileTree) (location : Location) :
    tree.spotFrom location [] =
      match tree.shapeAt? location with
      | some isDirectory => .ok (.there location isDirectory)
      | none => .error .notFound := by
  rw [spotFrom, walk]
  cases hnode : tree.at? location with
  | none => rw [shapeAt?_of_at?_none hnode]; rfl
  | some node => rw [shapeAt?_of_at? hnode]; rfl

theorem spotFrom_cons (tree : FileTree) (location : Location) (step : String) (rest : List String) :
    tree.spotFrom location (step :: rest) =
      match tree.shapeAt? location with
      | none => .error .notFound
      | some false => .error .notDirectory
      | some true =>
        if step = "." then tree.spotFrom location rest
        else if step = ".." then tree.spotFrom location.dropLast rest
        else if nameLimit < step.utf8ByteSize then .error .nameTooLong
        else if (tree.shapeAt? (location ++ [step])).isSome then
          tree.spotFrom (location ++ [step]) rest
        else if rest.isEmpty then .ok (.free location step)
        else .error .notFound := by
  rw [spotFrom, walk]
  cases hnode : tree.at? location with
  | none => rw [shapeAt?_of_at?_none hnode]; rfl
  | some node =>
      rw [shapeAt?_of_at? hnode]
      cases node with
      | file contents => rfl
      | dir entries =>
          rw [isSome_shapeAt?_child hnode]
          simp only [Node.isDir, apply_ite (Except.map Place.spot)]
          rfl

theorem shapeAt?_dropLast {location : Location} (h : tree.shapeAt? location = some true) :
    tree.shapeAt? location.dropLast = some true := by
  by_cases hroot : location = []
  · rwa [hroot] at h ⊢
  · rw [shapeAt?_eq_true] at h ⊢
    exact kindAt?_dropLast (by simp [h]) hroot

/-- From a directory a step leads on to where it leads lexically, whether it stays, goes up or goes down, unless
it is too long, or the last one and nothing is there. -/
theorem spotFrom_followStep (tree : FileTree) (location : Location) (step : String) (rest : List String) :
    tree.spotFrom location (step :: rest) =
      match tree.shapeAt? location with
      | none => .error .notFound
      | some false => .error .notDirectory
      | some true =>
        if nameLimit < step.utf8ByteSize then .error .nameTooLong
        else if rest = [] ∧ tree.shapeAt? (followStep location step) = none then .ok (.free location step)
        else tree.spotFrom (followStep location step) rest := by
  rw [spotFrom_cons, followStep]
  cases hhere : tree.shapeAt? location with
  | none => rfl
  | some isDirectory =>
      cases isDirectory with
      | false => rfl
      | true =>
          dsimp only
          by_cases hdot : step = "."
          · subst hdot
            rw [if_pos rfl, if_neg (by decide), if_pos rfl, if_neg (by simp [hhere])]
          by_cases hup : step = ".."
          · subst hup
            rw [if_neg hdot, if_pos rfl, if_neg (by decide), if_neg hdot, if_pos rfl,
              if_neg (by simp [shapeAt?_dropLast hhere])]
          rw [if_neg hdot, if_neg hup, if_neg hdot, if_neg hup]
          cases hnext : tree.shapeAt? (location ++ [step]) with
          | some isDirectory => simp
          | none =>
              cases rest with
              | nil => simp
              | cons next more => simp [spotFrom_cons, hnext]

/-- A step to where nothing is goes down. -/
theorem followStep_of_none {location : Location} {step : String}
    (hhere : tree.shapeAt? location = some true)
    (hnone : tree.shapeAt? (followStep location step) = none) :
    followStep location step = location ++ [step] := by
  rw [followStep] at hnone ⊢
  split at hnone
  · simp [hhere] at hnone
  split at hnone
  · simp [shapeAt?_dropLast hhere] at hnone
  · rw [if_neg ‹_›, if_neg ‹_›]

theorem spot_of_passes (h : Passes path) (tree : FileTree) :
    tree.spot path = tree.spotFrom (tree.startOf path) (Files.steps path) := by
  rw [spot, resolve, if_neg (by simp only [h.nul_not_mem, Bool.false_eq_true, not_false_eq_true]),
    if_neg (by simp only [h.ne_empty, Bool.false_eq_true, not_false_eq_true]),
    if_neg (Nat.not_le.mpr h.size_lt), spotFrom]

/-- A path that cannot be followed leads nowhere, in all trees alike, and unless it is empty not for
want of anything there. -/
theorem spot_of_not_passes (h : ¬ Passes path) :
    ∃ fault, (fault = .notFound → path.isEmpty = true) ∧
      ∀ tree : FileTree, tree.spot path = .error fault := by
  by_cases hnul : path.toList.contains '\x00' = true
  · refine ⟨.nulByte, fun heq => (by cases heq), fun tree => ?_⟩
    rw [spot, resolve, if_pos hnul]
    rfl
  by_cases hempty : path.isEmpty = true
  · refine ⟨.notFound, fun _ => hempty, fun tree => ?_⟩
    rw [spot, resolve, if_neg hnul, if_pos hempty]
    rfl
  by_cases hsize : pathLimit ≤ path.utf8ByteSize
  · refine ⟨.nameTooLong, fun heq => (by cases heq), fun tree => ?_⟩
    rw [spot, resolve, if_neg hnul, if_neg hempty, if_pos hsize]
    rfl
  · exact absurd ⟨by simpa using hnul, by simpa using hempty, Nat.not_le.mp hsize⟩ h

theorem passes_of_spot {found : Spot} (h : tree.spot path = .ok found) : Passes path := by
  by_contra hnot
  obtain ⟨fault, -, hfault⟩ := spot_of_not_passes hnot
  rw [hfault] at h
  cases h

/-! ### Calls are functions of what a path leads to -/

theorem makeDirectory_eq (tree : FileTree) (path : String) :
    tree.makeDirectory path =
      match tree.spot path with
      | .error fault => .error fault
      | .ok (.there ..) => .error .alreadyExists
      | .ok (.free directory name) => .ok (.makeDirectory (directory ++ [name])) := by
  rw [makeDirectory, spot]
  rcases tree.resolve path with fault | ⟨location, node⟩ | ⟨directory, name⟩ <;> rfl

theorem isDirectory_eq (tree : FileTree) (path : String) :
    tree.isDirectory path =
      match tree.spot path with
      | .ok (.there _ isDirectory) => isDirectory
      | _ => false := by
  rw [isDirectory, find, spot]
  rcases tree.resolve path with fault | ⟨location, node⟩ | ⟨directory, name⟩
  · rfl
  · cases node with
    | dir entries => simp [Except.map, Place.spot, Node.isDir]
    | file contents => cases hslash : endsInSlash path <;> simp [Except.map, Place.spot, Node.isDir]
  · rfl

theorem exists?_eq (tree : FileTree) (path : String) :
    tree.exists? path =
      match tree.spot path with
      | .ok (.there _ isDirectory) => isDirectory || !endsInSlash path
      | _ => false := by
  rw [exists?, find, spot]
  rcases tree.resolve path with fault | ⟨location, node⟩ | ⟨directory, name⟩
  · rfl
  · cases hdir : node.isDir <;> cases hslash : endsInSlash path <;>
      simp [Except.map, Place.spot, Except.isOk, Except.toBool, hdir]
  · rfl

theorem writeNew_eq (tree : FileTree) (path : String) (contents : ByteArray) :
    tree.writeNew path contents =
      match tree.spot path with
      | .error fault => .error fault
      | .ok (.there _ isDirectory) =>
        if endsInSlash path && !isDirectory then .error .isDirectory else .error .alreadyExists
      | .ok (.free directory name) =>
        if endsInSlash path then .error .isDirectory
        else .ok [.makeFile (directory ++ [name]), .fill (directory ++ [name]) contents] := by
  rw [writeNew, target, spot]
  rcases tree.resolve path with fault | ⟨location, node⟩ | ⟨directory, name⟩
  · rfl
  · cases hdir : node.isDir <;> cases hslash : endsInSlash path <;>
      simp [Except.map, Place.spot, Place.isDir, hdir]
  · cases hslash : endsInSlash path <;> simp [Except.map, Place.spot, Place.isDir]

theorem write_eq (tree : FileTree) (path : String) (contents : ByteArray) :
    tree.write path contents =
      match tree.spot path with
      | .error fault => .error fault
      | .ok (.there location isDirectory) =>
        if isDirectory || endsInSlash path then .error .isDirectory
        else .ok [.makeFile location, .fill location contents]
      | .ok (.free directory name) =>
        if endsInSlash path then .error .isDirectory
        else .ok [.makeFile (directory ++ [name]), .fill (directory ++ [name]) contents] := by
  rw [write, target, spot]
  rcases tree.resolve path with fault | ⟨location, node⟩ | ⟨directory, name⟩
  · rfl
  · cases node <;> cases hslash : endsInSlash path <;>
      simp [Except.map, Place.spot, Place.isDir, Node.isDir]
  · cases hslash : endsInSlash path <;> simp [Except.map, Place.spot, Place.isDir]

/-! ### Alike trees -/

theorem Alike.spotFrom_eq (h : Alike first second) (location : Location) (steps : List String) :
    first.spotFrom location steps = second.spotFrom location steps := by
  induction steps generalizing location with
  | nil => rw [spotFrom_nil, spotFrom_nil, h.shapeAt?_eq]
  | cons step rest ih =>
      rw [spotFrom_cons, spotFrom_cons, h.shapeAt?_eq, h.shapeAt?_eq, ih, ih, ih]

theorem Alike.spot_eq (h : Alike first second) (path : String) :
    first.spot path = second.spot path := by
  by_cases hpasses : Passes path
  · rw [spot_of_passes hpasses, spot_of_passes hpasses, h.spotFrom_eq, startOf_congr h.current_eq]
  · obtain ⟨fault, -, hfault⟩ := spot_of_not_passes hpasses
    rw [hfault, hfault]

theorem Alike.makeDirectory_eq (h : Alike first second) (path : String) :
    first.makeDirectory path = second.makeDirectory path := by
  rw [FileTree.makeDirectory_eq, FileTree.makeDirectory_eq, h.spot_eq]

theorem Alike.isDirectory_eq (h : Alike first second) (path : String) :
    first.isDirectory path = second.isDirectory path := by
  rw [FileTree.isDirectory_eq, FileTree.isDirectory_eq, h.spot_eq]

theorem Alike.exists?_eq (h : Alike first second) (path : String) :
    first.exists? path = second.exists? path := by
  rw [FileTree.exists?_eq, FileTree.exists?_eq, h.spot_eq]

theorem Alike.writeNew_eq (h : Alike first second) (path : String) (contents : ByteArray) :
    first.writeNew path contents = second.writeNew path contents := by
  rw [FileTree.writeNew_eq, FileTree.writeNew_eq, h.spot_eq]

theorem Alike.write_eq (h : Alike first second) (path : String) (contents : ByteArray) :
    first.write path contents = second.write path contents := by
  rw [FileTree.write_eq, FileTree.write_eq, h.spot_eq]

theorem Alike.makeWithin_eq (h : Alike first second) (path : List Char)
    (parents : List (List Char)) : first.makeWithin path parents = second.makeWithin path parents := by
  induction parents generalizing path with
  | nil => rw [makeWithin, makeWithin, h.makeDirectory_eq, h.isDirectory_eq]
  | cons parent outer ih =>
      have hgrown := h.applyAll (second.makeWithin parent outer).changes
      rw [makeWithin, makeWithin]
      simp only [h.makeDirectory_eq, h.isDirectory_eq, ih, hgrown.makeDirectory_eq,
        hgrown.isDirectory_eq]

theorem Alike.makeDirectories_eq (h : Alike first second) (path : String) :
    first.makeDirectories path = second.makeDirectories path :=
  h.makeWithin_eq _ _

/-! ### Trees that cover others -/

theorem Alike.covers (h : Alike first second) : Covers first second :=
  ⟨h.current_eq.symm, fun location _ hshape => h.shapeAt?_eq location ▸ hshape⟩

/-- What something that was found in a smaller tree is in this one: a name that was free may be
taken. -/
def see (tree : FileTree) : Spot → Spot
  | .there location isDirectory => .there location isDirectory
  | .free directory name =>
    match tree.shapeAt? (directory ++ [name]) with
    | some isDirectory => .there (directory ++ [name]) isDirectory
    | none => .free directory name

theorem Covers.spotFrom_ok (h : Covers before after) {location : Location} {steps : List String}
    {found : Spot} (hspot : before.spotFrom location steps = .ok found) :
    after.spotFrom location steps = .ok (after.see found) := by
  induction steps generalizing location with
  | nil =>
      rw [spotFrom_nil] at hspot ⊢
      split at hspot
      · rename_i hshape
        cases hspot
        rw [h.shapeAt?_of_some _ _ hshape, see]
      · cases hspot
  | cons step rest ih =>
      rw [spotFrom_followStep] at hspot ⊢
      split at hspot
      · cases hspot
      · cases hspot
      rename_i hhere
      rw [h.shapeAt?_of_some _ _ hhere]
      dsimp only
      split at hspot
      · cases hspot
      rw [if_neg ‹_›]
      split at hspot
      · -- the last step led to a free name, which may be taken now
        rename_i hfree
        obtain ⟨rfl, hnone⟩ := hfree
        cases hspot
        rw [followStep_of_none hhere hnone, spotFrom_nil, see]
        cases after.shapeAt? (location ++ [step]) <;> simp
      · rename_i hnot
        have hthere : ¬ (rest = [] ∧ after.shapeAt? (followStep location step) = none) := by
          rintro ⟨rfl, hnone⟩
          obtain ⟨isDirectory, hshape⟩ := Option.ne_none_iff_exists'.mp fun hnone => hnot ⟨rfl, hnone⟩
          rw [h.shapeAt?_of_some _ _ hshape] at hnone
          cases hnone
        rw [if_neg hthere, ih hspot]

theorem Covers.spot_ok (h : Covers before after) {found : Spot}
    (hspot : before.spot path = .ok found) : after.spot path = .ok (after.see found) := by
  have hpasses := passes_of_spot hspot
  rw [spot_of_passes hpasses] at hspot ⊢
  rw [startOf_congr h.current_eq, h.spotFrom_ok hspot]

/-- What a path names is named by it in all trees that cover this one. -/
theorem Covers.spot_there (h : Covers before after) {location : Location} {isDirectory : Bool}
    (hspot : before.spot path = .ok (.there location isDirectory)) :
    after.spot path = .ok (.there location isDirectory) :=
  h.spot_ok hspot

/-- A name that is free is taken by what is there in a tree that covers this one. -/
theorem Covers.spot_free (h : Covers before after) {directory : Location} {name : String}
    {isDirectory : Bool} (hspot : before.spot path = .ok (.free directory name))
    (hshape : after.shapeAt? (directory ++ [name]) = some isDirectory) :
    after.spot path = .ok (.there (directory ++ [name]) isDirectory) := by
  rw [h.spot_ok hspot, see, hshape]

end FileTree

end RouteScaffold.Files
