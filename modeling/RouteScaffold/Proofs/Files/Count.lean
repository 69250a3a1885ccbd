import RouteScaffold.Proofs.Files.Resume

/-!
# Counting files

How many regular files a tree has.  A directory counts what its entries count (`fileCount_dir`), so that
a node that is put somewhere changes the count by what it counts and what stood there before
(`weight_put`).  Making directories adds no file (`weight_makeDirectories`), and writing a file adds one
where nothing was (`weight_writeNew`, `weight_write`).

Entries need not have distinct names here: the count is that of all entries, also of those that no path
leads to.
-/

namespace RouteScaffold.Files

namespace Node

/-! ## Nodes -/

/-- What a node counts as an entry: a file itself, a directory the files below it. -/
def weight : Node → Nat
  | file _ => 1
  | dir entries => (dir entries).fileCount

/-- What the entries of a directory count together. -/
def entriesWeight : List (String × Node) → Nat
  | [] => 0
  | (_, node) :: rest => node.weight + entriesWeight rest

theorem countP_entryDescendants (here : Location) (entries : List (String × Node)) :
    (entryDescendants here entries).countP (·.2.isSome) = entriesWeight entries := by
  match entries with
  | [] =>
      rw [entryDescendants]
      rfl
  | (name, file contents) :: rest =>
      rw [entryDescendants, List.countP_cons, countP_entryDescendants here rest]
      simp [entriesWeight, weight, Nat.add_comm]
  | (name, dir inner) :: rest =>
      rw [entryDescendants, List.countP_cons, List.countP_append,
        countP_entryDescendants (here ++ [name]) inner, countP_entryDescendants here rest]
      have hinner : (dir inner).fileCount = entriesWeight inner := countP_entryDescendants [] inner
      simp [entriesWeight, weight, hinner]
termination_by sizeOf entries

/-- A directory counts what its entries count. -/
theorem fileCount_dir (entries : List (String × Node)) :
    (dir entries).fileCount = entriesWeight entries := countP_entryDescendants [] entries

theorem weight_dir (entries : List (String × Node)) : (dir entries).weight = entriesWeight entries :=
  fileCount_dir entries

theorem weight_empty : empty.weight = 0 := weight_dir []

theorem weight_eq (node : Node) : node.weight = node.fileCount + if node.isDir then 0 else 1 := by
  cases node with
  | dir entries => rfl
  | file contents =>
      rw [fileCount, descendants]
      rfl

/-- What stands at a location counts, nothing as nothing. -/
def weightAt (node : Node) (location : Location) : Nat := ((node.at? location).map weight).getD 0

/-- Entries count what they counted before, and what is put instead of what stood under the name. -/
theorem entriesWeight_putMember (name : String) (new : Node) (entries : List (String × Node)) :
    entriesWeight (putMember name new entries) + ((entries.lookup name).map weight).getD 0 =
      entriesWeight entries + new.weight := by
  induction entries with
  | nil => simp [putMember, entriesWeight]
  | cons first rest ih =>
      by_cases hname : first.1 = name
      · have hkey : (name == first.1) = true := by simpa using hname.symm
        rw [putMember, if_pos hname, List.lookup_cons, hkey]
        simp only [entriesWeight, Option.map_some, Option.getD_some]
        omega
      · have hkey : (name == first.1) = false := by simpa using Ne.symm hname
        rw [putMember, if_neg hname, List.lookup_cons, hkey]
        simp only [entriesWeight] at ih ⊢
        omega

/-- A node counts what it counted before, and what is put instead of what stood at the location. -/
theorem weight_put {node : Node} {location : Location} (new : Node)
    (hparent : location ≠ [] → node.kindAt? location.dropLast = some .directory) :
    (node.put location new).weight + node.weightAt location = node.weight + new.weight := by
  induction location generalizing node with
  | nil => simp [put, weightAt, Nat.add_comm]
  | cons name rest ih =>
      have hparent := hparent (List.cons_ne_nil _ _)
      cases rest with
      | nil =>
          obtain ⟨entries, rfl⟩ := kind_eq_directory.mp (Option.some.inj hparent)
          rw [put, weight_dir, weight_dir, weightAt, at?_cons, entries_dir]
          have hput := entriesWeight_putMember name new entries
          -- at the last name the entry is new, or replaces one
          cases hchild : entries.lookup name with
          | none => simpa [hchild] using hput
          | some child => simpa [hchild] using hput
      | cons next more =>
          rw [List.dropLast_cons_cons, kindAt?_cons] at hparent
          obtain ⟨child, hchild, hbelow⟩ := Option.bind_eq_some_iff.mp hparent
          cases node with
          | file contents => simp [entries] at hchild
          | dir entries =>
              rw [entries_dir] at hchild
              have hput := entriesWeight_putMember name (child.put (next :: more) new) entries
              have hrest := ih fun _ => hbelow
              rw [hchild, Option.map_some, Option.getD_some] at hput
              rw [put_cons_cons, hchild, weight_dir, weight_dir]
              have hat : (dir entries).weightAt (name :: next :: more) = child.weightAt (next :: more) := by
                rw [weightAt, at?_cons, entries_dir, hchild]
                rfl
              omega

end Node

namespace FileTree

variable {tree : FileTree} {path : String} {location : Location}

/-! ## Changes -/

/-- A tree counts what it counted before, and what a change puts instead of what stood there. -/
theorem weight_apply (tree : FileTree) (change : Change)
    (hparent : change.location ≠ [] → tree.kindAt? change.location.dropLast = some .directory) :
    (tree.apply change).root.weight + tree.root.weightAt change.location =
      tree.root.weight + change.node.weight := by
  rw [apply_eq]
  exact Node.weight_put change.node hparent

theorem weightAt_of_none (h : tree.kindAt? location = none) : tree.root.weightAt location = 0 := by
  have hnone : tree.root.at? location = none := Option.map_eq_none_iff.mp h
  rw [Node.weightAt, hnone]
  rfl

theorem weightAt_of_file {contents : ByteArray} (h : tree.kindAt? location = some (.file contents)) :
    tree.root.weightAt location = 1 := by
  obtain ⟨node, hnode, hkind⟩ := Option.map_eq_some_iff.mp h
  cases node with
  | dir entries => cases hkind
  | file contents =>
      rw [Node.weightAt, hnode]
      rfl

/-- A file that is made and filled counts instead of what stood there. -/
theorem weight_file (tree : FileTree) (location : Location) (contents : ByteArray)
    (hparent : location ≠ [] → tree.kindAt? location.dropLast = some .directory)
    (hold : tree.kindAt? location ≠ some .directory) :
    (tree.applyAll [.makeFile location, .fill location contents]).root.weight +
      tree.root.weightAt location = tree.root.weight + 1 := by
  have hputs := puts_makeFile hparent hold
  have hthere : (tree.apply (.makeFile location)).kindAt? location = some (.file ByteArray.empty) :=
    hputs.kindAt?_self
  have hmade : (tree.apply (.makeFile location)).root.weight + tree.root.weightAt location =
      tree.root.weight + 1 := weight_apply tree (.makeFile location) hparent
  have hfilled : ((tree.apply (.makeFile location)).apply (.fill location contents)).root.weight +
      (tree.apply (.makeFile location)).root.weightAt location =
        (tree.apply (.makeFile location)).root.weight + 1 :=
    weight_apply _ (.fill location contents) (kindAt?_dropLast (hthere ▸ Option.some_ne_none _))
  rw [weightAt_of_file hthere] at hfilled
  have hall : tree.applyAll [.makeFile location, .fill location contents] =
      (tree.apply (.makeFile location)).apply (.fill location contents) := rfl
  rw [hall]
  omega

/-! ## Calls -/

/-- Making directories adds no file. -/
theorem weight_makeDirectories (tree : FileTree) (path : String) :
    (tree.applyAll (tree.makeDirectories path).changes).root.weight = tree.root.weight := by
  refine changes_induction (P := fun changes => (tree.applyAll changes).root.weight = tree.root.weight)
    rfl (fun changes text directory name hchanges hspot => ?_) _ _
  obtain ⟨hlocation, hsteps, hparent, hfree⟩ := resolve_vacant (resolve_of_spot_free hspot)
  have hadded := weight_apply (tree.applyAll changes) (.makeDirectory (directory ++ [name]))
    fun _ => by rw [Change.location, List.dropLast_concat, hparent]
  rw [Change.location, weightAt_of_none hfree, Change.node, Node.weight_empty] at hadded
  rw [applyAll_append]
  exact hadded.trans hchanges

theorem weight_vacant {directory : Location} {name : String} (contents : ByteArray)
    (h : tree.target path = .ok (.vacant directory name)) :
    (tree.applyAll [.makeFile (directory ++ [name]), .fill (directory ++ [name]) contents]).root.weight =
      tree.root.weight + 1 := by
  obtain ⟨hlocation, hparent, hfree, -⟩ := target_vacant h
  rw [hlocation] at hfree
  have hfile := weight_file tree (directory ++ [name]) contents
    (fun _ => by rw [List.dropLast_concat, hparent]) (by simp [hfree])
  rwa [weightAt_of_none hfree] at hfile

/-- Writing a new file adds it. -/
theorem weight_writeNew {contents : ByteArray} {changes : List Change}
    (h : tree.writeNew path contents = .ok changes) :
    (tree.applyAll changes).root.weight = tree.root.weight + 1 := by
  unfold writeNew at h
  split at h
  · cases h
  · cases h
  · rename_i htarget
    cases h
    exact weight_vacant contents htarget

/-- Writing a file adds it, unless it was there. -/
theorem weight_write {contents : ByteArray} {changes : List Change}
    (h : tree.write path contents = .ok changes) :
    (tree.applyAll changes).root.weight =
      tree.root.weight + if tree.exists? path then 0 else 1 := by
  unfold write at h
  split at h
  · cases h
  · cases h
  · rename_i found old htarget
    cases h
    obtain ⟨rfl, hnode, hthere⟩ := target_node htarget
    have hkind := kindAt?_of_at? hnode
    have hfile := weight_file tree (tree.locationOf path) contents
      (kindAt?_dropLast (by simp [hkind])) (by simp [hkind, Node.kind])
    rw [weightAt_of_file hkind] at hfile
    rw [hthere, if_pos rfl]
    omega
  · rename_i htarget
    cases h
    rw [(target_vacant htarget).2.2.2]
    exact weight_vacant contents htarget

/-- Where all stays that was there, the count of files grows as the tree does. -/
theorem Covers.fileCount_eq {before after : FileTree} {added : Nat} (h : Covers before after)
    (hweight : after.root.weight = before.root.weight + added) :
    after.root.fileCount = before.root.fileCount + added := by
  have hroot : before.shapeAt? [] = some before.root.isDir := shapeAt?_of_at? rfl
  have hsame : after.root.isDir = before.root.isDir :=
    Option.some.inj ((shapeAt?_of_at? rfl).symm.trans (h.shapeAt?_of_some _ _ hroot))
  rw [Node.weight_eq, Node.weight_eq, hsame] at hweight
  omega

end FileTree

end RouteScaffold.Files
