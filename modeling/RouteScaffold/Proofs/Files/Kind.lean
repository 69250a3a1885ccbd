import Mathlib.Data.List.Basic
import RouteScaffold.Files.Tree

/-!
# What stands at a location

Of a file tree only this can be observed: at each location there is nothing, a directory, or a file
with its contents.  `kindAt?` is that view, and what a change does is said in terms of it.

A change puts a node without anything below it at a location that holds no directory.  Such a put
changes the view at that location and nowhere else (`kindAt?_put_of_leaf`).
-/

namespace RouteScaffold.Files

/-- A directory, or a file with its contents. -/
inductive Kind where
  | directory
  | file (contents : ByteArray)

namespace Node

/-- What a node is, apart from what it holds. -/
def kind : Node → Kind
  | dir _ => .directory
  | file contents => .file contents

/-- What stands at a location below a node. -/
def kindAt? (node : Node) (location : Location) : Option Kind := (node.at? location).map kind

@[simp] theorem entries_dir (entries : List (String × Node)) : (dir entries).entries = entries := rfl

@[simp] theorem at?_nil (node : Node) : node.at? [] = some node := rfl

theorem at?_cons (node : Node) (name : String) (rest : Location) :
    node.at? (name :: rest) = (node.entries.lookup name).bind fun child => child.at? rest := rfl

theorem at?_append (node : Node) (front back : Location) :
    node.at? (front ++ back) = (node.at? front).bind fun found => found.at? back := by
  induction front generalizing node with
  | nil => rfl
  | cons name rest ih =>
      rw [List.cons_append, at?_cons, at?_cons, Option.bind_assoc]
      congr 1
      funext child
      exact ih child

@[simp] theorem kindAt?_nil (node : Node) : node.kindAt? [] = some node.kind := rfl

theorem kindAt?_cons (node : Node) (name : String) (rest : Location) :
    node.kindAt? (name :: rest) =
      (node.entries.lookup name).bind fun child => child.kindAt? rest := by
  rw [kindAt?, at?_cons, Option.map_bind]
  rfl

theorem kindAt?_append (node : Node) (front back : Location) :
    node.kindAt? (front ++ back) = (node.at? front).bind fun found => found.kindAt? back := by
  rw [kindAt?, at?_append, Option.map_bind]
  rfl

theorem kind_eq_directory {node : Node} : node.kind = .directory ↔ ∃ entries, node = dir entries := by
  cases node with
  | dir entries => simp [kind]
  | file contents => simp [kind]

/-! ## Below what is no directory there is nothing -/

theorem kindAt?_file_cons (contents : ByteArray) (name : String) (rest : Location) :
    (file contents).kindAt? (name :: rest) = none := by
  rw [kindAt?_cons]
  rfl

theorem kindAt?_empty_cons (name : String) (rest : Location) :
    empty.kindAt? (name :: rest) = none := by
  rw [kindAt?_cons]
  rfl

/-- What holds something is a directory. -/
theorem kindAt?_directory_of_append {node : Node} (front : Location) {back : Location}
    (hback : back ≠ []) (h : node.kindAt? (front ++ back) ≠ none) :
    node.kindAt? front = some .directory := by
  obtain ⟨name, rest, rfl⟩ := List.exists_cons_of_ne_nil hback
  rw [kindAt?_append] at h
  cases hfront : node.at? front with
  | none => simp [hfront] at h
  | some found =>
      cases found with
      | dir entries => simp [kindAt?, hfront, kind]
      | file contents => simp [hfront, kindAt?_file_cons] at h

theorem kindAt?_append_of_none {node : Node} {front : Location} (h : node.kindAt? front = none)
    (back : Location) : node.kindAt? (front ++ back) = none := by
  by_cases hback : back = []
  · simp [hback, h]
  · by_contra hsome
    have hdirectory := kindAt?_directory_of_append front hback hsome
    simp [h] at hdirectory

/-! ## Putting a node -/

theorem lookup_putMember (name other : String) (new : Node) (entries : List (String × Node)) :
    (putMember name new entries).lookup other =
      if other = name then some new else entries.lookup other := by
  by_cases hname : other = name
  · subst hname
    rw [lookup_putMember_self, if_pos rfl]
  · rw [lookup_putMember_ne hname, if_neg hname]

theorem put_cons_cons (entries : List (String × Node)) (name next : String) (rest : Location)
    (new : Node) :
    (dir entries).put (name :: next :: rest) new =
      match entries.lookup name with
      | some child => dir (putMember name (child.put (next :: rest) new) entries)
      | none => dir entries := rfl

theorem kind_put_cons {node : Node} (hnode : node.kind = .directory) (name : String)
    (rest : Location) (new : Node) : (node.put (name :: rest) new).kind = .directory := by
  obtain ⟨entries, rfl⟩ := kind_eq_directory.mp hnode
  cases rest with
  | nil => rfl
  | cons next more =>
      rw [put_cons_cons]
      split <;> rfl

/-- What stands below a location where a node was put is what stands below that node; everywhere
else nothing changes. -/
theorem kindAt?_put {node : Node} {location : Location} (new : Node)
    (hparent : location ≠ [] → node.kindAt? location.dropLast = some .directory)
    (other : Location) :
    (node.put location new).kindAt? other =
      if location <+: other then new.kindAt? (other.drop location.length)
      else node.kindAt? other := by
  induction location generalizing node other with
  | nil => simp [put]
  | cons name rest ih =>
      have hparent := hparent (List.cons_ne_nil _ _)
      -- the node holds the parent or is it, so it is a directory and takes the put
      have hself : node.kind = .directory := by
        cases rest with
        | nil => simpa using hparent
        | cons next more =>
            have hsome : node.kindAt? ([] ++ name :: (next :: more).dropLast) ≠ none := by
              rw [List.nil_append, ← List.dropLast_cons_cons, hparent]
              simp
            simpa using kindAt?_directory_of_append [] (List.cons_ne_nil _ _) hsome
      cases other with
      | nil => simp [kind_put_cons hself, hself]
      | cons first others =>
          obtain ⟨entries, rfl⟩ := kind_eq_directory.mp hself
          cases rest with
          | nil =>
              rw [put, kindAt?_cons, entries_dir, lookup_putMember, kindAt?_cons, entries_dir]
              by_cases hfirst : first = name
              · simp [hfirst]
              · simp [hfirst, Ne.symm hfirst]
          | cons next more =>
              rw [List.dropLast_cons_cons, kindAt?_cons, entries_dir] at hparent
              obtain ⟨child, hchild, hbelow⟩ := Option.bind_eq_some_iff.mp hparent
              rw [put_cons_cons, hchild]
              dsimp only
              rw [kindAt?_cons, entries_dir, lookup_putMember, kindAt?_cons, entries_dir]
              by_cases hfirst : first = name
              · subst hfirst
                rw [if_pos rfl, hchild, Option.bind_some, Option.bind_some,
                  ih fun _ => hbelow]
                simp
              · simp [hfirst, Ne.symm hfirst]

/-- Where no directory stands, a node with nothing below it replaces what stands there, and nothing
else changes. -/
theorem kindAt?_put_of_leaf {node : Node} {location : Location} {new : Node}
    (hparent : location ≠ [] → node.kindAt? location.dropLast = some .directory)
    (hold : node.kindAt? location ≠ some .directory)
    (hnew : ∀ name rest, new.kindAt? (name :: rest) = none) (other : Location) :
    (node.put location new).kindAt? other =
      if other = location then some new.kind else node.kindAt? other := by
  rw [kindAt?_put new hparent]
  by_cases hother : other = location
  · simp [hother]
  rw [if_neg hother]
  split
  · rename_i hprefix
    obtain ⟨back, rfl⟩ := hprefix
    have hback : back ≠ [] := fun hnil => hother (by simp [hnil])
    obtain ⟨name, rest, rfl⟩ := List.exists_cons_of_ne_nil hback
    rw [List.drop_left, hnew]
    -- what stood below the location would make it a directory
    by_contra hsome
    exact hold (kindAt?_directory_of_append location hback (Ne.symm hsome))
  · rfl

end Node

namespace Change

/-- Where a change puts a node. -/
def location : Change → Location
  | makeDirectory location => location
  | makeFile location => location
  | fill location _ => location

/-- The node that a change puts. -/
def node : Change → Node
  | makeDirectory _ => .empty
  | makeFile _ => .file ByteArray.empty
  | fill _ contents => .file contents

theorem kindAt?_node_cons (change : Change) (name : String) (rest : Location) :
    change.node.kindAt? (name :: rest) = none := by
  cases change with
  | makeDirectory location => exact Node.kindAt?_empty_cons name rest
  | makeFile location => exact Node.kindAt?_file_cons _ name rest
  | fill location contents => exact Node.kindAt?_file_cons _ name rest

end Change

namespace FileTree

/-- What stands at a location of a file tree. -/
def kindAt? (tree : FileTree) (location : Location) : Option Kind := tree.root.kindAt? location

theorem kindAt?_eq_map (tree : FileTree) (location : Location) :
    tree.kindAt? location = (tree.at? location).map Node.kind := rfl

theorem kindAt?_of_at? {tree : FileTree} {location : Location} {node : Node}
    (h : tree.at? location = some node) : tree.kindAt? location = some node.kind := by
  rw [kindAt?_eq_map, h, Option.map_some]

theorem kindAt?_child {tree : FileTree} {location : Location} {entries : List (String × Node)}
    (h : tree.at? location = some (.dir entries)) (name : String) :
    tree.kindAt? (location ++ [name]) = (entries.lookup name).map Node.kind := by
  have hnode : tree.root.at? location = some (.dir entries) := h
  rw [kindAt?, Node.kindAt?_append, hnode, Option.bind_some, Node.kindAt?_cons, Node.entries_dir]
  cases entries.lookup name <;> rfl

/-! ## What changes do -/

/-- The second tree is the first one with something put at a location in place of what was there. -/
structure Puts (before : FileTree) (location : Location) (kind : Kind) (after : FileTree) : Prop where
  current_eq : after.current = before.current
  kindAt?_eq : ∀ other, after.kindAt? other =
    if other = location then some kind else before.kindAt? other

/-- The second tree is the first one with directories put at those of some locations where nothing
was. -/
structure Grows (before : FileTree) (locations : List Location) (after : FileTree) : Prop where
  current_eq : after.current = before.current
  kindAt?_eq : ∀ other, after.kindAt? other =
    if before.kindAt? other = none ∧ other ∈ locations then some .directory
    else before.kindAt? other

variable {before middle after : FileTree}

theorem apply_eq (tree : FileTree) (change : Change) :
    tree.apply change = { tree with root := tree.root.put change.location change.node } := by
  cases change <;> rfl

theorem puts_apply {tree : FileTree} (change : Change)
    (hparent : change.location ≠ [] → tree.kindAt? change.location.dropLast = some .directory)
    (hold : tree.kindAt? change.location ≠ some .directory) :
    tree.Puts change.location change.node.kind (tree.apply change) := by
  rw [apply_eq]
  exact ⟨rfl, Node.kindAt?_put_of_leaf hparent hold change.kindAt?_node_cons⟩

namespace Puts

theorem kindAt?_self {location : Location} {kind : Kind} (h : before.Puts location kind after) :
    after.kindAt? location = some kind := by
  rw [h.kindAt?_eq, if_pos rfl]

theorem kindAt?_of_ne {location other : Location} {kind : Kind}
    (h : before.Puts location kind after) (hother : other ≠ location) :
    after.kindAt? other = before.kindAt? other := by
  rw [h.kindAt?_eq, if_neg hother]

/-- What is put last at a location counts. -/
theorem trans {location : Location} {first second : Kind} (hfirst : before.Puts location first middle)
    (hsecond : middle.Puts location second after) : before.Puts location second after := by
  refine ⟨hsecond.current_eq.trans hfirst.current_eq, fun other => ?_⟩
  rw [hsecond.kindAt?_eq, hfirst.kindAt?_eq]
  split <;> rfl

/-- A directory put where nothing was. -/
theorem grows {location : Location} (h : before.Puts location .directory after)
    (hfree : before.kindAt? location = none) : before.Grows [location] after := by
  refine ⟨h.current_eq, fun other => ?_⟩
  rw [h.kindAt?_eq]
  by_cases hother : other = location
  · simp [hother, hfree]
  · simp [hother]

end Puts

namespace Grows

theorem refl (tree : FileTree) : tree.Grows [] tree := ⟨rfl, fun other => by simp⟩

theorem trans {first second : List Location} (hfirst : before.Grows first middle)
    (hsecond : middle.Grows second after) : before.Grows (first ++ second) after := by
  refine ⟨hsecond.current_eq.trans hfirst.current_eq, fun other => ?_⟩
  rw [hsecond.kindAt?_eq, hfirst.kindAt?_eq]
  by_cases hfree : before.kindAt? other = none
  · by_cases hmem : other ∈ first
    · simp [hmem, hfree]
    · simp [hmem, hfree]
  · simp [hfree]

/-- What was there stays as it was. -/
theorem kindAt?_of_some {locations : List Location} (h : before.Grows locations after)
    {location : Location} {kind : Kind} (hkind : before.kindAt? location = some kind) :
    after.kindAt? location = some kind := by
  rw [h.kindAt?_eq, hkind]
  simp

end Grows

/-- A file that is made at a location. -/
theorem puts_makeFile {tree : FileTree} {location : Location}
    (hparent : location ≠ [] → tree.kindAt? location.dropLast = some .directory)
    (hold : tree.kindAt? location ≠ some .directory) :
    tree.Puts location (.file ByteArray.empty) (tree.applyAll [.makeFile location]) :=
  puts_apply (.makeFile location) hparent hold

/-- A file that is made and filled at a location. -/
theorem puts_file {tree : FileTree} {location : Location} (contents : ByteArray)
    (hparent : location ≠ [] → tree.kindAt? location.dropLast = some .directory)
    (hold : tree.kindAt? location ≠ some .directory) :
    tree.Puts location (.file contents)
      (tree.applyAll [.makeFile location, .fill location contents]) := by
  have hmade := puts_makeFile hparent hold
  refine hmade.trans (puts_apply (.fill location contents) ?_ ?_)
  · -- making the file leaves its parent as it was
    intro hne
    have hself : location.dropLast ≠ location := fun heq => hold (heq ▸ hparent hne)
    exact (hmade.kindAt?_of_ne hself).trans (hparent hne)
  · exact fun hdirectory => by simp [Change.location, hmade.kindAt?_self] at hdirectory

end FileTree

end RouteScaffold.Files
