import RouteScaffold.Proofs.Files.Calls
import RouteScaffold.Run.Emit

/-!
# What actions do to the files

An action is run from a workspace and leaves one.  The equations of the basic actions are collected
first.  From them follows what the two actions that touch files do to the view of the tree:
directories are made (`opens_of_makeDirectories`, `grows_of_makeDirectories`), and a scaffold is
emitted (`emit_ends`).
-/

namespace RouteScaffold.Run

open Files (FileTree Location)

@[simp] theorem Workspace.files_change (workspace : Workspace) (changes : List Files.Change) :
    (workspace.change changes).files = workspace.files.applyAll changes := rfl

@[simp] theorem Workspace.files_record (workspace : Workspace) (event : Event) :
    (workspace.record event).files = workspace.files := rfl

namespace Action

variable {α β : Type} {workspace after : Workspace}

/-- How an action ends and the workspace it leaves. -/
def runOn (action : Action α) (workspace : Workspace) : Except Failure α × Workspace :=
  action.run workspace

@[simp] theorem runOn_pure (value : α) (workspace : Workspace) :
    (pure value : Action α).runOn workspace = (.ok value, workspace) := rfl

@[simp] theorem runOn_fail (failure : Failure) (workspace : Workspace) :
    (fail failure : Action α).runOn workspace = (.error failure, workspace) := rfl

@[simp] theorem runOn_files (workspace : Workspace) :
    files.runOn workspace = (.ok workspace.files, workspace) := rfl

@[simp] theorem runOn_logEvent (event : Event) (workspace : Workspace) :
    (logEvent event).runOn workspace = (.ok (), workspace.record event) := rfl

@[simp] theorem runOn_makeChanges (changes : List Files.Change) (workspace : Workspace) :
    (makeChanges changes).runOn workspace = (.ok (), workspace.change changes) := rfl

theorem runOn_bind (action : Action α) (next : α → Action β) (workspace : Workspace) :
    (action >>= next).runOn workspace =
      match action.runOn workspace with
      | (.ok value, middle) => (next value).runOn middle
      | (.error failure, middle) => (.error failure, middle) := by
  show (ExceptT.bindCont next (action.runOn workspace).1 : StateM Workspace _)
    (action.runOn workspace).2 = _
  rcases action.runOn workspace with ⟨failure | value, middle⟩ <;> rfl

/-- Two actions that succeed one after the other. -/
theorem runOn_bind_ok {action : Action α} {next : α → Action β} {result : β} :
    (action >>= next).runOn workspace = (.ok result, after) ↔
      ∃ value middle, action.runOn workspace = (.ok value, middle) ∧
        (next value).runOn middle = (.ok result, after) := by
  rw [runOn_bind]
  rcases action.runOn workspace with ⟨failure | value, middle⟩ <;> simp

/-- Two actions of which the first or the second one fails. -/
theorem runOn_bind_error {action : Action α} {next : α → Action β} {failure : Failure} :
    (action >>= next).runOn workspace = (.error failure, after) ↔
      action.runOn workspace = (.error failure, after) ∨
        ∃ value middle, action.runOn workspace = (.ok value, middle) ∧
          (next value).runOn middle = (.error failure, after) := by
  rw [runOn_bind]
  rcases action.runOn workspace with ⟨failure | value, middle⟩ <;> simp

theorem runOn_makeDirectories (path : String) (workspace : Workspace) :
    (makeDirectories path).runOn workspace =
      (match (workspace.files.makeDirectories path).fault with
        | none => .ok ()
        | some fault => .error (.unwritable path fault),
        workspace.change (workspace.files.makeDirectories path).changes) := by
  rw [makeDirectories, runOn_bind, runOn_files]
  dsimp only
  rw [runOn_bind, runOn_makeChanges]
  dsimp only
  cases (workspace.files.makeDirectories path).fault <;> rfl

theorem fault_of_makeDirectories {path : String}
    (h : (makeDirectories path).runOn workspace = (.ok (), after)) :
    (workspace.files.makeDirectories path).fault = none ∧
      after.files = workspace.files.applyAll (workspace.files.makeDirectories path).changes := by
  rw [runOn_makeDirectories] at h
  obtain ⟨hresult, rfl⟩ := Prod.mk.inj h
  refine ⟨?_, rfl⟩
  cases hfault : (workspace.files.makeDirectories path).fault with
  | none => rfl
  | some fault => simp [hfault] at hresult

theorem opens_of_makeDirectories {path : String}
    (h : (makeDirectories path).runOn workspace = (.ok (), after)) :
    workspace.files.Opens path after.files := by
  obtain ⟨hfault, hfiles⟩ := fault_of_makeDirectories h
  rw [hfiles]
  exact FileTree.makeDirectories_ok hfault

theorem grows_of_makeDirectories {path : String} {result : Except Failure Unit}
    (h : (makeDirectories path).runOn workspace = (result, after)) :
    ∃ created, created ⊆ workspace.files.wayTo path ∧
      workspace.files.Grows created after.files := by
  rw [runOn_makeDirectories] at h
  obtain ⟨-, rfl⟩ := Prod.mk.inj h
  exact FileTree.makeDirectories_grows workspace.files path _ List.prefix_rfl

theorem unwritable_of_makeDirectories {path : String} {failure : Failure}
    (h : (makeDirectories path).runOn workspace = (.error failure, after)) :
    ∃ fault, failure = .unwritable path fault := by
  rw [runOn_makeDirectories] at h
  obtain ⟨hresult, -⟩ := Prod.mk.inj h
  cases hfault : (workspace.files.makeDirectories path).fault with
  | none => simp [hfault] at hresult
  | some fault =>
      rw [hfault] at hresult
      exact ⟨fault, (Except.error.inj hresult).symm⟩

end Action

/-! ## Emitting a scaffold -/

/-- What emitting a scaffold does to a tree: the scaffold is skipped where something is in its place,
written where nothing is, or written in place of a file. -/
inductive Emits (policy : Policy) (scaffold : Scaffold) (before : FileTree) :
    Outcome → FileTree → Prop
  | skipped (hpolicy : policy = .skipExisting) (hthere : before.exists? scaffold.file = true) :
      Emits policy scaffold before .skipped before
  | written {after : FileTree} (hfree : before.kindAt? (before.locationOf scaffold.file) = none)
      (hputs : before.Puts (before.locationOf scaffold.file) (.file scaffold.text.toUTF8) after) :
      Emits policy scaffold before .written after
  | overwritten {old : ByteArray} {after : FileTree} (hpolicy : policy = .overwrite)
      (hold : before.kindAt? (before.locationOf scaffold.file) = some (.file old))
      (hputs : before.Puts (before.locationOf scaffold.file) (.file scaffold.text.toUTF8) after) :
      Emits policy scaffold before .overwritten after

theorem Emits.current_eq {policy : Policy} {scaffold : Scaffold} {before after : FileTree}
    {outcome : Outcome} (h : Emits policy scaffold before outcome after) :
    after.current = before.current := by
  cases h with
  | skipped hpolicy hthere => rfl
  | written hfree hputs => exact hputs.current_eq
  | overwritten hpolicy hold hputs => exact hputs.current_eq

/-- A scaffold never takes the place of a directory. -/
theorem Emits.kindAt?_directory {policy : Policy} {scaffold : Scaffold} {before after : FileTree}
    {outcome : Outcome} (h : Emits policy scaffold before outcome after) {location : Location}
    (hdirectory : before.kindAt? location = some .directory) :
    after.kindAt? location = some .directory := by
  cases h with
  | skipped hpolicy hthere => exact hdirectory
  | written hfree hputs =>
      rw [hputs.kindAt?_of_ne, hdirectory]
      rintro rfl
      simp [hfree] at hdirectory
  | overwritten hpolicy hold hputs =>
      rw [hputs.kindAt?_of_ne, hdirectory]
      rintro rfl
      simp [hold] at hdirectory

/-- Where nothing is a scaffold is written. -/
theorem Emits.eq_written {policy : Policy} {scaffold : Scaffold} {before after : FileTree}
    {outcome : Outcome} (h : Emits policy scaffold before outcome after)
    (hfree : before.kindAt? (before.locationOf scaffold.file) = none) : outcome = .written := by
  cases h with
  | skipped hpolicy hthere => exact absurd hfree (FileTree.kindAt?_ne_none_of_exists? hthere)
  | written hvacant hputs => rfl
  | overwritten hpolicy hold hputs => simp [hfree] at hold

/-- How emitting a scaffold ends: it does what its outcome says, or its file cannot be written and the
files are left as they are. -/
inductive Ends (policy : Policy) (scaffold : Scaffold) (before : FileTree) :
    Except Failure Outcome → FileTree → Prop
  | done {outcome : Outcome} {after : FileTree} (h : Emits policy scaffold before outcome after) :
      Ends policy scaffold before (.ok outcome) after
  | failed (fault : Files.Fault) :
      Ends policy scaffold before (.error (.unwritable scaffold.file fault)) before

theorem Ends.emits {policy : Policy} {scaffold : Scaffold} {before after : FileTree}
    {outcome : Outcome} (h : Ends policy scaffold before (.ok outcome) after) :
    Emits policy scaffold before outcome after := by
  cases h with
  | done hemits => exact hemits

theorem Ends.unwritable {policy : Policy} {scaffold : Scaffold} {before after : FileTree}
    {failure : Failure} (h : Ends policy scaffold before (.error failure) after) :
    after = before ∧ ∃ fault, failure = .unwritable scaffold.file fault := by
  cases h with
  | failed fault => exact ⟨rfl, fault, rfl⟩

namespace Emitter

open Run.Action

variable {policy : Policy} {scaffold : Scaffold} {workspace after : Workspace}
  {result : Except Failure Outcome}

theorem writeNew_ends (h : (writeNew scaffold).runOn workspace = (result, after))
    (hfree : workspace.files.exists? scaffold.file = false) :
    Ends .skipExisting scaffold workspace.files result after.files := by
  rw [writeNew, runOn_bind, runOn_files] at h
  dsimp only at h
  split at h
  · rename_i hwrite
    rw [runOn_bind, runOn_makeChanges] at h
    obtain ⟨rfl, rfl⟩ := Prod.mk.inj h
    obtain ⟨hvacant, hwrites⟩ := FileTree.writeNew_ok hwrite
    exact .done (.written hvacant hwrites.wholly)
  · -- a name that is taken would have been found before
    rename_i hwrite
    rw [FileTree.exists?_of_writeNew hwrite] at hfree
    cases hfree
  · obtain ⟨rfl, rfl⟩ := Prod.mk.inj h
    exact .failed _

theorem overwrite_ends
    (h : (overwrite scaffold (workspace.files.exists? scaffold.file)).runOn workspace =
      (result, after)) :
    Ends .overwrite scaffold workspace.files result after.files := by
  rw [overwrite, runOn_bind, runOn_files] at h
  dsimp only at h
  split at h
  · rename_i hwrite
    rw [runOn_bind, runOn_makeChanges] at h
    obtain ⟨rfl, rfl⟩ := Prod.mk.inj h
    obtain ⟨⟨hthere, hvacant⟩ | ⟨hthere, old, hold⟩, hwrites⟩ := FileTree.write_ok hwrite
    · rw [hthere]
      exact .done (.written hvacant hwrites.wholly)
    · rw [hthere]
      exact .done (.overwritten rfl hold hwrites.wholly)
  · obtain ⟨rfl, rfl⟩ := Prod.mk.inj h
    exact .failed _

/-- An event that is logged after a success changes nothing of how emitting ends. -/
theorem ends_of_logged {call : Action Outcome}
    (hcall : ∀ {found middle}, call.runOn workspace = (found, middle) →
      Ends policy scaffold workspace.files found middle.files)
    (h : (do
      let outcome ← call
      logEvent (.emitted scaffold.file outcome)
      return outcome : Action Outcome).runOn workspace = (result, after)) :
    Ends policy scaffold workspace.files result after.files := by
  rw [runOn_bind] at h
  rcases hfound : call.runOn workspace with ⟨failure | outcome, middle⟩
  · rw [hfound] at h
    obtain ⟨rfl, rfl⟩ := Prod.mk.inj h
    exact hcall hfound
  · have hends := hcall hfound
    rw [hfound] at h
    obtain ⟨rfl, rfl⟩ := Prod.mk.inj h
    exact hends

theorem emit_ends (h : (emit policy scaffold).runOn workspace = (result, after)) :
    Ends policy scaffold workspace.files result after.files := by
  rw [emit, runOn_bind, runOn_files] at h
  dsimp only at h
  split at h
  · rename_i hskip
    simp only [Bool.and_eq_true, decide_eq_true_eq] at hskip
    obtain ⟨rfl, rfl⟩ := Prod.mk.inj h
    exact .done (.skipped hskip.2 hskip.1)
  · rename_i hskip
    simp only [Bool.and_eq_true, decide_eq_true_eq, not_and] at hskip
    cases policy with
    | skipExisting =>
        have hfree : workspace.files.exists? scaffold.file = false := by
          rw [← Bool.not_eq_true]
          exact fun hthere => hskip hthere rfl
        exact ends_of_logged (fun hcall => writeNew_ends hcall hfree) h
    | overwrite => exact ends_of_logged overwrite_ends h

end Emitter

end RouteScaffold.Run
