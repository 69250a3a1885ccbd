import RouteScaffold.Run.Basic

/-!
# Workspaces

The part of a run that reads and writes works on a workspace: the file tree as it is, the changes
made to it so far, and the events logged so far.  An action goes on with the workspace it leaves,
also when it fails.
-/

namespace RouteScaffold.Run

open Files (Change FileTree)

/-- What actions work on. -/
structure Workspace where
  files : FileTree
  /-- The changes made so far, the first one first. -/
  changes : List Change := []
  /-- The events logged so far, the first one first. -/
  log : List Event := []

namespace Workspace

/-- A workspace after some changes. -/
def change (workspace : Workspace) (changes : List Change) : Workspace :=
  { workspace with
    files := workspace.files.applyAll changes
    changes := workspace.changes ++ changes }

/-- A workspace with an event logged. -/
def record (workspace : Workspace) (event : Event) : Workspace :=
  { workspace with log := workspace.log ++ [event] }

end Workspace

/-- A step of a run. -/
abbrev Action := ExceptT Failure (StateM Workspace)

namespace Action

/-- Fails. -/
def fail {α : Type} (failure : Failure) : Action α := throw failure

/-- The file tree as it is. -/
def files : Action FileTree := return (← get).files

/-- Logs an event. -/
def logEvent (event : Event) : Action Unit := modify (·.record event)

/-- Makes some changes. -/
def makeChanges (changes : List Change) : Action Unit := modify (·.change changes)

/-- Makes a directory and those of its parents that are missing. -/
def makeDirectories (path : String) : Action Unit := do
  let made := (← files).makeDirectories path
  makeChanges made.changes
  match made.fault with
  | none => return ()
  | some fault => fail (.unwritable path fault)

end Action

end RouteScaffold.Run
