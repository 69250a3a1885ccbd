import RouteScaffold.Proofs.Route.Descent
import RouteScaffold.Proofs.Run.Action
import RouteScaffold.Proofs.Run.Report

/-!
# The plan of a run

The two loops of a run are one loop over a flat list of jobs: the destination is made, then for each
path its route is prepared and its operations are emitted one by one (`emitDocument_eq`).

When a run succeeds all jobs are done one after another, each from the tree that the one before left
(`doneAll_of_performAll`).  When it fails some of the first jobs are done and the next one stops, which
leaves at most some of the directories it was about to make (`stops_of_performAll`).  A job stops because
a directory or a file cannot be written, or because the route of its path would leave the destination.
-/

namespace RouteScaffold.Run

open Document (Components Operation PathItem)
open Files (FileTree Location)
open OpenApi (Method)
open Scaffold (Route)

/-- What a run does in one go. -/
inductive Job where
  /-- Making the destination. -/
  | destination
  /-- Preparing the route of a template. -/
  | route (template : String)
  /-- Emitting the scaffold of an operation. -/
  | scaffold (template : String) (method : Method) (operation : Operation)

/-- The template of the path that a job is about. -/
def Job.template? : Job → Option String
  | .destination => none
  | .route template => some template
  | .scaffold template _ _ => some template

/-- The jobs for a path: its route, and the operations on it. -/
def pathJobs (path : String × PathItem) : List Job :=
  .route path.1 :: path.2.operations.map fun (method, operation) => .scaffold path.1 method operation

/-- The jobs for a document in their order. -/
def documentJobs (document : Document) : List Job :=
  .destination :: document.paths.flatMap pathJobs

namespace Emitter

variable (emitter : Emitter) (components : Components)

/-- The scaffold of an operation on a route. -/
def scaffoldOf (route : Route) (method : Method) (operation : Operation) : Scaffold :=
  route.scaffold method emitter.style (Synthesis.synthesize components operation)

/-- What is reported for an operation on a route: its scaffold and its gaps. -/
def entryOf (route : Route) (method : Method) (operation : Operation) (outcome : Outcome) : Entry where
  scaffold := emitter.scaffoldOf components route method operation
  outcome := outcome
  notes := (Synthesis.synthesize components operation).gaps.map fun gap =>
    ⟨method, route.template, gap⟩

/-- Does a job and reports what it emits. -/
def perform : Job → Action (List Entry)
  | .destination => do
    emitter.makeDestination
    return []
  | .route template => do
    let _ ← emitter.prepare template
    return []
  | .scaffold template method operation =>
    match Route.of? emitter.destination template with
    | none => Action.fail (.escapingPath (RouteScaffold.Route.mapTemplate template))
    | some route => return [← emitter.emitOperation components route method operation]

/-- Does some jobs one after another. -/
def performAll : List Job → Action (List Entry)
  | [] => return []
  | job :: rest => do
    let entries ← emitter.perform components job
    return entries ++ (← performAll rest)

/-! ## The loops are the plan -/

theorem performAll_append (first second : List Job) :
    emitter.performAll components (first ++ second) = (do
      let entries ← emitter.performAll components first
      return entries ++ (← emitter.performAll components second)) := by
  induction first with
  | nil => simp [performAll]
  | cons job rest ih => simp [performAll, ih, ← List.append_assoc]

/-- The loop over the operations of a route records the entries of their jobs. -/
theorem emitOperations_eq {template : String} {route : Route}
    (hroute : Route.of? emitter.destination template = some route) (report : Report)
    (operations : List (Method × Operation)) :
    emitter.emitOperations components route report operations = (do
      let entries ← emitter.performAll components
        (operations.map fun (method, operation) => .scaffold template method operation)
      return entries.foldl Report.record report) := by
  induction operations generalizing report with
  | nil => rfl
  | cons first rest ih => simp [emitOperations, performAll, perform, hroute, ih]

theorem emitPaths_eq (report : Report) (paths : List (String × PathItem)) :
    emitter.emitPaths components report paths = (do
      let entries ← emitter.performAll components (paths.flatMap pathJobs)
      return entries.foldl Report.record report) := by
  induction paths generalizing report with
  | nil => rfl
  | cons first rest ih =>
      obtain ⟨template, item⟩ := first
      rw [List.flatMap_cons, performAll_append, emitPaths, pathJobs, performAll, perform, prepare]
      -- the loop finds the route once for a path, the plan again for each operation
      cases hroute : Route.of? emitter.destination template with
      | none => rfl
      | some route => simp [emitOperations_eq emitter components hroute, ih]

theorem emitDocument_eq (document : Document) :
    emitter.emitDocument document = (do
      return .ofEntries (← emitter.performAll document.components (documentJobs document))) := by
  simp [emitDocument, documentJobs, performAll, perform, emitPaths_eq, Report.ofEntries]

/-! ## What jobs do -/

/-- What a job that is done does to a tree, and the entries it reports. -/
inductive Done : Job → FileTree → List Entry → FileTree → Prop
  | destination {before after : FileTree} (hopens : before.Opens emitter.destination after) :
      Done .destination before [] after
  | route {before after : FileTree} {template : String} {route : Route}
      (hroute : Route.of? emitter.destination template = some route)
      (hopens : before.Opens route.directory after) :
      Done (.route template) before [] after
  | scaffold {before after : FileTree} {template : String} {method : Method}
      {operation : Operation} {route : Route} {outcome : Outcome}
      (hroute : Route.of? emitter.destination template = some route)
      (hemits : Emits emitter.policy (emitter.scaffoldOf components route method operation) before
        outcome after) :
      Done (.scaffold template method operation) before
        [emitter.entryOf components route method operation outcome] after

/-- How a job fails and what it does to a tree: some of the directories it was about to make are
there. -/
inductive Stops : Job → FileTree → Failure → FileTree → Prop
  | destination {before after : FileTree} {created : List Location} {fault : Files.Fault}
      (hcreated : created ⊆ before.wayTo emitter.destination) (hgrows : before.Grows created after) :
      Stops .destination before (.unwritable emitter.destination fault) after
  | route {before after : FileTree} {template : String} {route : Route} {created : List Location}
      {fault : Files.Fault} (hroute : Route.of? emitter.destination template = some route)
      (hcreated : created ⊆ before.wayTo route.directory) (hgrows : before.Grows created after) :
      Stops (.route template) before (.unwritable route.directory fault) after
  | scaffold {before : FileTree} {template : String} {method : Method} {operation : Operation}
      {route : Route} {fault : Files.Fault}
      (hroute : Route.of? emitter.destination template = some route) :
      Stops (.scaffold template method operation) before
        (.unwritable (emitter.scaffoldOf components route method operation).file fault) before
  | escape {before : FileTree} {job : Job} {template : String} (hjob : job.template? = some template)
      (hroute : Route.of? emitter.destination template = none) :
      Stops job before (.escapingPath (RouteScaffold.Route.mapTemplate template)) before

/-- Some jobs done one after another, with all entries they report. -/
inductive DoneAll : List Job → FileTree → List Entry → FileTree → Prop
  | nil (tree : FileTree) : DoneAll [] tree [] tree
  | cons {job : Job} {rest : List Job} {before middle after : FileTree} {entries more : List Entry}
      (hjob : emitter.Done components job before entries middle)
      (hrest : DoneAll rest middle more after) : DoneAll (job :: rest) before (entries ++ more) after

variable {emitter components} {workspace after : Workspace}

open Run.Action

/-- Making the destination makes its directories, after an event where it is missing. -/
theorem runOn_makeDestination (workspace : Workspace) :
    ∃ started, started.files = workspace.files ∧
      emitter.makeDestination.runOn workspace =
        (Action.makeDirectories emitter.destination).runOn started := by
  rw [makeDestination, runOn_bind, runOn_files]
  dsimp only
  split
  · exact ⟨_, Workspace.files_record workspace (.creatingDestination emitter.destination), rfl⟩
  · exact ⟨workspace, rfl, rfl⟩

theorem prepare_ok {template : String} {route : Route}
    (h : (emitter.prepare template).runOn workspace = (.ok route, after)) :
    Route.of? emitter.destination template = some route ∧
      (Action.makeDirectories route.directory).runOn workspace = (.ok (), after) := by
  rw [prepare] at h
  split at h
  · cases h
  · rename_i hroute
    obtain ⟨_, _, hmade, hrest⟩ := runOn_bind_ok.mp h
    cases hrest
    exact ⟨hroute, hmade⟩

theorem prepare_error {template : String} {failure : Failure}
    (h : (emitter.prepare template).runOn workspace = (.error failure, after)) :
    Route.of? emitter.destination template = none ∧
        failure = .escapingPath (RouteScaffold.Route.mapTemplate template) ∧ after = workspace ∨
      ∃ route, Route.of? emitter.destination template = some route ∧
        (Action.makeDirectories route.directory).runOn workspace = (.error failure, after) := by
  rw [prepare] at h
  split at h
  · rename_i hroute
    cases h
    exact .inl ⟨hroute, rfl, rfl⟩
  · rename_i route hroute
    rcases runOn_bind_error.mp h with hmade | ⟨_, _, _, hrest⟩
    · exact .inr ⟨route, hroute, hmade⟩
    · cases hrest

/-- Events that are logged one after another. -/
theorem runOn_forM_logEvent {α : Type} (event : α → Event) (values : List α) (workspace : Workspace) :
    Action.runOn (values.forM fun value => logEvent (event value)) workspace =
      (.ok (), { workspace with log := workspace.log ++ values.map event }) := by
  induction values generalizing workspace with
  | nil =>
      rw [List.map_nil, List.append_nil]
      rfl
  | cons value rest ih =>
      show (logEvent (event value) >>= fun _ =>
        rest.forM fun value => logEvent (event value)).runOn workspace = _
      rw [runOn_bind, runOn_logEvent]
      dsimp only
      rw [ih, List.map_cons]
      simp [Workspace.record]

/-- Emitting an operation emits its scaffold and reports its outcome with the gaps of the operation. -/
theorem emitOperation_ends {route : Route} {method : Method} {operation : Operation}
    {result : Except Failure Entry}
    (h : (emitter.emitOperation components route method operation).runOn workspace =
      (result, after)) :
    ∃ found, Ends emitter.policy (emitter.scaffoldOf components route method operation)
        workspace.files found after.files ∧
      result = found.map (emitter.entryOf components route method operation) := by
  rw [emitOperation, runOn_bind, runOn_logEvent] at h
  dsimp only at h
  rw [runOn_bind, runOn_forM_logEvent] at h
  dsimp only at h
  rw [runOn_bind] at h
  split at h
  · rename_i hemit
    have hends := emit_ends hemit
    cases h
    exact ⟨_, hends, rfl⟩
  · rename_i hemit
    have hends := emit_ends hemit
    cases h
    exact ⟨_, hends, rfl⟩

theorem done_of_perform {job : Job} {entries : List Entry}
    (h : (emitter.perform components job).runOn workspace = (.ok entries, after)) :
    emitter.Done components job workspace.files entries after.files := by
  cases job with
  | destination =>
      obtain ⟨_, _, hmade, hrest⟩ := runOn_bind_ok.mp h
      cases hrest
      obtain ⟨started, hfiles, hrun⟩ := emitter.runOn_makeDestination workspace
      rw [hrun] at hmade
      rw [← hfiles]
      exact .destination (opens_of_makeDirectories hmade)
  | route template =>
      obtain ⟨route, _, hprepare, hrest⟩ := runOn_bind_ok.mp h
      cases hrest
      obtain ⟨hroute, hmade⟩ := prepare_ok hprepare
      exact .route hroute (opens_of_makeDirectories hmade)
  | scaffold template method operation =>
      rw [perform] at h
      split at h
      · cases h
      · rename_i route hroute
        obtain ⟨entry, _, hemit, hrest⟩ := runOn_bind_ok.mp h
        cases hrest
        obtain ⟨found, hends, hentry⟩ := emitOperation_ends hemit
        cases found with
        | ok outcome =>
            cases hentry
            exact .scaffold hroute hends.emits
        | error failure => cases hentry

theorem stops_of_perform {job : Job} {failure : Failure}
    (h : (emitter.perform components job).runOn workspace = (.error failure, after)) :
    emitter.Stops components job workspace.files failure after.files := by
  cases job with
  | destination =>
      -- after the directory is made nothing is left that may fail
      rcases runOn_bind_error.mp h with hmade | ⟨_, _, _, hrest⟩
      · obtain ⟨started, hfiles, hrun⟩ := emitter.runOn_makeDestination workspace
        rw [hrun] at hmade
        obtain ⟨created, hcreated, hgrows⟩ := grows_of_makeDirectories hmade
        obtain ⟨fault, rfl⟩ := unwritable_of_makeDirectories hmade
        rw [hfiles] at hcreated hgrows
        exact .destination hcreated hgrows
      · cases hrest
  | route template =>
      rcases runOn_bind_error.mp h with hprepare | ⟨_, _, _, hrest⟩
      · rcases prepare_error hprepare with ⟨hroute, rfl, rfl⟩ | ⟨route, hroute, hmade⟩
        · exact .escape rfl hroute
        · obtain ⟨created, hcreated, hgrows⟩ := grows_of_makeDirectories hmade
          obtain ⟨fault, rfl⟩ := unwritable_of_makeDirectories hmade
          exact .route hroute hcreated hgrows
      · cases hrest
  | scaffold template method operation =>
      rw [perform] at h
      split at h
      · rename_i hroute
        cases h
        exact .escape rfl hroute
      · rename_i route hroute
        rcases runOn_bind_error.mp h with hemit | ⟨_, _, _, hrest⟩
        · obtain ⟨found, hends, hentry⟩ := emitOperation_ends hemit
          cases found with
          | ok outcome => cases hentry
          | error other =>
              obtain ⟨hfiles, fault, rfl⟩ := hends.unwritable
              cases hentry
              rw [hfiles]
              exact .scaffold hroute
        · cases hrest

/-- When all jobs succeed they are done one after another. -/
theorem doneAll_of_performAll {jobs : List Job} {entries : List Entry}
    (h : (emitter.performAll components jobs).runOn workspace = (.ok entries, after)) :
    emitter.DoneAll components jobs workspace.files entries after.files := by
  induction jobs generalizing workspace entries with
  | nil =>
      cases h
      exact .nil _
  | cons job rest ih =>
      obtain ⟨first, middle, hjob, hrest⟩ := runOn_bind_ok.mp h
      obtain ⟨more, _, hmore, hreturn⟩ := runOn_bind_ok.mp hrest
      cases hreturn
      exact .cons (done_of_perform hjob) (ih hmore)

/-- When one of some jobs fails those before it succeed. -/
theorem exists_job_of_performAll {jobs : List Job} {failure : Failure}
    (h : (emitter.performAll components jobs).runOn workspace = (.error failure, after)) :
    ∃ done job rest entries middle, jobs = done ++ job :: rest ∧
      (emitter.performAll components done).runOn workspace = (.ok entries, middle) ∧
      (emitter.perform components job).runOn middle = (.error failure, after) := by
  induction jobs generalizing workspace with
  | nil => cases h
  | cons job rest ih =>
      rcases runOn_bind_error.mp h with hjob | ⟨first, reached, hjob, hrest⟩
      · exact ⟨[], job, rest, [], workspace, rfl, rfl, hjob⟩
      · rcases runOn_bind_error.mp hrest with hrest | ⟨_, _, _, hreturn⟩
        · obtain ⟨done, stopped, left, entries, middle, rfl, hdone, hstopped⟩ := ih hrest
          refine ⟨job :: done, stopped, left, first ++ entries, middle, rfl, ?_, hstopped⟩
          exact runOn_bind_ok.mpr ⟨first, reached, hjob, runOn_bind_ok.mpr ⟨entries, middle, hdone, rfl⟩⟩
        · cases hreturn

/-- When a job fails those before it are done and it stops. -/
theorem stops_of_performAll {jobs : List Job} {failure : Failure}
    (h : (emitter.performAll components jobs).runOn workspace = (.error failure, after)) :
    ∃ done job rest entries middle, jobs = done ++ job :: rest ∧
      emitter.DoneAll components done workspace.files entries middle ∧
      emitter.Stops components job middle failure after.files := by
  obtain ⟨done, job, rest, entries, middle, hjobs, hdone, hjob⟩ := exists_job_of_performAll h
  exact ⟨done, job, rest, entries, middle.files, hjobs, doneAll_of_performAll hdone,
    stops_of_perform hjob⟩

end Emitter

end RouteScaffold.Run
