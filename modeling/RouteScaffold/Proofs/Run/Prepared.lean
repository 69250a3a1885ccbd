import RouteScaffold.Proofs.Run.Again
import RouteScaffold.Proofs.Run.Kept
import RouteScaffold.Proofs.Run.Present
import RouteScaffold.Proofs.Run.Reaches
import RouteScaffold.Proofs.Run.Truthful

/-!
# After a route is prepared

Preparing a route makes its directory, and no call takes a directory away: whatever is called afterwards, also if
it is cut short, the directory is there (`covers_afterSteps`).  So a scaffold on the route is written or skipped
unless it is hindered (`Hinders`): its path is too long as a whole, the path of the directory is empty and the
current directory is not there, or a directory would have to be overwritten.

A run prepares a route before the scaffolds on it, so that it fails while emitting only for a path that leaves the
destination, for a directory that cannot be made, or for a scaffold that is hindered (`run_error_iff_failsAt`).
-/

namespace RouteScaffold.Run

open Document (Components Operation)
open Files (Fault FileTree endsInSlash join pathLimit)
open OpenApi (Method)
open Scaffold (Route Style fileName)
open String (utf8Len)

/-! ## Calls take nothing away -/

theorem Step.covers (step : Step) (files : FileTree) : files.Covers (step.after files) := by
  refine Step.of_along (Call.along ?_ ?_ files)
  · exact fun emitter _ => emitter.allows_covers
  · exact fun tree path written after => Emitter.covers_of_puts

theorem covers_afterSteps (steps : List Step) (files : FileTree) :
    files.Covers (afterSteps files steps) := by
  refine Chains.afterSteps ⟨FileTree.Covers.refl, FileTree.Covers.trans⟩ ?_ files
  exact fun step _ => step.covers

/-- A directory is opened when its path is empty or leads to a directory. -/
def Opened (files : FileTree) (directory : String) : Prop :=
  directory = "" ∨ ∃ found, files.spot directory = .ok (.there found true)

theorem Opened.of_covers {before after : FileTree} {directory : String} (h : Opened before directory)
    (hcovers : before.Covers after) : Opened after directory := by
  refine h.imp_right ?_
  rintro ⟨found, hfound⟩
  exact ⟨found, hcovers.spot_there hfound⟩

theorem opened_of_makeDirectories {directory : String} {workspace after : Workspace}
    (h : (Action.makeDirectories directory).runOn workspace = (.ok (), after)) :
    Opened after.files directory := by
  obtain ⟨hfault, hfiles⟩ := Action.fault_of_makeDirectories h
  by_cases hempty : directory = ""
  · exact .inl hempty
  · have hne : directory.toList ≠ [] := by simpa using hempty
    obtain ⟨found, hfound⟩ := FileTree.makeWithin_there hne hfault
    rw [String.ofList_toList] at hfound
    exact .inr ⟨found, hfiles ▸ hfound⟩

/-! ## What hinders a scaffold -/

/-- What keeps a scaffold from being written in a directory that was made. -/
inductive Hinders (policy : Policy) (directory file : String) (files : FileTree) : Fault → Prop
  | long (hsize : pathLimit ≤ file.utf8ByteSize) : Hinders policy directory file files .nameTooLong
  | missing (hempty : directory = "") (hcurrent : files.kindAt? files.current = none) :
      Hinders policy directory file files .notFound
  | file {contents : ByteArray} (hempty : directory = "")
      (hcurrent : files.kindAt? files.current = some (.file contents)) :
      Hinders policy directory file files .notDirectory
  | directory (hpolicy : policy = .overwrite) (hsize : file.utf8ByteSize < pathLimit)
      (hthere : files.kindAt? (files.locationOf file) = some .directory) :
      Hinders policy directory file files .isDirectory

section

variable {files : FileTree} {directory : String} {method : Method} {style : Style} {scaffold : Scaffold}
  {policy : Policy} {fault : Fault}

theorem nul_not_mem_of_opened (h : Opened files directory) : '\x00' ∉ directory.toList := by
  rcases h with rfl | ⟨found, hfound⟩
  · simp
  · have hnul := (FileTree.passes_of_spot hfound).nul_not_mem
    rwa [List.contains_eq_mem, decide_eq_false_iff_not] at hnul

theorem paved_of_opened (h : Opened files directory)
    (hsize : (join directory (fileName method style)).utf8ByteSize < pathLimit)
    (hcurrent : directory = "" → files.kindAt? files.current = some .directory) :
    files.Paved (join directory (fileName method style)) := by
  have hopen : ∃ found, files.spotFrom (files.startOf directory) (Files.steps directory) =
      .ok (.there found true) := by
    by_cases hempty : directory = ""
    · have hshape := FileTree.shapeAt?_eq_true.mpr (hcurrent hempty)
      refine ⟨files.current, ?_⟩
      rw [hempty, Files.steps_empty]
      show files.spotFrom files.current [] = _
      rw [FileTree.spotFrom_nil, hshape]
    · obtain ⟨found, hfound⟩ := h.resolve_left hempty
      exact ⟨found, (FileTree.spot_of_passes (FileTree.passes_of_spot hfound) files).symm.trans hfound⟩
  obtain ⟨found, hfound⟩ := hopen
  exact FileTree.paved_join (Scaffold.isName_fileName method style)
    (Scaffold.nul_not_mem_fileName style method) (Scaffold.fileName_short method style) hsize
    (nul_not_mem_of_opened h) hfound

theorem size_lt_of_empty : (join "" (fileName method style)).utf8ByteSize < pathLimit := by
  have hshort := Scaffold.fileName_short method style
  rw [show join "" (fileName method style) = fileName method style from String.ofList_toList]
  exact Nat.lt_of_le_of_lt hshort (by decide)

/-- In the empty path a module is looked for in the current directory. -/
theorem spot_of_empty (files : FileTree) :
    files.spot (join "" (fileName method style)) =
      files.onward (files.spotFrom files.current []) [fileName method style] :=
  FileTree.spot_join (Scaffold.isName_fileName method style) (Scaffold.nul_not_mem_fileName style method)
    (by simp) size_lt_of_empty files

theorem locationOf_of_empty (files : FileTree) :
    files.locationOf (join "" (fileName method style)) = files.current ++ [fileName method style] := by
  have hname := Scaffold.isName_fileName method style
  rw [FileTree.locationOf, FileTree.startOf_join hname, Files.steps_join hname]
  exact Files.followStep_name hname files.current

/-- What hinders a scaffold makes emitting it fail, and the fault tells it. -/
theorem emitEffect_of_hinders (h : Opened files directory)
    (hfile : scaffold.file = join directory (fileName method style))
    (hhinders : Hinders policy directory scaffold.file files fault) :
    Emitter.emitEffect policy scaffold files = ⟨.error (.unwritable scaffold.file fault), []⟩ := by
  cases hhinders with
  | long hsize =>
      have hnul := FileTree.nul_not_mem_join (nul_not_mem_of_opened h)
        (Scaffold.nul_not_mem_fileName style method)
      refine Emitter.emitEffect_of_spot_error policy ?_
      rw [hfile] at hsize ⊢
      rw [FileTree.spot_eq_ite, if_neg (by simpa using hnul),
        Files.isEmpty_join (Scaffold.isName_fileName method style), if_neg (by simp), if_pos hsize]
  | missing hempty hcurrent =>
      refine Emitter.emitEffect_of_spot_error policy ?_
      rw [hfile, hempty, spot_of_empty, FileTree.spotFrom_nil, FileTree.shapeAt?, hcurrent]
      rfl
  | file hempty hcurrent =>
      refine Emitter.emitEffect_of_spot_error policy ?_
      rw [hfile, hempty, spot_of_empty, FileTree.spotFrom_nil, FileTree.shapeAt?, hcurrent]
      rfl
  | directory hpolicy hsize hthere =>
      -- what is at the end of the path is in a directory
      have hcurrent : directory = "" → files.kindAt? files.current = some .directory := by
        rintro rfl
        have hlocation : files.locationOf (join "" (fileName method style)) =
            files.current ++ [fileName method style] := locationOf_of_empty files
        rw [hfile, hlocation] at hthere
        have hsome : files.kindAt? (files.current ++ [fileName method style]) ≠ none := by simp [hthere]
        have hparent := FileTree.kindAt?_dropLast hsome (List.concat_ne_nil _ _)
        rwa [List.dropLast_concat] at hparent
      have hpaved := paved_of_opened h (hfile ▸ hsize) hcurrent
      rw [hpolicy]
      exact Emitter.emitEffect_of_directory ⟨hfile ▸ hpaved, hthere, fun _ => rfl⟩

/-- What is not hindered is written, skipped or overwritten. -/
theorem emitEffect_of_not_hinders (h : Opened files directory)
    (hfile : scaffold.file = join directory (fileName method style))
    (hfree : ∀ fault, ¬ Hinders policy directory scaffold.file files fault) :
    ∃ outcome, (Emitter.emitEffect policy scaffold files).result = .ok outcome := by
  have hsize : scaffold.file.utf8ByteSize < pathLimit :=
    Nat.lt_of_not_le fun hlong => hfree _ (.long hlong)
  have hcurrent : directory = "" → files.kindAt? files.current = some .directory := by
    intro hempty
    cases hkind : files.kindAt? files.current with
    | none => exact absurd (.missing hempty hkind) (hfree _)
    | some kind =>
        cases kind with
        | directory => rfl
        | file contents => exact absurd (.file hempty hkind) (hfree _)
  have hslash : endsInSlash scaffold.file = false := by
    rw [hfile]
    exact Files.endsInSlash_join (Scaffold.isName_fileName method style) directory
  have hpaved : files.Paved scaffold.file := hfile ▸ paved_of_opened h (hfile ▸ hsize) hcurrent
  have hleads : files.Leads scaffold.file (files.kindAt? (files.locationOf scaffold.file)) :=
    ⟨hpaved, rfl, fun hends => by simp [hslash] at hends⟩
  -- the path leads to its place, and what is there decides with the policy
  cases hkind : files.kindAt? (files.locationOf scaffold.file) with
  | none =>
      rw [hkind] at hleads
      exact ⟨.written, by rw [Emitter.emitEffect_of_none policy hleads]⟩
  | some kind =>
      rw [hkind] at hleads
      cases policy with
      | skipExisting => exact ⟨.skipped, by rw [Emitter.emitEffect_of_some hleads]⟩
      | overwrite =>
          cases kind with
          | file old => exact ⟨.overwritten, by rw [Emitter.emitEffect_of_file hleads]⟩
          | directory => exact absurd (.directory rfl hsize hkind) (hfree _)

/-- In a directory that was made emitting a scaffold fails exactly when it is hindered. -/
theorem emitEffect_error_iff {failure : Failure} (h : Opened files directory)
    (hfile : scaffold.file = join directory (fileName method style)) :
    (Emitter.emitEffect policy scaffold files).result = .error failure ↔
      ∃ fault, Hinders policy directory scaffold.file files fault ∧
        failure = .unwritable scaffold.file fault := by
  constructor
  · intro hfailure
    by_cases hfree : ∀ fault, ¬ Hinders policy directory scaffold.file files fault
    · obtain ⟨outcome, houtcome⟩ := emitEffect_of_not_hinders h hfile hfree
      cases houtcome.symm.trans hfailure
    · obtain ⟨fault, hhinders⟩ := not_forall_not.mp hfree
      rw [emitEffect_of_hinders h hfile hhinders] at hfailure
      exact ⟨fault, hhinders, (Except.error.inj hfailure).symm⟩
  · rintro ⟨fault, hhinders, rfl⟩
    rw [emitEffect_of_hinders h hfile hhinders]

end

/-! ## Scaffolds on a prepared route -/

theorem opened_of_prepare {emitter : Emitter} {template : String} {route : Route}
    {start prepared : Workspace}
    (h : (emitter.prepare template).runOn start = (.ok route, prepared)) :
    Opened prepared.files route.directory :=
  opened_of_makeDirectories (Emitter.prepare_ok h).2

theorem result_emit (policy : Policy) (scaffold : Scaffold) (workspace : Workspace) :
    ((Emitter.emit policy scaffold).runOn workspace).1 =
      (Emitter.emitEffect policy scaffold workspace.files).result := by
  obtain ⟨log, hrun⟩ := Emitter.does_emit policy scaffold workspace.files workspace rfl
  rw [hrun]

theorem emit_of_hinders {route : Route} {policy : Policy} {method : Method} {style : Style}
    {found : Synthesis} {workspace : Workspace} {fault : Fault}
    (hopened : Opened workspace.files route.directory)
    (hhinders : Hinders policy route.directory (join route.directory (fileName method style))
      workspace.files fault) :
    ((Emitter.emit policy (route.scaffold method style found)).runOn workspace).1 =
      .error (.unwritable (join route.directory (fileName method style)) fault) := by
  have hfile : (route.scaffold method style found).file =
      join route.directory (fileName method style) := rfl
  rw [result_emit, emitEffect_of_hinders hopened hfile (hfile ▸ hhinders), hfile]

/-- A route is prepared by making its directory. -/
theorem runOn_prepare {emitter : Emitter} {template : String} {route : Route} (workspace : Workspace)
    (hroute : Route.of? emitter.destination template = some route)
    (hmade : (workspace.files.makeDirectories route.directory).fault = none) :
    (emitter.prepare template).runOn workspace =
      (.ok route, workspace.change (workspace.files.makeDirectories route.directory).changes) := by
  rw [Emitter.prepare, hroute]
  dsimp only
  rw [Action.runOn_bind, Action.runOn_makeDirectories, hmade]
  rfl

/-- Whatever is called after a route is prepared, emitting a scaffold on it fails exactly when it is hindered. -/
theorem emit_error_iff_of_prepared {emitter : Emitter} {template : String} {route : Route}
    {start prepared : Workspace}
    (h : (emitter.prepare template).runOn start = (.ok route, prepared)) (steps : List Step)
    (policy : Policy) (method : Method) (style : Style) (found : Synthesis) {workspace : Workspace}
    (hfiles : workspace.files = afterSteps prepared.files steps) {failure : Failure} :
    ((Emitter.emit policy (route.scaffold method style found)).runOn workspace).1 = .error failure ↔
      ∃ fault, Hinders policy route.directory (route.scaffold method style found).file
          workspace.files fault ∧
        failure = .unwritable (route.scaffold method style found).file fault := by
  have hopened : Opened workspace.files route.directory := by
    rw [hfiles]
    exact (opened_of_prepare h).of_covers (covers_afterSteps steps prepared.files)
  rw [result_emit]
  exact emitEffect_error_iff hopened rfl

/-! ## Jobs that fail -/

namespace Emitter

variable {emitter : Emitter} {components : Components} {files tree : FileTree} {job : Job}
  {failure : Failure}

/-- How a job fails: its path would leave the destination, its directory cannot be made, or its scaffold is
hindered. -/
inductive FailsAt (emitter : Emitter) (files : FileTree) : Job → Failure → Prop
  | escape {job : Job} {template : String} (hjob : job.template? = some template)
      (hroute : Route.of? emitter.destination template = none) :
      FailsAt emitter files job (.escapingPath (RouteScaffold.Route.mapTemplate template))
  | directory {job : Job} {path : String} {fault : Fault} (hmade : emitter.made? job = some path)
      (hfault : (files.makeDirectories path).fault = some fault) :
      FailsAt emitter files job (.unwritable path fault)
  | scaffold {template : String} {route : Route} {method : Method} {operation : Operation} {fault : Fault}
      (hroute : Route.of? emitter.destination template = some route)
      (hhinders : Hinders emitter.policy route.directory
        (join route.directory (fileName method emitter.style)) files fault) :
      FailsAt emitter files (.scaffold template method operation)
        (.unwritable (join route.directory (fileName method emitter.style)) fault)

theorem FailsAt.stage_eq (h : emitter.FailsAt files job failure) : failure.stage = .emitting := by
  cases h <;> rfl

theorem performEffect_made_error_iff {path : String} (hmade : emitter.made? job = some path) :
    (emitter.performEffect components files job).result = .error failure ↔
      ∃ fault, (files.makeDirectories path).fault = some fault ∧ failure = .unwritable path fault := by
  rw [performEffect_of_made hmade, Effect.map, Action.makeDirectoriesEffect]
  cases (files.makeDirectories path).fault with
  | none => simp [Except.map]
  | some fault => simp [Except.map, eq_comm]

theorem performEffect_scaffold_error_iff {template : String} {route : Route} {method : Method}
    {operation : Operation} (hroute : Route.of? emitter.destination template = some route)
    (hopened : Opened files route.directory) :
    (emitter.performEffect components files (.scaffold template method operation)).result =
        .error failure ↔
      ∃ fault, Hinders emitter.policy route.directory
          (join route.directory (fileName method emitter.style)) files fault ∧
        failure = .unwritable (join route.directory (fileName method emitter.style)) fault := by
  have hfile : (emitter.scaffoldOf components route method operation).file =
      join route.directory (fileName method emitter.style) := rfl
  rw [performEffect_of_route hroute, Effect.map, map_eq_error, ← hfile]
  exact emitEffect_error_iff hopened hfile

/-- A job that fails does so in one of these ways, if the directory of its route was made before its scaffold. -/
theorem performEffect_error_iff
    (hopened : ∀ template method operation route, job = .scaffold template method operation →
      Route.of? emitter.destination template = some route → Opened files route.directory) :
    (emitter.performEffect components files job).result = .error failure ↔
      emitter.FailsAt files job failure := by
  have hescape : ∀ template, job.template? = some template →
      Route.of? emitter.destination template = none →
        (emitter.performEffect components files job).result = .error failure →
          emitter.FailsAt files job failure := by
    intro template hjob hroute hfailure
    rw [performEffect_of_escape hjob hroute] at hfailure
    exact Except.error.inj hfailure ▸ .escape hjob hroute
  have hmakes : ∀ path, emitter.made? job = some path →
      (emitter.performEffect components files job).result = .error failure →
        emitter.FailsAt files job failure := by
    intro path hmade hfailure
    obtain ⟨fault, hfault, rfl⟩ := (performEffect_made_error_iff hmade).mp hfailure
    exact .directory hmade hfault
  constructor
  · cases job with
    | destination => exact hmakes _ rfl
    | route template =>
        cases hroute : Route.of? emitter.destination template with
        | none => exact hescape template rfl hroute
        | some route => exact hmakes route.directory (by rw [made?, hroute]; rfl)
    | scaffold template method operation =>
        cases hroute : Route.of? emitter.destination template with
        | none => exact hescape template rfl hroute
        | some route =>
            intro hfailure
            have hopen := hopened template method operation route rfl hroute
            obtain ⟨fault, hhinders, rfl⟩ := (performEffect_scaffold_error_iff hroute hopen).mp hfailure
            exact .scaffold hroute hhinders
  · intro hfails
    cases hfails with
    | escape hjob hroute => rw [performEffect_of_escape hjob hroute]
    | directory hmade hfault => exact (performEffect_made_error_iff hmade).mpr ⟨_, hfault, rfl⟩
    | scaffold hroute hhinders =>
        exact (performEffect_scaffold_error_iff hroute (hopened _ _ _ _ rfl hroute)).mpr
          ⟨_, hhinders, rfl⟩

theorem Reaches.opened_of_documentJobs {document : Document} {done rest : List Job} {front : List Entry}
    {template : String} {method : Method} {operation : Operation} {route : Route}
    (hjobs : documentJobs document = done ++ .scaffold template method operation :: rest)
    (h : emitter.Reaches components files done front tree)
    (hroute : Route.of? emitter.destination template = some route) : Opened tree route.directory := by
  have hmade : emitter.made? (.route template) = some route.directory := by
    rw [made?, hroute]
    rfl
  by_cases hempty : route.directory = ""
  · exact .inl hempty
  · exact .inr (h.spot_of_made (route_mem_of_documentJobs hjobs) hmade hempty)

end Emitter

/-! ## Runs that fail while emitting -/

/-- A run fails while emitting exactly when one of its jobs fails on the tree that those before it reach. -/
theorem run_error_iff_failsAt {settings : Settings} {files : FileTree} {failure : Failure} :
    ((run settings files).result = .error failure ∧ failure.stage = .emitting) ↔
      ∃ document done job rest front middle, settings.document files = .ok document ∧
        documentJobs document = done ++ job :: rest ∧
          settings.emitter.Reaches document.components files done front middle ∧
            settings.emitter.FailsAt middle job failure := by
  -- a scaffold comes after its route, which made the directory
  have hopened : ∀ {document done job rest front middle}, documentJobs document = done ++ job :: rest →
      settings.emitter.Reaches document.components files done front middle →
        ∀ template method operation route, job = .scaffold template method operation →
          Route.of? settings.emitter.destination template = some route →
            Opened middle route.directory := by
    rintro document done _ rest front middle hjobs hreaches template method operation route rfl hroute
    exact hreaches.opened_of_documentJobs hjobs hroute
  constructor
  · rintro ⟨h, hstage⟩
    cases hdocument : settings.document files with
    | error fault =>
        rw [(run_eq_effect settings files).1, runEffect, hdocument] at h
        cases h
        exact absurd hstage (stage_of_document hdocument)
    | ok document =>
        rw [(run_of_document hdocument).1, map_eq_error] at h
        rcases settings.emitter.reaches_or_fails document.components files (documentJobs document) with
          ⟨entries, tree, hreaches⟩ |
            ⟨done, job, rest, front, middle, fault, hjobs, hreaches, hjob, hresult, -⟩
        · cases hreaches.result_eq.symm.trans h
        · -- the first job that fails is the one the run fails with
          cases hresult.symm.trans h
          exact ⟨document, done, job, rest, front, middle, rfl, hjobs, hreaches,
            (Emitter.performEffect_error_iff (hopened hjobs hreaches)).mp hjob⟩
  · rintro ⟨document, done, job, rest, front, middle, hdocument, hjobs, hreaches, hfails⟩
    have hjob : (settings.emitter.performEffect document.components middle job).result = .error failure :=
      (Emitter.performEffect_error_iff (hopened hjobs hreaches)).mpr hfails
    refine ⟨?_, hfails.stage_eq⟩
    rw [(run_of_document hdocument).1, map_eq_error, hjobs, Emitter.performAllEffect_append hreaches,
      Emitter.performAllEffect_cons_error rest hjob]
    rfl

/-- After a route is prepared emitting a scaffold on it fails exactly when it is hindered.  So a run fails while
emitting exactly when a path leaves the destination, a directory cannot be made, or a scaffold is hindered. -/
theorem only_hindered_fails :
    (∀ (emitter : Emitter) (template : String) (route : Route) (start prepared : Workspace),
      (emitter.prepare template).runOn start = (.ok route, prepared) →
        ∀ (steps : List Step) (policy : Policy) (method : Method) (style : Style) (found : Synthesis)
          (workspace : Workspace) (failure : Failure),
          workspace.files = afterSteps prepared.files steps →
            (((Emitter.emit policy (route.scaffold method style found)).runOn workspace).1 =
                .error failure ↔
              ∃ fault, Hinders policy route.directory (route.scaffold method style found).file
                  workspace.files fault ∧
                failure = .unwritable (route.scaffold method style found).file fault)) ∧
      ∀ (settings : Settings) (files : FileTree) (failure : Failure),
        ((run settings files).result = .error failure ∧ failure.stage = .emitting) ↔
          ∃ document done job rest front middle, settings.document files = .ok document ∧
            documentJobs document = done ++ job :: rest ∧
              settings.emitter.Reaches document.components files done front middle ∧
                settings.emitter.FailsAt middle job failure := by
  constructor
  · intro emitter template route start prepared h steps policy method style found workspace failure hfiles
    exact emit_error_iff_of_prepared h steps policy method style found hfiles
  · intro settings files failure
    exact run_error_iff_failsAt

/-- With force a directory in the place of the first module makes the jobs fail. -/
theorem performAllEffect_taken (contents : ByteArray) (rest : List Job) :
    ((twinPolicy .overwrite).emitter.performAllEffect {} (takenTree contents)
      (.destination :: .route "/a" :: .scaffold "/a" .get {} :: rest)).result =
        .error (.unwritable "out/a/get.ts" .isDirectory) := by
  have hout : (takenTree contents).makeDirectories "out" = ⟨[], none⟩ :=
    FileTree.makeDirectories_of_isDirectory rfl rfl
  have hmade : (takenTree contents).makeDirectories "out/a" = ⟨[], none⟩ :=
    FileTree.makeDirectories_of_isDirectory rfl rfl
  have hdestination : (twinPolicy .overwrite).emitter.performEffect {} (takenTree contents) .destination =
      ⟨.ok [], []⟩ := by
    rw [Emitter.performEffect_of_made rfl, Action.makeDirectoriesEffect,
      show (twinPolicy .overwrite).emitter.destination = "out" from rfl, hout]
    rfl
  have hemit : ∀ scaffold : Scaffold, scaffold.file = "out/a/get.ts" →
      Emitter.emitEffect .overwrite scaffold (takenTree contents) =
        ⟨.error (.unwritable scaffold.file .isDirectory), []⟩ := by
    intro scaffold hfile
    have hleads : (takenTree contents).Leads scaffold.file (some .directory) := by
      rw [hfile]
      exact ⟨FileTree.exists_spot_iff_paved.mp ⟨_, rfl⟩, rfl, fun _ => rfl⟩
    exact Emitter.emitEffect_of_directory hleads
  have hscaffold : ((twinPolicy .overwrite).emitter.performEffect {} (takenTree contents)
      (.scaffold "/a" .get {})).result = .error (.unwritable "out/a/get.ts" .isDirectory) := by
    have hroute : Route.of? (twinPolicy .overwrite).emitter.destination "/a" = some (twinRoute "/a") :=
      route_twin (.inl rfl)
    have hfile : ((twinPolicy .overwrite).emitter.scaffoldOf {} (twinRoute "/a") .get {}).file =
        "out/a/get.ts" := twinRoute_file rfl {} "/a" {}
    rw [Emitter.performEffect_of_route hroute, Effect.map, map_eq_error, ← hfile]
    exact congrArg Effect.result (hemit _ hfile)
  have hsame : (takenTree contents).applyAll [] = takenTree contents := rfl
  rw [Emitter.performAllEffect_cons_of_eq _ hdestination hsame,
    Emitter.performAllEffect_cons_of_eq _ (performEffect_twin_route _ (.inl rfl) hmade) hsame,
    Emitter.performAllEffect_cons_error _ hscaffold]
  rfl

theorem run_taken_forced :
    (run (twinPolicy .overwrite) takenFiles).result = .error (.unwritable "out/a/get.ts" .isDirectory) := by
  have hdocument : (twinPolicy .overwrite).document takenFiles = .ok twinDocument := document_takenFiles
  rw [(run_of_document hdocument).1, map_eq_error]
  exact performAllEffect_taken twinSource.toUTF8 _

/-- A tree with a directory. -/
def outFiles : FileTree := { root := .dir [("out", .dir [])] }

/-- The calls after which a scaffold is emitted: another one of the route, cut short, and a run with force. -/
def laterSteps : List Step :=
  [⟨.emit twinSettings.emitter (twinScaffold "/a"), some 1⟩, ⟨.run (twinPolicy .overwrite), none⟩]

/-- After a route is prepared a scaffold is not refused, and a run fails for a directory in the place of a
module. -/
theorem only_hindered_fails_taken :
    (∃ prepared, (twinSettings.emitter.prepare "/a").runOn { files := outFiles } =
        (.ok (twinRoute "/a"), prepared) ∧
      ∀ found failure, ((Emitter.emit .skipExisting ((twinRoute "/a").scaffold .put .staticExport found)).runOn
        { files := afterSteps prepared.files laterSteps }).1 ≠ .error failure) ∧
      (run (twinPolicy .overwrite) takenFiles).result =
          .error (.unwritable "out/a/get.ts" .isDirectory) ∧
        ∃ document done job rest front middle,
          (twinPolicy .overwrite).document takenFiles = .ok document ∧
            documentJobs document = done ++ job :: rest ∧
              (twinPolicy .overwrite).emitter.Reaches document.components takenFiles done front middle ∧
                (twinPolicy .overwrite).emitter.FailsAt middle job
                  (.unwritable "out/a/get.ts" .isDirectory) := by
  obtain ⟨hprepared, hrun⟩ := only_hindered_fails
  have hmade : outFiles.makeDirectories "out/a" = ⟨[.makeDirectory ["out", "a"]], none⟩ :=
    FileTree.makeDirectories_of_makeDirectory (by decide) rfl
  have hroute : Route.of? twinSettings.emitter.destination "/a" = some (twinRoute "/a") :=
    route_twin (.inl rfl)
  have hfault : (outFiles.makeDirectories (twinRoute "/a").directory).fault = none :=
    congrArg FileTree.Made.fault hmade
  have hprepare := runOn_prepare { files := outFiles } hroute hfault
  have hfile : ∀ found, ((twinRoute "/a").scaffold .put .staticExport found).file = "out/a/put.ts" := by
    intro found
    show join "out/a" (fileName .put .staticExport) = _
    cbv
  refine ⟨⟨_, hprepare, fun found failure hfailure => ?_⟩, run_taken_forced,
    (hrun _ _ _).mp ⟨run_taken_forced, rfl⟩⟩
  have hiff := hprepared _ _ _ _ _ hprepare laterSteps .skipExisting .put .staticExport found
    { files := afterSteps _ laterSteps } failure rfl
  obtain ⟨fault, hhinders, -⟩ := hiff.mp hfailure
  cases hhinders with
  | long hsize =>
      rw [hfile] at hsize
      exact absurd hsize (by decide)
  | missing hempty => exact absurd hempty (by decide)
  | file hempty => exact absurd hempty (by decide)
  | directory hpolicy => cases hpolicy

/-! ## A path that is too long for its modules only -/

/-- A directory with slashes behind its name. -/
def slashed (count : Nat) : String := String.ofList ("out".toList ++ List.replicate count '/')

theorem toList_slashed (count : Nat) : (slashed count).toList = "out".toList ++ List.replicate count '/' :=
  String.toList_ofList

theorem utf8Len_slashed (count : Nat) : utf8Len (slashed count).toList = 3 + count := by
  have hslash : ('/' : Char).utf8Size = 1 := by decide
  have hout : utf8Len "out".toList = 3 := by decide
  rw [toList_slashed, String.utf8Len_append, hout]
  congr 1
  induction count with
  | zero => rfl
  | succ count ih => rw [List.replicate_succ, String.utf8Len_cons, ih, hslash]

theorem steps_slashed (count : Nat) : Files.steps (slashed count) = ["out"] := by
  induction count with
  | zero => rfl
  | succ count ih =>
      rw [slashed, List.replicate_succ', ← List.append_assoc, Files.steps_append_slash]
      exact (List.append_nil _).trans ih

theorem clear_slashed {count : Nat} (hsize : 3 + count < pathLimit) :
    ({} : FileTree).Clear (slashed count) := by
  have hstart : ({} : FileTree).startOf (slashed count) = [] := by
    rw [FileTree.startOf]
    split <;> rfl
  refine ⟨⟨?_, ?_, ?_⟩, ?_, ?_, ?_, ?_⟩
  · rw [toList_slashed, List.contains_eq_mem, decide_eq_false_iff_not]
    simp
  · rw [String.isEmpty_eq_false_iff, Ne, ← String.toList_eq_nil_iff, toList_slashed]
    simp
  · rw [← String.ofList_toList (s := slashed count), String.utf8ByteSize_ofList, utf8Len_slashed]
    exact hsize
  · right
    rw [String.ofList_toList, steps_slashed]
    decide
  · rw [steps_slashed]
    decide
  · rw [hstart]
    rfl
  · rw [FileTree.wayTo, hstart, steps_slashed]
    intro location hlocation
    rw [List.mem_singleton.mp hlocation]
    decide

/-- A directory that can be made, of a path without room for a name behind it. -/
def slashedEmitter : Emitter := ⟨slashed 4089, .staticExport, .skipExisting⟩

/-- The directory of a route is made, and no module can be written in it. -/
theorem not_written_slashed :
    ∃ route prepared, (slashedEmitter.prepare "/").runOn { files := {} } = (.ok route, prepared) ∧
      ∀ found, ((Emitter.emit .skipExisting (route.scaffold .options .staticExport found)).runOn prepared).1 =
        .error (.unwritable (route.scaffold .options .staticExport found).file .nameTooLong) := by
  have hmapped : RouteScaffold.Route.mapTemplate "/" = "/" := by cbv
  have hnames : RouteScaffold.Route.segments "/" = [] := by cbv
  have hroute : Route.of? slashedEmitter.destination "/" = some ⟨"/", "/", slashed 4089⟩ := by
    rw [Scaffold.Route.of?_eq, hmapped, hnames, Files.below_nil]
    rfl
  have hroom : 3 + 4089 < pathLimit := by decide
  have hprepare := runOn_prepare { files := {} } hroute (clear_slashed hroom).makes
  refine ⟨_, _, hprepare, fun found => ?_⟩
  have hlong : ∀ files : FileTree, Hinders .skipExisting (slashed 4089)
      (join (slashed 4089) (fileName .options .staticExport)) files .nameTooLong := by
    intro files
    have hname : utf8Len (fileName .options .staticExport).toList = 10 := by decide
    have hsize := Files.le_utf8Len_push (slashed 4089).toList (fileName .options .staticExport).toList
    rw [utf8Len_slashed, hname] at hsize
    refine .long ?_
    rw [join, String.utf8ByteSize_ofList]
    exact Nat.le_trans (by decide) hsize
  exact emit_of_hinders (opened_of_prepare hprepare) (hlong _)

end RouteScaffold.Run
