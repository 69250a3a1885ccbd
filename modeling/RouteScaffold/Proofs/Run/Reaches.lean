import RouteScaffold.Proofs.Files.Clear
import RouteScaffold.Proofs.Run.Escaping
import RouteScaffold.Proofs.Run.Footprint

/-!
# Trees on the way through jobs

`Emitter.Reaches` says which tree some jobs reach from some files when all of them succeed.  Jobs that
succeed can be cut anywhere (`Reaches.split`), and jobs succeed when each of them does on the tree that those
before it reach (`exists_reaches`).

Before a job for a path of a document, the destination was made; before a scaffold, so was the directory of
its route (`destination_mem_of_documentJobs`, `route_mem_of_documentJobs`).  So all that is on their ways is there.
-/

namespace RouteScaffold.Run

open Document (Components Operation)
open Files (FileTree IsName Location below)
open OpenApi (Method)
open Scaffold (Route)

namespace Emitter

variable {emitter : Emitter} {components : Components} {files tree : FileTree}

/-! ## Jobs one after another -/

/-- Some jobs succeed one after another, report some entries and leave a tree. -/
structure Reaches (emitter : Emitter) (components : Components) (files : FileTree) (jobs : List Job)
    (entries : List Entry) (tree : FileTree) : Prop where
  result_eq : (emitter.performAllEffect components files jobs).result = .ok entries
  after_eq : (emitter.performAllEffect components files jobs).after files = tree

theorem reaches_nil (files : FileTree) : emitter.Reaches components files [] [] files := ⟨rfl, rfl⟩

/-- The effect of jobs behind others that succeed. -/
theorem performAllEffect_append {first : List Job} {front : List Entry}
    (h : emitter.Reaches components files first front tree) (second : List Job) :
    emitter.performAllEffect components files (first ++ second) =
      ((emitter.performAllEffect components tree second).map (front ++ ·)).behind
        (emitter.performAllEffect components files first).changes := by
  induction first generalizing files front with
  | nil =>
      obtain ⟨hresult, rfl⟩ := h
      cases hresult
      show emitter.performAllEffect components files second =
        Effect.behind [] (Effect.map id (emitter.performAllEffect components files second))
      rcases emitter.performAllEffect components files second with ⟨failure | entries, changes⟩ <;> rfl
  | cons job rest ih =>
      obtain ⟨hresult, hafter⟩ := h
      rw [List.cons_append]
      rcases hjob : emitter.performEffect components files job with ⟨failure | own, changes⟩
      · rw [performAllEffect, hjob] at hresult
        cases hresult
      · rw [performAllEffect_cons_of_eq rest hjob rfl] at hresult hafter ⊢
        rw [performAllEffect_cons_of_eq (rest ++ second) hjob rfl]
        obtain ⟨more, hmore, rfl⟩ := map_eq_ok hresult
        rw [Effect.after_behind] at hafter
        have hrest : emitter.Reaches components (files.applyAll changes) rest more tree :=
          ⟨hmore, hafter⟩
        rw [ih hrest, Effect.map_behind, Effect.behind_behind, Effect.map_map]
        simp only [List.append_assoc]
        rfl

/-- When one of the first jobs fails the others are not begun. -/
theorem performAllEffect_append_error {first : List Job} {failure : Failure}
    (h : (emitter.performAllEffect components files first).result = .error failure)
    (second : List Job) :
    emitter.performAllEffect components files (first ++ second) =
      emitter.performAllEffect components files first := by
  induction first generalizing files with
  | nil => cases h
  | cons job rest ih =>
      rw [List.cons_append]
      cases hjob : (emitter.performEffect components files job).result with
      | error fault =>
          rw [performAllEffect_cons_error _ hjob, performAllEffect_cons_error _ hjob]
      | ok own =>
          rw [performAllEffect_cons_ok _ hjob] at h ⊢
          rw [performAllEffect_cons_ok _ hjob]
          have hrest : (emitter.performAllEffect components
              ((emitter.performEffect components files job).after files) rest).result =
                .error failure := by
            cases hmore : (emitter.performAllEffect components
              ((emitter.performEffect components files job).after files) rest).result with
            | error fault =>
                rw [Effect.behind, Effect.map, hmore] at h
                cases h
                rfl
            | ok more =>
                rw [Effect.behind, Effect.map, hmore] at h
                cases h
          rw [ih hrest]

namespace Reaches

variable {jobs done rest : List Job} {job : Job} {entries front : List Entry}

theorem doneAll (h : emitter.Reaches components files jobs entries tree) :
    emitter.DoneAll components jobs files entries tree := by
  obtain ⟨log, hrun⟩ := emitter.does_performAll components jobs files { files } rfl
  rw [h.result_eq, h.after_eq] at hrun
  exact doneAll_of_performAll hrun

theorem covers (h : emitter.Reaches components files jobs entries tree) : files.Covers tree :=
  h.after_eq ▸ covers_performAllEffect jobs files

theorem settled (h : emitter.Reaches components files jobs entries tree) :
    Settled emitter.policy files (jobs.flatMap (emitter.jobWay files)) (entries.map (·.scaffold))
      tree :=
  h.doneAll.settled_start

theorem concat (h : emitter.Reaches components files done front tree) {own : List Entry}
    (hjob : (emitter.performEffect components tree job).result = .ok own) :
    emitter.Reaches components files (done ++ [job]) (front ++ own)
      ((emitter.performEffect components tree job).after tree) := by
  have hlast : emitter.performAllEffect components tree [job] =
      emitter.performEffect components tree job := by
    rw [performAllEffect_cons_ok [] hjob]
    rcases hown : emitter.performEffect components tree job with ⟨failure | value, changes⟩
    · rw [hown] at hjob
      cases hjob
    · rw [hown] at hjob
      cases hjob
      show Effect.mk (.ok (own ++ [])) (changes ++ []) = _
      rw [List.append_nil, List.append_nil]
  constructor
  · rw [performAllEffect_append h, hlast]
    show (Except.map (front ++ ·) (emitter.performEffect components tree job).result) = _
    rw [hjob]
    rfl
  · rw [performAllEffect_append h, hlast, Effect.after_behind, ← h.after_eq]
    rfl

/-- Jobs that succeed can be cut anywhere. -/
theorem cut {first second : List Job}
    (h : emitter.Reaches components files (first ++ second) entries tree) :
    ∃ front middle back, emitter.Reaches components files first front middle ∧
      emitter.Reaches components middle second back tree ∧ entries = front ++ back := by
  obtain ⟨hresult, hafter⟩ := h
  cases hfront : (emitter.performAllEffect components files first).result with
  | error failure =>
      rw [performAllEffect_append_error hfront, hfront] at hresult
      cases hresult
  | ok front =>
      have hfirst : emitter.Reaches components files first front _ := ⟨hfront, rfl⟩
      rw [performAllEffect_append hfirst] at hresult hafter
      obtain ⟨back, hback, rfl⟩ := map_eq_ok hresult
      rw [Effect.after_behind] at hafter
      exact ⟨front, _, back, hfirst, ⟨hback, hafter⟩, rfl⟩

/-- Jobs that succeed can be cut around each of them. -/
theorem split (h : emitter.Reaches components files (done ++ job :: rest) entries tree) :
    ∃ front middle own back, emitter.Reaches components files done front middle ∧
      (emitter.performEffect components middle job).result = .ok own ∧
        emitter.Reaches components ((emitter.performEffect components middle job).after middle) rest
          back tree ∧ entries = front ++ (own ++ back) := by
  obtain ⟨front, middle, more, hdone, hmore, rfl⟩ := h.cut
  obtain ⟨hresult, hafter⟩ := hmore
  cases hjob : (emitter.performEffect components middle job).result with
  | error failure =>
      rw [performAllEffect_cons_error rest hjob] at hresult
      cases hresult
  | ok own =>
      rw [performAllEffect_cons_ok rest hjob] at hresult hafter
      obtain ⟨back, hback, rfl⟩ := map_eq_ok hresult
      rw [Effect.after_behind] at hafter
      exact ⟨front, middle, own, back, hdone, hjob, ⟨hback, hafter⟩, rfl⟩

end Reaches

/-- Jobs succeed, or one of them fails after those before it, and all end as it does. -/
theorem reaches_or_fails (emitter : Emitter) (components : Components) (files : FileTree)
    (jobs : List Job) :
    (∃ entries tree, emitter.Reaches components files jobs entries tree) ∨
      ∃ done job rest front middle failure, jobs = done ++ job :: rest ∧
        emitter.Reaches components files done front middle ∧
          (emitter.performEffect components middle job).result = .error failure ∧
            (emitter.performAllEffect components files jobs).result = .error failure ∧
              (emitter.performAllEffect components files jobs).after files =
                (emitter.performEffect components middle job).after middle := by
  induction jobs using List.reverseRecOn with
  | nil => exact .inl ⟨[], files, reaches_nil files⟩
  | append_singleton jobs last ih =>
      rcases ih with ⟨entries, tree, hjobs⟩ |
        ⟨done, job, rest, front, middle, failure, rfl, hdone, hjob, hresult, hafter⟩
      · cases hlast : (emitter.performEffect components tree last).result with
        | ok own => exact .inl ⟨_, _, hjobs.concat hlast⟩
        | error failure =>
            refine .inr ⟨jobs, last, [], entries, tree, failure, rfl, hjobs, hlast, ?_⟩
            rw [performAllEffect_append hjobs, performAllEffect_cons_error [] hlast]
            refine ⟨rfl, ?_⟩
            rw [Effect.after_behind, ← hjobs.after_eq]
            rfl
      · refine .inr ⟨done, job, rest ++ [last], front, middle, failure, by simp, hdone, hjob, ?_⟩
        rw [performAllEffect_append_error hresult]
        exact ⟨hresult, hafter⟩

/-- Jobs succeed when each of them does after those before it. -/
theorem exists_reaches {jobs : List Job}
    (h : ∀ done job rest front middle, jobs = done ++ job :: rest →
      emitter.Reaches components files done front middle →
        ∃ own, (emitter.performEffect components middle job).result = .ok own) :
    ∃ entries tree, emitter.Reaches components files jobs entries tree := by
  refine (emitter.reaches_or_fails components files jobs).resolve_right ?_
  rintro ⟨done, job, rest, front, middle, failure, hjobs, hdone, hjob, -⟩
  obtain ⟨own, hown⟩ := h done job rest front middle hjobs hdone
  cases hjob.symm.trans hown

/-- What is told of the entries of each job is told of the entries of all jobs. -/
theorem Reaches.map_entries {β : Type} {told : Entry → β}
    {expected : String × Method × Operation → β} {jobs : List Job} {entries : List Entry}
    (h : emitter.Reaches components files jobs entries tree)
    (hjob : ∀ done job rest front middle own, jobs = done ++ job :: rest →
      emitter.Reaches components files done front middle →
        (emitter.performEffect components middle job).result = .ok own →
          own.map told = job.operations.map expected) :
    entries.map told = (jobs.flatMap Job.operations).map expected := by
  induction jobs using List.reverseRecOn generalizing entries tree with
  | nil =>
      obtain ⟨hresult, -⟩ := h
      cases hresult
      rfl
  | append_singleton jobs last ih =>
      obtain ⟨front, middle, own, back, hfront, hown, hback, rfl⟩ := h.split
      obtain ⟨hresult, -⟩ := hback
      cases hresult
      have hjobs := ih hfront fun done job rest front middle own hcut =>
        hjob done job (rest ++ [last]) front middle own (by simp [hcut])
      rw [List.append_nil, List.map_append, List.flatMap_append, List.map_append, hjobs,
        hjob jobs last [] front middle own rfl hfront hown, List.flatMap_singleton]

/-! ## Directories that were made -/

/-- The directory that a job makes. -/
def made? (emitter : Emitter) : Job → Option String
  | .destination => some emitter.destination
  | .route template => (Route.of? emitter.destination template).map (·.directory)
  | .scaffold .. => none

theorem jobWay_of_made {job : Job} {path : String} (h : emitter.made? job = some path)
    (files : FileTree) : emitter.jobWay files job = files.wayTo path := by
  cases job with
  | destination =>
      cases h
      rfl
  | route template =>
      obtain ⟨route, hroute, rfl⟩ := Option.map_eq_some_iff.mp h
      rw [jobWay, hroute]
  | scaffold template method operation => cases h

theorem performEffect_of_made {job : Job} {path : String} (h : emitter.made? job = some path)
    (files : FileTree) : emitter.performEffect components files job =
      (Action.makeDirectoriesEffect path files).map fun _ => [] := by
  cases job with
  | destination =>
      cases h
      rfl
  | route template =>
      obtain ⟨route, hroute, rfl⟩ := Option.map_eq_some_iff.mp h
      rw [performEffect, hroute]
  | scaffold template method operation => cases h

/-- A job for a path that would leave the destination fails. -/
theorem performEffect_of_escape {job : Job} {template : String} (hjob : job.template? = some template)
    (hroute : Route.of? emitter.destination template = none) (files : FileTree) :
    emitter.performEffect components files job =
      ⟨.error (.escapingPath (RouteScaffold.Route.mapTemplate template)), []⟩ := by
  cases job with
  | destination => cases hjob
  | route other =>
      cases hjob
      rw [performEffect, hroute]
  | scaffold other method operation =>
      cases hjob
      rw [performEffect, hroute]

/-- A scaffold is emitted on its route. -/
theorem performEffect_of_route {template : String} {method : Method} {operation : Operation}
    {route : Route} (hroute : Route.of? emitter.destination template = some route)
    (files : FileTree) :
    emitter.performEffect components files (.scaffold template method operation) =
      (emitEffect emitter.policy (emitter.scaffoldOf components route method operation) files).map
        fun outcome => [emitter.entryOf components route method operation outcome] := by
  rw [performEffect, hroute]

theorem fault_of_made {job : Job} {path : String} {own : List Entry}
    (h : emitter.made? job = some path)
    (hjob : (emitter.performEffect components files job).result = .ok own) :
    (files.makeDirectories path).fault = none := by
  rw [performEffect_of_made h] at hjob
  cases hfault : (files.makeDirectories path).fault with
  | none => rfl
  | some fault =>
      rw [Effect.map, Action.makeDirectoriesEffect, hfault] at hjob
      cases hjob

theorem ok_of_made {job : Job} {path : String} (h : emitter.made? job = some path)
    (hfault : (files.makeDirectories path).fault = none) :
    (emitter.performEffect components files job).result = .ok [] := by
  rw [performEffect_of_made h, Effect.map, Action.makeDirectoriesEffect, hfault]
  rfl

namespace Reaches

variable {jobs : List Job} {job : Job} {path : String} {entries : List Entry}
  (h : emitter.Reaches components files jobs entries tree)

include h

/-- A directory that was made is there. -/
theorem spot_of_made (hjob : job ∈ jobs) (hpath : emitter.made? job = some path) (hne : path ≠ "") :
    ∃ found, tree.spot path = .ok (.there found true) := by
  obtain ⟨done, rest, rfl⟩ := List.append_of_mem hjob
  obtain ⟨front, middle, own, back, -, hown, hback, -⟩ := h.split
  have hlist : path.toList ≠ [] := by simpa using hne
  obtain ⟨found, hfound⟩ := FileTree.makeWithin_there hlist (fault_of_made hpath hown)
  rw [String.ofList_toList] at hfound
  refine ⟨found, hback.covers.spot_there ?_⟩
  rw [performEffect_of_made hpath]
  exact hfound

/-- Nothing is left to be made of a directory that was made. -/
theorem makeDirectories_of_made (hjob : job ∈ jobs) (hpath : emitter.made? job = some path) :
    tree.makeDirectories path = {} := by
  obtain ⟨done, rest, rfl⟩ := List.append_of_mem hjob
  obtain ⟨front, middle, own, back, -, hown, hback, -⟩ := h.split
  refine FileTree.makeDirectories_again (fault_of_made hpath hown) ?_
  have hcovers := hback.covers
  rwa [performEffect_of_made hpath] at hcovers

/-- All that the path of a directory looks at that was made are directories. -/
theorem shapeAt?_visits (hjob : job ∈ jobs) (hpath : emitter.made? job = some path) (hne : path ≠ "")
    {location : Location} (hvisited : location ∈ files.visits path) :
    tree.shapeAt? location = some true := by
  rcases List.mem_cons.mp hvisited with rfl | hway
  · obtain ⟨found, hfound⟩ := h.spot_of_made hjob hpath hne
    rw [← FileTree.startOf_congr h.covers.current_eq]
    exact FileTree.shapeAt?_startOf_of_spot hfound
  · rw [FileTree.shapeAt?_eq_true]
    refine h.settled.way location (List.mem_flatMap.mpr ⟨job, hjob, ?_⟩)
    rwa [jobWay_of_made hpath]

/-- Where none of the modules goes there is what was there, or a directory on the way. -/
theorem kindAt?_of_no_module {location : Location}
    (hnone : ∀ operation ∈ jobs.flatMap Job.operations,
      files.locationOf emitter.destination ++ emitter.moduleNames operation ≠ location) :
    tree.kindAt? location = (files.kindAt? location).or
      (if location ∈ jobs.flatMap (emitter.jobWay files) then some .directory else none) := by
  have hempty : scaffoldsAt files (entries.map (·.scaffold)) location = [] := by
    refine List.filter_eq_nil_iff.mpr fun scaffold hmem => ?_
    obtain ⟨entry, hentry, rfl⟩ := List.mem_map.mp hmem
    obtain ⟨operation, hoperation, hscaffold⟩ := h.doneAll.exists_operation hentry
    rw [decide_eq_true_eq, locationOf_of_scaffold? hscaffold]
    exact hnone operation hoperation
  rw [h.settled.kindAt?_eq, hempty, Policy.settle_nil]

end Reaches

/-- A job that succeeds is done. -/
theorem done_of_effect {job : Job} {own : List Entry}
    (h : (emitter.performEffect components tree job).result = .ok own) :
    emitter.Done components job tree own
      ((emitter.performEffect components tree job).after tree) := by
  obtain ⟨log, hrun⟩ := emitter.does_perform components job tree { files := tree } rfl
  rw [h] at hrun
  exact done_of_perform hrun

end Emitter

/-! ## Locations on the way -/

/-- The names that a template takes below a destination: the kept pieces of the mapped template. -/
def templateNames (template : String) : List String :=
  RouteScaffold.Route.segments (RouteScaffold.Route.mapTemplate template)

/-- The path of a module looks at what the path of its route's directory does, and at its own place. -/
theorem mem_visits_module {destination template : String} {route : Route} {files : FileTree}
    (hroute : Route.of? destination template = some route) (method : Method) (style : Scaffold.Style)
    {location : Location}
    (h : location ∈ files.visits (below destination (route.fileNames method style))) :
    location ∈ files.visits route.directory ∨
      location = files.locationOf destination ++ route.fileNames method style := by
  obtain ⟨-, -, hdirectory, hnames⟩ := Scaffold.Route.of?_eq_some hroute
  have hname : ∀ name ∈ [Scaffold.fileName method style], IsName name := fun name hname =>
    List.mem_singleton.mp hname ▸ Scaffold.isName_fileName method style
  rw [Scaffold.Route.fileNames, Files.below_append, ← hdirectory] at h
  rcases List.mem_cons.mp h with rfl | hway
  · rw [below, files.startOf_pushNames _ hname, String.ofList_toList]
    exact .inl List.mem_cons_self
  rcases (files.mem_wayTo_below _ hname).mp hway with hway | ⟨front, hne, hfront, rfl⟩
  · exact .inl (List.mem_cons_of_mem _ hway)
  · obtain rfl : front = [Scaffold.fileName method style] := by
      refine hfront.eq_of_length_le ?_
      simpa [Nat.one_le_iff_ne_zero] using hne
    right
    rw [hdirectory, files.locationOf_below _ hnames, Scaffold.Route.fileNames, List.append_assoc]

theorem directory_eq {destination template : String} {route : Route}
    (h : Route.of? destination template = some route) :
    route.directory = below destination (templateNames template) ∧
      ∀ name ∈ templateNames template, IsName name := by
  obtain ⟨-, hmapped, hdirectory, hnames⟩ := Scaffold.Route.of?_eq_some h
  rw [Scaffold.Route.segments, hmapped] at hdirectory hnames
  exact ⟨hdirectory, hnames⟩

namespace Emitter

variable {emitter : Emitter} {components : Components} {files tree : FileTree}

/-- On the way of a job are locations on the way to the destination, and those below it that a template
leads through. -/
theorem mem_jobWay {job : Job} {location : Location} (h : location ∈ emitter.jobWay files job) :
    location ∈ files.wayTo emitter.destination ∨
      ∃ template front, job = .route template ∧ front ≠ [] ∧ front <+: templateNames template ∧
        location = files.locationOf emitter.destination ++ front := by
  cases job with
  | destination => exact .inl h
  | route template =>
      rw [jobWay] at h
      split at h
      · rename_i route hroute
        obtain ⟨hdirectory, hnames⟩ := directory_eq hroute
        rw [hdirectory, files.mem_wayTo_below _ hnames] at h
        refine h.imp_right ?_
        rintro ⟨front, hne, hfront, hlocation⟩
        exact ⟨template, front, rfl, hne, hfront, hlocation⟩
      · cases h
  | scaffold template method operation => cases h

/-- Where the path of the destination starts is a directory after it was made, or what was there if the
path is empty. -/
theorem Reaches.shapeAt?_start {jobs : List Job} {entries : List Entry}
    (h : emitter.Reaches components files jobs entries tree) (hmade : .destination ∈ jobs) :
    tree.shapeAt? (files.startOf emitter.destination) =
      if emitter.destination = "" then files.shapeAt? (files.startOf emitter.destination)
      else some true := by
  split
  · rename_i hempty
    have hlocation : files.locationOf emitter.destination = files.startOf emitter.destination := by
      rw [hempty]
      rfl
    -- nothing is made and no module is written where the directories and the modules are below
    have hnone : ∀ operation ∈ jobs.flatMap Job.operations,
        files.locationOf emitter.destination ++ emitter.moduleNames operation ≠
          files.startOf emitter.destination := by
      intro operation _
      simp [hlocation, moduleNames]
    have hkind := h.kindAt?_of_no_module hnone
    have hway : files.startOf emitter.destination ∉ jobs.flatMap (emitter.jobWay files) := by
      intro hmem
      obtain ⟨job, -, hjob⟩ := List.mem_flatMap.mp hmem
      rcases mem_jobWay hjob with hdestination | ⟨template, front, -, hne, -, heq⟩
      · rw [hempty] at hdestination
        cases hdestination
      · rw [hlocation] at heq
        exact hne (List.self_eq_append_right.mp heq)
    rw [if_neg hway, Option.or_none] at hkind
    rw [FileTree.shapeAt?, hkind]
    rfl
  · exact h.shapeAt?_visits hmade rfl ‹_› List.mem_cons_self

/-- What the path of a route's directory looks at are directories after it was made, or what was there if
the path is empty. -/
theorem Reaches.shapeAt?_route {jobs : List Job} {entries : List Entry} {template : String}
    {route : Route} (h : emitter.Reaches components files jobs entries tree)
    (hmade : .destination ∈ jobs) (hjob : .route template ∈ jobs)
    (hroute : Route.of? emitter.destination template = some route) {location : Location}
    (hvisited : location ∈ files.visits route.directory) :
    tree.shapeAt? location =
      if route.directory = "" then files.shapeAt? location else some true := by
  split
  · rename_i hempty
    obtain ⟨hdirectory, hnames⟩ := directory_eq hroute
    have hsteps : Files.steps emitter.destination ++ templateNames template = [] := by
      rw [← Files.steps_below _ hnames, ← hdirectory, hempty]
      rfl
    rw [(List.append_eq_nil_iff.mp hsteps).2, Files.below_nil, hempty] at hdirectory
    have hstart := h.shapeAt?_start hmade
    rw [← hdirectory, if_pos rfl] at hstart
    rw [hempty] at hvisited
    rw [List.mem_singleton.mp hvisited]
    exact hstart
  · exact h.shapeAt?_visits hjob (by rw [made?, hroute]; rfl) ‹_› hvisited

end Emitter

/-! ## Jobs of a document -/

variable {document : Document} {done rest : List Job}

theorem route_mem_documentJobs {template : String} :
    .route template ∈ documentJobs document ↔ template ∈ document.paths.map (·.1) := by
  rw [documentJobs, List.mem_cons, List.mem_flatMap, or_iff_right (by simp), List.mem_map]
  refine exists_congr fun path => and_congr_right fun _ => ?_
  constructor
  · intro hjob
    exact (Option.some.inj (template?_of_mem_pathJobs hjob)).symm
  · rintro rfl
    exact List.mem_cons_self

theorem scaffold_mem_documentJobs {template : String} {method : Method} {operation : Operation}
    (h : (template, method, operation) ∈ document.operations) :
    .scaffold template method operation ∈ documentJobs document := by
  rw [← operations_documentJobs] at h
  obtain ⟨job, hjob, hoperation⟩ := List.mem_flatMap.mp h
  cases job with
  | destination => cases hoperation
  | route other => cases hoperation
  | scaffold other otherMethod otherOperation =>
      cases List.mem_singleton.mp hoperation
      exact hjob

/-- The destination is made before all other jobs. -/
theorem destination_mem_of_documentJobs {job : Job} {template : String}
    (h : documentJobs document = done ++ job :: rest) (hjob : job.template? = some template) :
    .destination ∈ done := by
  cases done with
  | nil =>
      obtain ⟨rfl, -⟩ := List.cons.inj h
      cases hjob
  | cons head done =>
      obtain ⟨rfl, -⟩ := List.cons.inj h
      exact List.mem_cons_self

/-- The directory of a route is made before the modules on it are written. -/
theorem route_mem_of_documentJobs {template : String} {method : Method} {operation : Operation}
    (h : documentJobs document = done ++ .scaffold template method operation :: rest) :
    .route template ∈ done := by
  obtain ⟨front, item, back, -, first, last, hpath, rfl⟩ := exists_path_of_documentJobs h rfl
  rw [pathJobs] at hpath
  cases first with
  | nil => cases hpath
  | cons head first =>
      obtain ⟨rfl, -⟩ := List.cons.inj hpath
      simp

/-! ## Places of modules -/

/-- What tells the place of the module of an operation: the names of its template, and its method. -/
def placeKey (operation : String × Method × Operation) : List String × Method :=
  (templateNames operation.1, operation.2.1)

theorem moduleNames_eq_iff {emitter : Emitter} {first second : String × Method × Operation} :
    emitter.moduleNames first = emitter.moduleNames second ↔ placeKey first = placeKey second :=
  Emitter.moduleNames_inj

namespace Emitter

/-- The place of the module of an operation. -/
def placeOf (emitter : Emitter) (files : FileTree) (operation : String × Method × Operation) :
    Location :=
  files.locationOf emitter.destination ++ emitter.moduleNames operation

end Emitter

/-- No template takes the name of a module. -/
def FreeOfModules (templates : List String) : Prop :=
  ∀ template ∈ templates, ∀ name ∈ templateNames template, ∀ method style,
    name ≠ Scaffold.fileName method style

/-- No part of such a template leads to a module. -/
theorem module_ne_names {template : String} {names front : List String} {method : Method}
    {style : Scaffold.Style} (hfree : FreeOfModules (document.paths.map (·.1)))
    (htemplate : template ∈ document.paths.map (·.1)) (hnames : names <+: templateNames template) :
    front ++ [Scaffold.fileName method style] ≠ names := by
  rintro rfl
  exact hfree template htemplate _ (hnames.subset (by simp)) method style rfl

/-- Where no template takes the name of a module, none leads through the place of one. -/
theorem mem_wayTo_of_module {emitter : Emitter} {files : FileTree} {jobs : List Job}
    {names : List String} {method : Method} {style : Scaffold.Style}
    (hfree : FreeOfModules (document.paths.map (·.1))) (hjobs : jobs ⊆ documentJobs document)
    (h : files.locationOf emitter.destination ++ (names ++ [Scaffold.fileName method style]) ∈
      jobs.flatMap (emitter.jobWay files)) :
    files.locationOf emitter.destination ++ (names ++ [Scaffold.fileName method style]) ∈
      files.wayTo emitter.destination := by
  obtain ⟨job, hjob, hway⟩ := List.mem_flatMap.mp h
  refine (Emitter.mem_jobWay hway).resolve_right ?_
  rintro ⟨template, front, rfl, -, hfront, heq⟩
  exact module_ne_names hfree (route_mem_documentJobs.mp (hjobs hjob)) hfront
    (List.append_cancel_left heq)

end RouteScaffold.Run
