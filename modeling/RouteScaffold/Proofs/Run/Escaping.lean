import RouteScaffold.Proofs.Run.Again
import RouteScaffold.Proofs.Run.Separate
import RouteScaffold.Proofs.Run.Stages

/-!
# Paths that would leave the destination

A path whose template has two dots between its slashes is refused when its turn comes, not before.  So
what a run leaves that is stopped by such a path is what a run leaves that succeeds with the paths
before it (`escaping_of_run`), and it is nothing new exactly when all that those paths ask for was there
already (`Ready`).  With a good path in front a run makes the destination, and writes a module, before
it is stopped (`not_untouched_astray`).

The run is compared with the jobs of its own document cut off before the path.
`exists_path_of_documentJobs` says where in the document a list of jobs is cut.
-/

namespace RouteScaffold.Run

open Document (PathItem)
open Files (FileTree Location)
open Scaffold (Route)

/-! ## The paths before a job -/

/-- A cut through lists that stand one after another is a cut through one of them. -/
theorem exists_of_flatMap_eq {α β : Type} {f : α → List β} {values : List α} {done rest : List β}
    {found : β} (h : values.flatMap f = done ++ found :: rest) :
    ∃ front value back, values = front ++ value :: back ∧ ∃ first last,
      f value = first ++ found :: last ∧ done = front.flatMap f ++ first := by
  induction values generalizing done with
  | nil => simp at h
  | cons value more ih =>
      rw [List.flatMap_cons] at h
      -- the cut is behind the first list, or in it
      rcases List.append_eq_append_iff.mp h with ⟨later, rfl, hlater⟩ | ⟨last, hvalue, hlast⟩
      · obtain ⟨front, other, back, rfl, first, last, hother, rfl⟩ := ih hlater
        refine ⟨value :: front, other, back, rfl, first, last, hother, ?_⟩
        rw [List.flatMap_cons, List.append_assoc]
      · cases last with
        | nil =>
            rw [List.append_nil] at hvalue
            have hmore : more.flatMap f = [] ++ found :: rest := hlast.symm
            obtain ⟨front, other, back, rfl, first, last, hother, hfirst⟩ := ih hmore
            refine ⟨value :: front, other, back, rfl, first, last, hother, ?_⟩
            rw [List.flatMap_cons, List.append_assoc, ← hfirst, List.append_nil, hvalue]
        | cons head last =>
            obtain ⟨rfl, -⟩ := List.cons.inj hlast
            exact ⟨[], value, more, rfl, done, last, hvalue, rfl⟩

theorem template?_of_mem_pathJobs {path : String × PathItem} {job : Job} (h : job ∈ pathJobs path) :
    job.template? = some path.1 := by
  rw [pathJobs, List.mem_cons, List.mem_map] at h
  rcases h with rfl | ⟨operation, -, rfl⟩ <;> rfl

/-- Nothing comes before the destination. -/
theorem eq_nil_of_documentJobs {document : Document} {done rest : List Job}
    (h : documentJobs document = done ++ .destination :: rest) : done = [] := by
  cases done with
  | nil => rfl
  | cons head done =>
      rw [documentJobs, List.cons_append] at h
      obtain ⟨-, hpaths⟩ := List.cons.inj h
      have hmem : .destination ∈ done ++ .destination :: rest := by simp
      rw [← hpaths] at hmem
      obtain ⟨path, -, hjob⟩ := List.mem_flatMap.mp hmem
      cases template?_of_mem_pathJobs hjob

/-- The jobs before one that is about a path are those of the paths before it, and some of its own. -/
theorem exists_path_of_documentJobs {document : Document} {done rest : List Job} {job : Job}
    {template : String} (h : documentJobs document = done ++ job :: rest)
    (hjob : job.template? = some template) :
    ∃ front item back, document.paths = front ++ (template, item) :: back ∧ ∃ first last,
      pathJobs (template, item) = first ++ job :: last ∧
        done = documentJobs { document with paths := front } ++ first := by
  rw [documentJobs] at h
  cases done with
  | nil =>
      obtain ⟨rfl, -⟩ := List.cons.inj h
      cases hjob
  | cons head done =>
      obtain ⟨rfl, hpaths⟩ := List.cons.inj h
      obtain ⟨front, ⟨found, item⟩, back, hfront, first, last, hpath, rfl⟩ :=
        exists_of_flatMap_eq hpaths
      have hmem : job ∈ pathJobs (found, item) := by simp [hpath]
      obtain rfl : found = template :=
        Option.some.inj ((template?_of_mem_pathJobs hmem).symm.trans hjob)
      exact ⟨front, item, back, hfront, first, last, hpath, rfl⟩

namespace Emitter

variable {emitter : Emitter} {components : Document.Components}

/-- The routes that were prepared do not leave the destination. -/
theorem DoneAll.exists_route {jobs : List Job} {before after : FileTree} {entries : List Entry}
    (h : emitter.DoneAll components jobs before entries after) {template : String}
    (hmem : .route template ∈ jobs) :
    ∃ route, Route.of? emitter.destination template = some route := by
  induction h with
  | nil tree => simp at hmem
  | cons hjob hrest ih =>
      rcases List.mem_cons.mp hmem with rfl | hlater
      · cases hjob with
        | route hroute hopens => exact ⟨_, hroute⟩
      · exact ih hlater

end Emitter

/-- Jobs are stopped by a path that would leave the destination before any of its own is done. -/
theorem eq_documentJobs_of_escape {emitter : Emitter} {files middle : FileTree}
    {document : Document} {done rest : List Job} {job : Job} {entries : List Entry}
    {template : String} (hjobs : documentJobs document = done ++ job :: rest)
    (hdone : emitter.DoneAll document.components done files entries middle)
    (hjob : job.template? = some template)
    (hroute : Route.of? emitter.destination template = none) :
    ∃ front item back, document.paths = front ++ (template, item) :: back ∧
      done = documentJobs { document with paths := front } := by
  obtain ⟨front, item, back, hfront, first, last, hpath, rfl⟩ :=
    exists_path_of_documentJobs hjobs hjob
  refine ⟨front, item, back, hfront, ?_⟩
  cases first with
  | nil => rw [List.append_nil]
  | cons head first =>
      -- the first job of the path prepares its route, which cannot have been done
      rw [pathJobs] at hpath
      obtain ⟨rfl, -⟩ := List.cons.inj hpath
      have hmem : .route template ∈
          documentJobs { document with paths := front } ++ .route template :: first := by simp
      obtain ⟨route, hother⟩ := hdone.exists_route hmem
      cases hroute.symm.trans hother

/-! ## What is there already -/

/-- Files in which all is there that a run would make of a document with some scaffolds: directories on
the way, and in the place of each scaffold something that is skipped, or what would be written. -/
structure Ready (settings : Settings) (files : FileTree) (document : Document)
    (scaffolds : List Scaffold) : Prop where
  way : ∀ location, settings.OnWay files document location →
    files.kindAt? location = some .directory
  skipped : settings.policy = .skipExisting → ∀ scaffold ∈ scaffolds,
    files.kindAt? (files.locationOf scaffold.file) ≠ none
  overwritten : settings.policy = .overwrite → ∀ scaffold ∈ scaffolds, ∃ last,
    scaffolds.reverse.find? (·.file = scaffold.file) = some last ∧
      files.kindAt? (files.locationOf scaffold.file) = some (.file last.text.toUTF8)

/-- Where a scaffold goes something is settled. -/
theorem Policy.settle_ne_none {policy : Policy} {before : Option Files.Kind} {onWay : Prop}
    [Decidable onWay] {scaffolds : List Scaffold} (h : scaffolds ≠ []) :
    policy.settle before onWay scaffolds ≠ none := by
  cases policy with
  | skipExisting =>
      cases before with
      | some kind => simp [settle]
      | none => by_cases hway : onWay <;> simp [settle, hway, List.head?_eq_some_head h]
  | overwrite => simp [settle, List.getLast?_eq_some_getLast h]

section

variable {settings : Settings} {files after : FileTree} {document : Document} {entries : List Entry}
  (hdone : settings.emitter.DoneAll document.components (documentJobs document) files entries after)

include hdone

theorem ready_of_kindAt?_eq (h : ∀ location, after.kindAt? location = files.kindAt? location) :
    Ready settings files document (entries.map (·.scaffold)) := by
  have hsettled := hdone.settled_start
  have hgenerates := generates_of_doneAll hdone
  refine ⟨fun location hway => ?_, fun hpolicy scaffold hmem => ?_, fun hpolicy scaffold hmem => ?_⟩
  · rw [← h location]
    exact hsettled.way location (mem_jobWay_documentJobs.mpr hway)
  · rw [← h, hsettled.kindAt?_eq]
    have hat : scaffold ∈ scaffoldsAt files (entries.map (·.scaffold))
        (files.locationOf scaffold.file) := List.mem_filter.mpr ⟨hmem, by simp⟩
    exact Policy.settle_ne_none (List.ne_nil_of_mem hat)
  · obtain ⟨last, hlast, hkind⟩ := hgenerates.last hpolicy scaffold hmem
    exact ⟨last, hlast, h _ ▸ hkind⟩

theorem kindAt?_eq_of_ready (h : Ready settings files document (entries.map (·.scaffold)))
    (location : Location) : after.kindAt? location = files.kindAt? location := by
  have hsettled := hdone.settled_start
  have hgenerates := generates_of_doneAll hdone
  by_cases hnone : scaffoldsAt files (entries.map (·.scaffold)) location = []
  · -- no scaffold goes there, and what is on the way is a directory already
    rw [hsettled.kindAt?_eq, hnone, Policy.settle_nil]
    split
    · rename_i hway
      rw [h.way location (mem_jobWay_documentJobs.mp hway)]
      rfl
    · exact Option.or_none
  · obtain ⟨scaffold, hat⟩ := List.exists_mem_of_ne_nil _ hnone
    obtain ⟨hmem, hlocation⟩ := List.mem_filter.mp hat
    obtain rfl : files.locationOf scaffold.file = location := of_decide_eq_true hlocation
    cases hpolicy : settings.policy with
    | skipExisting =>
        obtain ⟨kind, hkind⟩ := Option.ne_none_iff_exists'.mp (h.skipped hpolicy scaffold hmem)
        rw [hkind, hsettled.kept hpolicy hkind]
    | overwrite =>
        obtain ⟨last, hlast, hkind⟩ := h.overwritten hpolicy scaffold hmem
        obtain ⟨other, hother, hafter⟩ := hgenerates.last hpolicy scaffold hmem
        obtain rfl : last = other := Option.some.inj (hlast.symm.trans hother)
        rw [hafter, hkind]

end

/-! ## The whole run -/

/-- What a run leaves that is stopped by a template, with the part of the document before it. -/
structure StoppedAt (settings : Settings) (files : FileTree) (document : Document)
    (template : String) (scaffolds : List Scaffold) (after : FileTree) : Prop where
  escapes : ".." ∈ RouteScaffold.Route.segments (RouteScaffold.Route.mapTemplate template)
  /-- No path before it would leave the destination. -/
  stays : ∀ path ∈ document.paths,
    ".." ∉ RouteScaffold.Route.segments (RouteScaffold.Route.mapTemplate path.1)
  scaffolds_eq : scaffolds.map some =
    document.operations.map (settings.emitter.scaffold? document.components)
  /-- The files are what a run leaves that ends before it. -/
  generates : Generates settings files document scaffolds after
  /-- They are unchanged exactly when all was there. -/
  unchanged_iff : (∀ location, after.kindAt? location = files.kindAt? location) ↔
    Ready settings files document scaffolds

theorem stoppedAt_of_doneAll {settings : Settings} {files after : FileTree} {document : Document}
    {entries : List Entry} {template : String}
    (hdone : settings.emitter.DoneAll document.components (documentJobs document) files entries after)
    (hroute : Route.of? settings.destination template = none) :
    StoppedAt settings files document template (entries.map (·.scaffold)) after where
  escapes := by
    rw [Scaffold.Route.of?_eq] at hroute
    by_contra hsegments
    simp [hsegments] at hroute
  stays path hpath hparent := by
    have hmem : .route path.1 ∈ documentJobs document :=
      List.mem_cons_of_mem _ (List.mem_flatMap.mpr ⟨path, hpath, List.mem_cons_self⟩)
    obtain ⟨route, hother⟩ := hdone.exists_route hmem
    rw [Scaffold.Route.of?_eq, if_pos hparent] at hother
    cases hother
  scaffolds_eq := scaffolds_eq_of_doneAll hdone
  generates := generates_of_doneAll hdone
  unchanged_iff := ⟨ready_of_kindAt?_eq hdone, kindAt?_eq_of_ready hdone⟩

/-- A run that fails because a path would leave the destination was stopped by the first such path of
its document, and leaves what a run leaves with the paths before it. -/
theorem escaping_of_run {settings : Settings} {files : FileTree} {failure : Failure}
    (hrun : (run settings files).result = .error failure) (hpath : failure.category = .path) :
    ∃ document front template item back scaffolds, settings.document files = .ok document ∧
      document.paths = front ++ (template, item) :: back ∧
        failure = .escapingPath (RouteScaffold.Route.mapTemplate template) ∧
          StoppedAt settings files { document with paths := front } template scaffolds
            (run settings files).workspace.files := by
  have hends := run_ends settings files
  rw [hrun] at hends
  generalize (run settings files).workspace.files = after at hends ⊢
  cases hends with
  | unread _ hdocument =>
      -- without a document no path is looked at
      have hstage := stage_of_document hdocument
      cases failure <;> simp [Failure.category, Failure.stage] at hpath hstage
  | stopped _ hdocument hjobs hdone hstops =>
      cases hstops with
      | destination hcreated hgrows => cases hpath
      | route hroute hcreated hgrows => cases hpath
      | scaffold hroute => cases hpath
      | escape hjob hroute =>
          rename_i template
          obtain ⟨front, item, back, hfront, rfl⟩ :=
            eq_documentJobs_of_escape hjobs hdone hjob hroute
          exact ⟨_, front, template, item, back, _, hdocument, hfront, rfl,
            stoppedAt_of_doneAll hdone hroute⟩

/-! ## A good path in front -/

/-- A source with a path that would leave the destination, after one that would not. -/
def astraySource : String :=
  "\x7b\"openapi\":\"3.0.0\",\"info\":\x7b\"title\":\"\",\"version\":\"\"\x7d,\"paths\":" ++
    "\x7b\"/a\":\x7b\"get\":\x7b\"responses\":\x7b\x7d\x7d\x7d,\"/..\":\x7b\x7d\x7d\x7d"

/-- The tree of the source. -/
def astrayJson : Json :=
  .obj [("openapi", .str "3.0.0"), ("info", .obj [("title", .str ""), ("version", .str "")]),
    ("paths", .obj [("/a", twinItem), ("/..", .obj [])])]

def astrayDocument : Document where
  title := ""
  version := ""
  paths := [("/a", { operations := [(.get, {})] }), ("/..", {})]

def astrayFiles : FileTree := twinTree astraySource.toUTF8 []

set_option maxRecDepth 2000 in
theorem tree_astraySource : Source.tree (some .json) astraySource = .ok astrayJson := by
  rfl

theorem document_astrayFiles : twinSettings.document astrayFiles = .ok astrayDocument := by
  -- the contents stay a variable, so that they are not evaluated
  have hfind : ∀ contents, (twinTree contents []).find twinSettings.source =
      .ok (["api.json"], .file contents) := fun _ => rfl
  have htree : Source.tree (Source.Format.detect twinSettings.source) astraySource =
      .ok astrayJson := tree_astraySource
  have hcheck : OpenApi.checkDescription astrayJson = .ok () := by cbv
  have hread : Document.read astrayJson = .ok astrayDocument := rfl
  exact document_of_check (hfind _) htree hcheck (by simp [twinSettings]) hread

/-- The module of the first path is written before the second path is refused. -/
theorem run_astray :
    (run twinSettings astrayFiles).result = .error (.escapingPath "/..") ∧
      (run twinSettings astrayFiles).workspace.files =
        twinOpened astraySource.toUTF8 [("get.ts", .file (twinScaffold "/a").text.toUTF8)] := by
  have hroute : Route.of? (twinPolicy .skipExisting).emitter.destination "/.." = none := by cbv
  have hmapped : RouteScaffold.Route.mapTemplate "/.." = "/.." := by cbv
  have hstop : ∀ files, (twinPolicy .skipExisting).emitter.performAllEffect {} files
      [.route "/.."] = ⟨.error (.escapingPath "/.."), []⟩ := by
    intro files
    have hjob : (twinPolicy .skipExisting).emitter.performEffect {} files (.route "/..") =
        ⟨.error (.escapingPath "/.."), []⟩ := by
      rw [Emitter.performEffect, hroute, hmapped]
    rw [Emitter.performAllEffect_cons_error [] (congrArg Effect.result hjob), hjob]
  have heffect := performAllEffect_twin .skipExisting astraySource.toUTF8 [.route "/.."]
  rw [hstop] at heffect
  obtain ⟨hresult, hfiles, -⟩ := run_of_document document_astrayFiles
  have hjobs : twinSettings.emitter.performAllEffect astrayDocument.components astrayFiles
      (documentJobs astrayDocument) = _ := heffect
  rw [hresult, hfiles, hjobs]
  refine ⟨rfl, ?_⟩
  rw [Effect.after, Effect.behind, twinWrites]
  show (twinTree astraySource.toUTF8 []).applyAll _ = _
  -- neither the source nor the module is evaluated
  generalize (twinScaffold "/a").text.toUTF8 = text
  generalize astraySource.toUTF8 = contents
  rfl

/-- The run is stopped by its second path. -/
theorem escaping_of_run_astray :
    (run twinSettings astrayFiles).result = .error (.escapingPath "/..") ∧
      (Failure.escapingPath "/..").category = .path ∧
      ∃ document front template item back scaffolds,
        twinSettings.document astrayFiles = .ok document ∧
          document.paths = front ++ (template, item) :: back ∧
            Failure.escapingPath "/.." =
              .escapingPath (RouteScaffold.Route.mapTemplate template) ∧
              StoppedAt twinSettings astrayFiles { document with paths := front } template scaffolds
                (run twinSettings astrayFiles).workspace.files :=
  ⟨run_astray.1, rfl, escaping_of_run run_astray.1 rfl⟩

/-- A run that fails because a path would leave the destination has made the destination and written
a module. -/
theorem not_untouched_astray :
    (∃ mapped, (run twinSettings astrayFiles).result = .error (.escapingPath mapped)) ∧
      astrayFiles.kindAt? ["out"] = none ∧
        (run twinSettings astrayFiles).workspace.files.kindAt? ["out"] = some .directory ∧
          ∃ contents, (run twinSettings astrayFiles).workspace.files.kindAt?
            ["out", "a", "get.ts"] = some (.file contents) := by
  obtain ⟨hresult, hfiles⟩ := run_astray
  rw [hfiles]
  have hfree : ∀ contents, (twinTree contents []).kindAt? ["out"] = none := fun _ => rfl
  have hmade : ∀ contents text, (twinOpened contents [("get.ts", .file text)]).kindAt? ["out"] =
      some .directory := fun _ _ => rfl
  have hwritten : ∀ contents text, (twinOpened contents [("get.ts", .file text)]).kindAt?
      ["out", "a", "get.ts"] = some (.file text) := fun _ _ => rfl
  exact ⟨⟨"/..", hresult⟩, hfree _, hmade _ _, _, hwritten _ _⟩

end RouteScaffold.Run
