import RouteScaffold.Proofs.Run.Effect
import RouteScaffold.Proofs.Run.Generated
import RouteScaffold.Proofs.Run.Kept

/-!
# Running again

A run that succeeded is run once more on the files it left.  Each job finds what it needs: the
directories are there, and the files are, so that the scaffolds are skipped, or are written over what
the first run wrote (`performAllEffect_again`).  The source has to be as it was, which is certain
when files are skipped; otherwise no scaffold may go to its place (`run_idempotent`).
-/

namespace RouteScaffold.Run

open Document (Components)
open Files (Change FileTree)
open Scaffold (Route)

/-- What is reported for a scaffold when its file is there. -/
def Policy.repeated : Policy → Outcome
  | skipExisting => .skipped
  | overwrite => .overwritten

/-- An entry as it is reported when its scaffold is emitted once more. -/
def Entry.again (policy : Policy) (entry : Entry) : Entry :=
  { entry with outcome := policy.repeated }

/-- An effect on some files that succeeds with a value and changes no shape, and nothing at all when
files are skipped. -/
structure Repeats {α : Type} (policy : Policy) (files : FileTree) (effect : Effect α) (value : α) :
    Prop where
  result_eq : effect.result = .ok value
  alike : files.Alike (effect.after files)
  changes_eq : policy = .skipExisting → effect.changes = []

namespace Repeats

variable {α β : Type} {policy : Policy} {files : FileTree} {effect : Effect α} {value : α}

theorem nothing (policy : Policy) (files : FileTree) (value : α) :
    Repeats policy files ⟨.ok value, []⟩ value :=
  ⟨rfl, .refl files, fun _ => rfl⟩

theorem after_eq (h : Repeats policy files effect value) (hpolicy : policy = .skipExisting) :
    effect.after files = files := by
  rw [Effect.after, h.changes_eq hpolicy]
  rfl

theorem map (f : α → β) (h : Repeats policy files effect value) :
    Repeats policy files (effect.map f) (f value) := by
  refine ⟨?_, h.alike, h.changes_eq⟩
  rw [Effect.map, h.result_eq]
  rfl

/-- One effect that repeats after another one. -/
theorem behind {changes : List Change} (halike : files.Alike (files.applyAll changes))
    (hchanges : policy = .skipExisting → changes = [])
    (h : Repeats policy (files.applyAll changes) effect value) :
    Repeats policy files (effect.behind changes) value := by
  refine ⟨h.result_eq, ?_, fun hpolicy => ?_⟩
  · rw [Effect.after_behind]
    exact halike.trans h.alike
  · rw [Effect.behind, hchanges hpolicy, h.changes_eq hpolicy]
    rfl

end Repeats

namespace Emitter

open Run.Action

variable {emitter : Emitter} {components : Components} {files later : FileTree}

theorem makeDirectoriesEffect_again {path : String} {policy : Policy}
    (h : (makeDirectoriesEffect path files).result = .ok ())
    (hcovers : ((makeDirectoriesEffect path files).after files).Covers later) :
    Repeats policy later (makeDirectoriesEffect path later) () := by
  have hmade : (files.makeDirectories path).fault = none := by
    cases hfault : (files.makeDirectories path).fault with
    | none => rfl
    | some fault => simp [makeDirectoriesEffect, hfault] at h
  rw [makeDirectoriesEffect, FileTree.makeDirectories_again hmade hcovers]
  exact .nothing policy later ()

theorem exists?_of_emitEffect {scaffold : Scaffold} {outcome : Outcome}
    (h : (emitEffect .skipExisting scaffold files).result = .ok outcome)
    (hcovers : ((emitEffect .skipExisting scaffold files).after files).Covers later) :
    later.exists? scaffold.file = true := by
  rw [emitEffect, writeNewEffect] at h hcovers
  split at h
  · rename_i hthere
    rw [if_pos hthere] at hcovers
    exact FileTree.exists?_again hthere hcovers
  rename_i hmissing
  rw [if_neg hmissing] at hcovers
  split at h
  · rename_i changes hwrite
    rw [hwrite] at hcovers
    exact FileTree.exists?_of_writeNew_prefix hwrite List.prefix_rfl
      (by simp [(FileTree.changes_of_writeNew hwrite).1]) hcovers
  · rename_i hwrite
    exact absurd (FileTree.exists?_of_writeNew hwrite) hmissing
  · cases h

theorem emitEffect_again {policy : Policy} {scaffold : Scaffold} {outcome : Outcome}
    (h : (emitEffect policy scaffold files).result = .ok outcome)
    (hcovers : ((emitEffect policy scaffold files).after files).Covers later) :
    Repeats policy later (emitEffect policy scaffold later) policy.repeated := by
  cases policy with
  | skipExisting =>
      rw [emitEffect, if_pos (exists?_of_emitEffect h hcovers)]
      exact .nothing _ later _
  | overwrite =>
      rw [emitEffect, overwriteEffect] at h hcovers ⊢
      split at h
      · rename_i hwrite
        rw [hwrite] at hcovers
        obtain ⟨hthere, changes, hagain, halike⟩ :=
          FileTree.write_again hwrite hcovers scaffold.text.toUTF8
        rw [hagain, hthere]
        exact ⟨rfl, halike, fun hpolicy => by cases hpolicy⟩
      · cases h

theorem result_of_map {α β : Type} {effect : Effect α} {f : α → β} {value : β}
    (h : (effect.map f).result = .ok value) : ∃ found, effect.result = .ok found ∧ value = f found := by
  rcases effect with ⟨failure | found, changes⟩
  · cases h
  · cases h
    exact ⟨found, rfl, rfl⟩

theorem performEffect_again {job : Job} {entries : List Entry}
    (h : (emitter.performEffect components files job).result = .ok entries)
    (hcovers : ((emitter.performEffect components files job).after files).Covers later) :
    Repeats emitter.policy later (emitter.performEffect components later job)
      (entries.map (·.again emitter.policy)) := by
  -- what was made, written or skipped is there when the job is done again
  cases job with
  | destination =>
      rw [performEffect] at h hcovers ⊢
      obtain ⟨_, hmade, rfl⟩ := result_of_map h
      exact (makeDirectoriesEffect_again hmade hcovers).map fun _ => []
  | route template =>
      rw [performEffect] at h hcovers ⊢
      cases hroute : Route.of? emitter.destination template with
      | none =>
          rw [hroute] at h
          cases h
      | some route =>
          rw [hroute] at h hcovers
          obtain ⟨_, hmade, rfl⟩ := result_of_map h
          exact (makeDirectoriesEffect_again hmade hcovers).map fun _ => []
  | scaffold template method operation =>
      rw [performEffect] at h hcovers ⊢
      cases hroute : Route.of? emitter.destination template with
      | none =>
          rw [hroute] at h
          cases h
      | some route =>
          rw [hroute] at h hcovers
          obtain ⟨outcome, hemit, rfl⟩ := result_of_map h
          exact (emitEffect_again hemit hcovers).map fun outcome =>
            [emitter.entryOf components route method operation outcome]

/-- Jobs that were done are done again on files that have all that they left. -/
theorem performAllEffect_again {jobs : List Job} {entries : List Entry}
    (h : (emitter.performAllEffect components files jobs).result = .ok entries)
    (hcovers : ((emitter.performAllEffect components files jobs).after files).Covers later) :
    Repeats emitter.policy later (emitter.performAllEffect components later jobs)
      (entries.map (·.again emitter.policy)) := by
  induction jobs generalizing files later entries with
  | nil =>
      cases h
      exact .nothing _ later []
  | cons job rest ih =>
      cases hjob : (emitter.performEffect components files job).result with
      | error failure =>
          rw [performAllEffect_cons_error rest hjob] at h
          cases h
      | ok first =>
          rw [performAllEffect_cons_ok rest hjob] at h hcovers
          obtain ⟨more, hrest, rfl⟩ := result_of_map h
          rw [Effect.after_behind] at hcovers
          -- what the first job left is there after all of them
          have hfirst := (covers_performAllEffect rest _).trans hcovers
          have hagain := performEffect_again hjob hfirst
          have hlater := hcovers.trans hagain.alike.covers
          rw [performAllEffect_cons_ok rest hagain.result_eq, List.map_append]
          exact ((ih hrest hlater).map _).behind hagain.alike hagain.changes_eq

end Emitter

/-! ## The source -/

/-- As long as its source is kept a run reads the same document. -/
theorem document_again {settings : Settings} {files later : FileTree} {document : Document}
    (h : settings.document files = .ok document) (hcovers : files.Covers later)
    (hkept : ∀ contents, files.kindAt? (files.locationOf settings.source) = some (.file contents) →
      later.kindAt? (files.locationOf settings.source) = some (.file contents)) :
    settings.document later = .ok document := by
  cases hthere : files.exists? settings.source with
  | false =>
      rw [Settings.document, examine, hthere] at h
      cases h
  | true =>
      cases hread : files.readText settings.source with
      | error fault =>
          rw [Settings.document, examine, hthere, readSource, hread] at h
          cases fault <;> cases h
      | ok contents =>
          have hagain := FileTree.readText_again hread hcovers hkept
          rw [Settings.document, examine_of_readText hthere hread] at h
          rw [Settings.document,
            examine_of_readText (FileTree.exists?_again hthere hcovers) hagain]
          exact h

/-! ## Runs -/

/-- What a run reports that finds a file in the place of each scaffold. -/
structure Repeated (policy : Policy) (report again : Report) : Prop where
  scaffolds_eq : again.scaffolds = report.scaffolds
  notes_eq : again.notes = report.notes
  skipped : policy = .skipExisting → again.count .skipped = report.scaffolds.length ∧
    again.count .written = 0 ∧ again.count .overwritten = 0
  overwritten : policy = .overwrite → again.count .overwritten = report.scaffolds.length ∧
    again.count .written = 0 ∧ again.count .skipped = 0

theorem count_again (policy : Policy) (entries : List Entry) (outcome : Outcome) :
    (Report.ofEntries (entries.map (·.again policy))).count outcome =
      if policy.repeated = outcome then entries.length else 0 := by
  have hall : ∀ entry ∈ entries.map (·.again policy), entry.outcome = policy.repeated := by
    intro entry hentry
    obtain ⟨_, -, rfl⟩ := List.mem_map.mp hentry
    rfl
  rw [Report.count_ofEntries_of_forall hall, List.length_map]

theorem repeated_again (policy : Policy) (entries : List Entry) :
    Repeated policy (.ofEntries entries) (.ofEntries (entries.map (·.again policy))) := by
  refine ⟨?_, ?_, ?_, ?_⟩
  · simp [Entry.again]
  · simp [Entry.again, List.flatMap_map]
  · rintro rfl
    simp [count_again, Policy.repeated]
  · rintro rfl
    simp [count_again, Policy.repeated]

/-- What was settled is settled the same way once more. -/
theorem Policy.settle_settle (policy : Policy) (before : Option Files.Kind) (onWay : Prop)
    [Decidable onWay] (scaffolds : List Scaffold) :
    policy.settle (policy.settle before onWay scaffolds) onWay scaffolds =
      policy.settle before onWay scaffolds := by
  cases policy with
  | skipExisting =>
      cases before with
      | some kind => rfl
      | none => by_cases hway : onWay <;> cases scaffolds <;> simp [settle, hway]
  | overwrite => by_cases hway : onWay <;> cases before <;>
      cases hlast : scaffolds.getLast? <;> simp [settle, hway, hlast]

theorem Emitter.jobWay_congr {emitter : Emitter} {first second : FileTree}
    (h : first.current = second.current) (job : Job) :
    emitter.jobWay first job = emitter.jobWay second job := by
  cases job with
  | destination => exact FileTree.wayTo_congr h _
  | route template =>
      rw [jobWay, jobWay]
      split
      · exact FileTree.wayTo_congr h _
      · rfl
  | scaffold template method operation => rfl

/-- Jobs that emit the same scaffolds once more leave everything as they left it at first. -/
theorem Emitter.DoneAll.kindAt?_again {emitter : Emitter} {components : Components}
    {jobs : List Job} {files left later : FileTree} {entries more : List Entry}
    (hfirst : emitter.DoneAll components jobs files entries left)
    (hagain : emitter.DoneAll components jobs left more later)
    (hsame : more.map (·.scaffold) = entries.map (·.scaffold)) (location : Files.Location) :
    later.kindAt? location = left.kindAt? location := by
  have hsettled := hfirst.settled_start
  have hlater := hagain.settled_start
  have hways : jobs.flatMap (emitter.jobWay left) = jobs.flatMap (emitter.jobWay files) :=
    List.flatMap_congr fun job _ => jobWay_congr hsettled.current_eq job
  have hat : scaffoldsAt left (entries.map (·.scaffold)) location =
      scaffoldsAt files (entries.map (·.scaffold)) location := by
    refine List.filter_congr fun scaffold _ => ?_
    rw [FileTree.locationOf_congr hsettled.current_eq]
  rw [hlater.kindAt?_eq, hways, hsame, hat, hsettled.kindAt?_eq, Policy.settle_settle]

/-! ## Two templates with one directory, with and without force -/

/-- The settings for the two templates, with files skipped or overwritten. -/
def twinPolicy (policy : Policy) : Settings := { twinSettings with policy := policy }

/-- The tree with the directory of both routes. -/
def twinOpened (contents : ByteArray) (made : List (String × Files.Node)) : FileTree :=
  twinTree contents [("out", .dir [("a", .dir made)])]

/-- The scaffold of the operation on one of the paths. -/
def twinScaffold (template : String) : Scaffold :=
  twinSettings.emitter.scaffoldOf {} (twinRoute template) .get {}

theorem twinScaffold_file (template : String) : (twinScaffold template).file = "out/a/get.ts" :=
  twinRoute_file rfl {} template {}

section

open Run.Action

variable (policy : Policy) (contents : ByteArray)

theorem performEffect_twin_destination :
    (twinPolicy policy).emitter.performEffect {} (twinTree contents []) .destination =
      ⟨.ok [], [.makeDirectory ["out"]]⟩ := by
  have hmake : (twinTree contents []).makeDirectories "out" = ⟨[.makeDirectory ["out"]], none⟩ :=
    FileTree.makeDirectories_of_makeDirectory (by decide) rfl
  rw [Emitter.performEffect, show (twinPolicy policy).emitter.destination = "out" from rfl,
    makeDirectoriesEffect, hmake]
  rfl

theorem performEffect_twin_route {template : String} (h : template = "/a" ∨ template = "/a/")
    {files : FileTree} {changes : List Change}
    (hmake : files.makeDirectories "out/a" = ⟨changes, none⟩) :
    (twinPolicy policy).emitter.performEffect {} files (.route template) =
      ⟨.ok [], changes⟩ := by
  rw [Emitter.performEffect, show (twinPolicy policy).emitter.destination = "out" from rfl,
    route_twin h]
  dsimp only
  rw [makeDirectoriesEffect, show (twinRoute template).directory = "out/a" from rfl, hmake]
  rfl

theorem performEffect_twin_scaffold {template : String} (h : template = "/a" ∨ template = "/a/")
    {files : FileTree} {outcome : Outcome} {changes : List Change}
    (hemit : ∀ scaffold : Scaffold, scaffold.file = "out/a/get.ts" →
      scaffold.text = (twinScaffold template).text →
        Emitter.emitEffect policy scaffold files = ⟨.ok outcome, changes⟩) :
    (twinPolicy policy).emitter.performEffect {} files (.scaffold template .get {}) =
      ⟨.ok [(twinPolicy policy).emitter.entryOf {} (twinRoute template) .get {} outcome],
        changes⟩ := by
  rw [Emitter.performEffect, show (twinPolicy policy).emitter.destination = "out" from rfl,
    route_twin h]
  dsimp only
  have hscaffold := hemit (twinScaffold template) (twinScaffold_file template) rfl
  rw [show (twinPolicy policy).emitter.policy = policy from rfl]
  exact congrArg (Effect.map _) hscaffold

/-- The changes of writing the module. -/
def twinWrites (text : String) : List Change :=
  [.makeFile ["out", "a", "get.ts"], .fill ["out", "a", "get.ts"] text.toUTF8]

/-- The first module is written, whatever the policy. -/
theorem emitEffect_twin_written {scaffold : Scaffold} (hfile : scaffold.file = "out/a/get.ts") :
    Emitter.emitEffect policy scaffold (twinOpened contents []) =
      ⟨.ok .written, twinWrites scaffold.text⟩ := by
  rw [twinWrites]
  cases policy with
  | skipExisting =>
      rw [Emitter.emitEffect, Emitter.writeNewEffect, hfile]
      generalize scaffold.text.toUTF8 = text
      rfl
  | overwrite =>
      rw [Emitter.emitEffect, Emitter.overwriteEffect, hfile]
      generalize scaffold.text.toUTF8 = text
      rfl

/-- The second module is written over the first one with force. -/
theorem emitEffect_twin_overwritten {scaffold : Scaffold} (hfile : scaffold.file = "out/a/get.ts")
    (old : ByteArray) :
    Emitter.emitEffect .overwrite scaffold (twinOpened contents [("get.ts", .file old)]) =
      ⟨.ok .overwritten, twinWrites scaffold.text⟩ := by
  rw [twinWrites, Emitter.emitEffect, Emitter.overwriteEffect, hfile]
  generalize scaffold.text.toUTF8 = text
  rfl

/-- The module of a first path is made and filled before other paths are looked at. -/
theorem performAllEffect_twin (rest : List Job) :
    (twinPolicy policy).emitter.performAllEffect {} (twinTree contents [])
        (.destination :: .route "/a" :: .scaffold "/a" .get {} :: rest) =
      (((twinPolicy policy).emitter.performAllEffect {}
          (twinOpened contents [("get.ts", .file (twinScaffold "/a").text.toUTF8)]) rest).map
        ((twinPolicy policy).emitter.entryOf {} (twinRoute "/a") .get {} .written :: ·)).behind
          ([.makeDirectory ["out"], .makeDirectory ["out", "a"]] ++
            twinWrites (twinScaffold "/a").text) := by
  have hmade : (twinTree contents []).applyAll [.makeDirectory ["out"]] =
      twinTree contents [("out", .dir [])] := rfl
  have hmake : (twinTree contents [("out", .dir [])]).makeDirectories "out/a" =
      ⟨[.makeDirectory ["out", "a"]], none⟩ :=
    FileTree.makeDirectories_of_makeDirectory (by decide) rfl
  have hopened : (twinTree contents [("out", .dir [])]).applyAll [.makeDirectory ["out", "a"]] =
      twinOpened contents [] := rfl
  have hwritten : (twinOpened contents []).applyAll (twinWrites (twinScaffold "/a").text) =
      twinOpened contents [("get.ts", .file (twinScaffold "/a").text.toUTF8)] := by
    rw [twinWrites]
    generalize (twinScaffold "/a").text.toUTF8 = text
    rfl
  rw [Emitter.performAllEffect_cons_of_eq _ (performEffect_twin_destination policy contents) hmade,
    Emitter.performAllEffect_cons_of_eq _
      (performEffect_twin_route policy (.inl rfl) hmake) hopened,
    Emitter.performAllEffect_cons_of_eq _ (performEffect_twin_scaffold policy (.inl rfl)
      fun scaffold hfile htext => htext ▸ emitEffect_twin_written policy contents hfile) hwritten]
  simp only [Effect.map_behind, Effect.behind_behind, Effect.map_map, List.nil_append,
    List.cons_append]

/-- With force the second module takes the place of the first one. -/
theorem run_twin_forced : ∃ report : Report,
    (run (twinPolicy .overwrite) twinFiles).result = .ok report ∧
      ∀ scaffold ∈ report.scaffolds, scaffold.file = "out/a/get.ts" := by
  have hdocument : (twinPolicy .overwrite).document twinFiles = .ok twinDocument :=
    document_twinFiles
  have hmake : (twinOpened twinSource.toUTF8
      [("get.ts", .file (twinScaffold "/a").text.toUTF8)]).makeDirectories "out/a" = ⟨[], none⟩ := by
    generalize (twinScaffold "/a").text.toUTF8 = text
    generalize twinSource.toUTF8 = contents
    exact FileTree.makeDirectories_of_isDirectory rfl rfl
  refine ⟨.ofEntries [(twinPolicy .overwrite).emitter.entryOf {} (twinRoute "/a") .get {} .written,
    (twinPolicy .overwrite).emitter.entryOf {} (twinRoute "/a/") .get {} .overwritten], ?_, ?_⟩
  · rw [(run_of_document hdocument).1]
    show (Emitter.performAllEffect _ {} (twinTree twinSource.toUTF8 [])
      [.destination, .route "/a", .scaffold "/a" .get {}, .route "/a/",
        .scaffold "/a/" .get {}]).result.map _ = _
    rw [performAllEffect_twin,
      Emitter.performAllEffect_cons_of_eq _ (performEffect_twin_route _ (.inr rfl) hmake) rfl,
      Emitter.performAllEffect_cons_of_eq _ (performEffect_twin_scaffold _ (.inr rfl)
        fun scaffold hfile htext => htext ▸ emitEffect_twin_overwritten _ hfile _) rfl]
    rfl
  · intro scaffold hmem
    simp only [Report.scaffolds_ofEntries, List.map_cons, List.map_nil, List.mem_cons, List.not_mem_nil,
      or_false] at hmem
    rcases hmem with rfl | rfl
    · exact twinScaffold_file "/a"
    · exact twinScaffold_file "/a/"

end

/-! ## Running again -/

/-- A run of which the first one succeeded succeeds again, with the same scaffolds and notes, and
leaves everything as it is.  Where files are overwritten, no scaffold may go to the source. -/
theorem run_idempotent {settings : Settings} {files : FileTree} {report : Report}
    (hrun : (run settings files).result = .ok report)
    (hsource : settings.policy = .overwrite → ∀ scaffold ∈ report.scaffolds,
      files.locationOf scaffold.file ≠ files.locationOf settings.source) :
    ∃ again,
      (run settings (run settings files).workspace.files).result = .ok again ∧
        Repeated settings.policy report again ∧
        (∀ location, (run settings (run settings files).workspace.files).workspace.files.kindAt?
          location = (run settings files).workspace.files.kindAt? location) ∧
        (settings.policy = .skipExisting →
          (run settings (run settings files).workspace.files).workspace.changes = []) := by
  obtain ⟨document, hdocument, hdone⟩ := doneAll_of_run hrun
  obtain ⟨hresult, hleft, -⟩ := run_of_document hdocument
  obtain ⟨entries, hentries, rfl⟩ := Emitter.result_of_map (hresult.symm.trans hrun)
  generalize (run settings files).workspace.files = left at hdone hleft ⊢
  have hsettled := hdone.settled_start
  have hcovers : files.Covers left := hleft ▸ Emitter.covers_performAllEffect _ files
  -- the source is kept, so that the document is the same
  have hkept : ∀ contents, files.kindAt? (files.locationOf settings.source) = some (.file contents) →
      left.kindAt? (files.locationOf settings.source) = some (.file contents) := by
    intro contents hcontents
    cases hpolicy : settings.policy with
    | skipExisting => exact hsettled.kept hpolicy hcontents
    | overwrite => exact (hsettled.elsewhere (hsource hpolicy) contents).mpr hcontents
  have hread := document_again hdocument hcovers hkept
  have hagain := Emitter.performAllEffect_again hentries
    (show FileTree.Covers _ left from hleft ▸ FileTree.Covers.refl _)
  obtain ⟨hresult, -, hchanges⟩ := run_of_document hread
  have hok := hresult.trans (hagain.map Report.ofEntries).result_eq
  have hrepeated := repeated_again settings.policy entries
  refine ⟨_, hok, hrepeated, fun location => ?_, fun hpolicy => ?_⟩
  · obtain ⟨_, hsame, hlater⟩ := doneAll_of_run hok
    obtain rfl : document = _ := Except.ok.inj (hread.symm.trans hsame)
    exact hdone.kindAt?_again hlater hrepeated.scaffolds_eq location
  · exact hchanges.trans (hagain.changes_eq hpolicy)

/-- The source of the two templates is not where their module goes. -/
theorem run_idempotent_twin : ∃ report again : Report,
    (run (twinPolicy .overwrite) twinFiles).result = .ok report ∧
      (∀ scaffold ∈ report.scaffolds, twinFiles.locationOf scaffold.file ≠
        twinFiles.locationOf (twinPolicy .overwrite).source) ∧
      (run (twinPolicy .overwrite)
        (run (twinPolicy .overwrite) twinFiles).workspace.files).result = .ok again ∧
      again.count .overwritten = report.scaffolds.length := by
  obtain ⟨report, hrun, hfile⟩ := run_twin_forced
  have hsource : ∀ scaffold ∈ report.scaffolds, twinFiles.locationOf scaffold.file ≠
      twinFiles.locationOf (twinPolicy .overwrite).source := by
    intro scaffold hmem
    rw [hfile scaffold hmem]
    decide
  obtain ⟨again, hagain, hrepeated, -⟩ := run_idempotent hrun fun _ => hsource
  exact ⟨report, again, hrun, hsource, hagain, (hrepeated.overwritten rfl).1⟩

end RouteScaffold.Run
