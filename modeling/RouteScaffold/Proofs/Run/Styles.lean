import RouteScaffold.Proofs.Files.Sibling
import RouteScaffold.Proofs.Run.Reordered
import RouteScaffold.Proofs.Run.Separate
import RouteScaffold.Proofs.Scaffold.LastLine

/-!
# Two module styles

Runs in two styles end the same way, with the same outcome and the same notes for each operation, and leave
trees that differ in the modules only: these have other names and another last line (`run_inStyle`).

Job by job the two runs look at trees with directories and files in the same places, apart from the modules,
of which the one has its file where the other has its own (`mirrors_of_reaches`).  So a directory is made in
both trees or in none (`performEffect_of_made_inStyle`), and the path of a module leads to the same
(`spot_sibling_of_scaffold`).  This needs the places of the modules to be free of all else, in both styles:
a destination may lead through a directory that has the name of a module in one of them
(`not_inStyle_climbing`).
-/

namespace RouteScaffold.Scaffold

open OpenApi (Method)

/-! ## The names of modules -/

theorem fileName_sibling (first second : Style) (method : Method) :
    (fileName method first).utf8ByteSize = (fileName method second).utf8ByteSize := by
  cases first <;> cases second <;> cases method <;> rfl

theorem fileName_ne {first second : Style} (h : first ≠ second) (method other : Method) :
    fileName method first ≠ fileName other second := by
  revert h
  cases first <;> cases second <;> cases method <;> cases other <;> decide

end RouteScaffold.Scaffold

namespace RouteScaffold.Run

open Document (Components Operation)
open Files (Change FileTree Kind Location Sibling below)
open OpenApi (Method)
open Scaffold (Route Style fileName lastLine)

/-! ## What stands in the place of a module -/

/-- The one of some values that counts: the first one when files are skipped, and the last one when they are
overwritten. -/
def Policy.winner {α : Type} (policy : Policy) (values : List α) : Option α :=
  match policy with
  | .skipExisting => values.head?
  | .overwrite => values.getLast?

theorem Policy.winner_map {α β : Type} (policy : Policy) (f : α → β) (values : List α) :
    policy.winner (values.map f) = (policy.winner values).map f := by
  cases policy with
  | skipExisting => exact List.head?_map
  | overwrite => exact List.getLast?_map

theorem Policy.settle_vacant {policy : Policy} {onWay : Prop} [Decidable onWay]
    {scaffolds : List Scaffold} (hway : ¬ onWay) :
    policy.settle none onWay scaffolds = (policy.winner scaffolds).map scaffoldKind := by
  cases policy <;> simp [settle, winner, hway]

namespace Emitter

variable {emitter : Emitter} {components : Components} {files tree : FileTree} {jobs : List Job}
  {entries : List Entry} {document : Document}

/-- The scaffolds that go to the place of a module are those of the operations with its key. -/
theorem map_scaffoldsAt_placeOf (files : FileTree) {operations : List (String × Method × Operation)}
    {scaffolds : List Scaffold}
    (h : scaffolds.map some = operations.map (emitter.scaffold? components))
    (operation : String × Method × Operation) :
    (scaffoldsAt files scaffolds (emitter.placeOf files operation)).map some =
      (operations.filter fun other => placeKey other = placeKey operation).map
        (emitter.scaffold? components) := by
  induction operations generalizing scaffolds with
  | nil => rw [List.map_eq_nil_iff.mp h]; rfl
  | cons first rest ih =>
      cases scaffolds with
      | nil => cases h
      | cons scaffold more =>
          obtain ⟨hfirst, hrest⟩ := List.cons.inj h
          have hplace : files.locationOf scaffold.file = emitter.placeOf files operation ↔
              placeKey first = placeKey operation := by
            rw [locationOf_of_scaffold? hfirst.symm, placeOf, List.append_cancel_left_eq,
              moduleNames_eq_iff]
          have hmore := ih hrest
          rw [scaffoldsAt] at hmore ⊢
          by_cases hkey : placeKey first = placeKey operation
          · rw [List.filter_cons_of_pos (by simpa using hplace.mpr hkey),
              List.filter_cons_of_pos (by simpa using hkey), List.map_cons, List.map_cons, hmore,
              hfirst]
          · rw [List.filter_cons_of_neg (by simpa using fun heq => hkey (hplace.mp heq)),
              List.filter_cons_of_neg (by simpa using hkey), hmore]

end Emitter

/-! ## Places of modules in both styles -/

/-- An emitter of modules of another style. -/
def Emitter.inStyle (emitter : Emitter) (style : Style) : Emitter := { emitter with style }

/-- Some settings with another style. -/
def Settings.inStyle (settings : Settings) (style : Style) : Settings := { settings with style }

/-- The place of the module of an operation in some style. -/
def placeIn (destination : String) (files : FileTree) (style : Style)
    (operation : String × Method × Operation) : Location :=
  files.locationOf destination ++ (templateNames operation.1 ++ [fileName operation.2.1 style])

/-- The places of the modules of a document are free in either style: nothing is there, and neither the path
of the destination nor a template leads there. -/
structure Roomy (destination : String) (files : FileTree) (document : Document) : Prop where
  vacant : ∀ operation ∈ document.operations, ∀ style,
    files.kindAt? (placeIn destination files style operation) = none
  off : ∀ operation ∈ document.operations, ∀ style,
    placeIn destination files style operation ∉ files.wayTo destination
  free : FreeOfModules (document.paths.map (·.1))

/-- Nothing is at any place below a destination where nothing is. -/
theorem vacant_of_destination {destination : String} {files : FileTree}
    (h : files.kindAt? (files.locationOf destination) = none) (style : Style)
    (operation : String × Method × Operation) :
    files.kindAt? (placeIn destination files style operation) = none :=
  Files.Node.kindAt?_append_of_none h _

/-- Entries about one operation, with the same outcome and the same notes. -/
structure SameTold (entry other : Entry) : Prop where
  operation_eq : (entry.scaffold.template, entry.scaffold.method) =
    (other.scaffold.template, other.scaffold.method)
  outcome_eq : entry.outcome = other.outcome
  notes_eq : entry.notes = other.notes

theorem SameTold.refl (entry : Entry) : SameTold entry entry := ⟨rfl, rfl, rfl⟩

/-- Reports that tell the same of each operation, with the same counters. -/
structure SameReport (report other : Report) : Prop where
  entries : List.Forall₂ SameTold report.entries other.entries
  count_eq : ∀ outcome, report.count outcome = other.count outcome

theorem sameReport_ofEntries {entries others : List Entry} (h : List.Forall₂ SameTold entries others) :
    SameReport (.ofEntries entries) (.ofEntries others) where
  entries := by rwa [Report.entries_ofEntries, Report.entries_ofEntries]
  count_eq := by
    intro outcome
    have houtcomes : entries.map (·.outcome) = others.map (·.outcome) :=
      map_eq_of_forall₂ h fun _ _ htold => htold.outcome_eq
    rw [Report.count_ofEntries, Report.count_ofEntries]
    calc entries.countP (fun entry => entry.outcome = outcome)
        = (entries.map (·.outcome)).countP (· = outcome) := by rw [List.countP_map]; rfl
      _ = (others.map (·.outcome)).countP (· = outcome) := by rw [houtcomes]
      _ = others.countP (fun entry => entry.outcome = outcome) := by rw [List.countP_map]; rfl

/-- Two ends of which both are failures, or both are successes with values that belong together. -/
inductive SameEnd {α : Type} (together : α → α → Prop) : Except Failure α → Except Failure α → Prop
  | ok {first second : α} (h : together first second) : SameEnd together (.ok first) (.ok second)
  | error (failure other : Failure) : SameEnd together (.error failure) (.error other)

/-- Trees that are the same but for the modules of some operations, which differ in their names and in their
last lines. -/
structure Mirrors (destination : String) (files : FileTree)
    (operations : List (String × Method × Operation)) (style other : Style)
    (first second : FileTree) : Prop where
  current_eq : first.current = second.current
  elsewhere : ∀ location, (∀ operation ∈ operations, ∀ style,
    location ≠ placeIn destination files style operation) →
      first.kindAt? location = second.kindAt? location
  apart : ∀ operation ∈ operations,
    first.kindAt? (placeIn destination files other operation) = none ∧
      second.kindAt? (placeIn destination files style operation) = none
  modules : ∀ operation ∈ operations,
    first.kindAt? (placeIn destination files style operation) = none ∧
        second.kindAt? (placeIn destination files other operation) = none ∨
      ∃ body : String,
        first.kindAt? (placeIn destination files style operation) =
            some (.file (body ++ lastLine style operation.2.1).toUTF8) ∧
          second.kindAt? (placeIn destination files other operation) =
            some (.file (body ++ lastLine other operation.2.1).toUTF8)

/-- A tree mirrors itself where it has no modules. -/
theorem Mirrors.refl (destination : String) (files : FileTree) (style other : Style) :
    Mirrors destination files [] style other files files :=
  ⟨rfl, fun _ _ => rfl, fun _ hmem => (List.not_mem_nil hmem).elim,
    fun _ hmem => (List.not_mem_nil hmem).elim⟩

/-- Trees mirror each other after changes that do the same elsewhere and leave the places of the modules. -/
theorem Mirrors.applyAll {destination : String} {files first second : FileTree}
    {operations : List (String × Method × Operation)} {style other : Style} {seen : Location → Prop}
    {changes : List Change} (h : Mirrors destination files operations style other first second)
    (halike : FileTree.AlikeOn seen first second) (hputs : FileTree.PutsWithin seen changes)
    (hfirst : ∀ operation ∈ operations, ∀ style,
      (first.applyAll changes).kindAt? (placeIn destination files style operation) =
        first.kindAt? (placeIn destination files style operation))
    (hsecond : ∀ operation ∈ operations, ∀ style,
      (second.applyAll changes).kindAt? (placeIn destination files style operation) =
        second.kindAt? (placeIn destination files style operation)) :
    Mirrors destination files operations style other (first.applyAll changes)
      (second.applyAll changes) := by
  refine ⟨?_, fun location hnone => halike.kindAt?_applyAll hputs (h.elsewhere location hnone),
    fun operation hmem => ?_, fun operation hmem => ?_⟩
  · rw [FileTree.current_applyAll, FileTree.current_applyAll, h.current_eq]
  · rw [hfirst operation hmem, hsecond operation hmem]
    exact h.apart operation hmem
  · rw [hfirst operation hmem, hsecond operation hmem]
    exact h.modules operation hmem

namespace Emitter

variable {emitter : Emitter} {style other : Style} {components : Components}
  {files first second tree : FileTree} {jobs rest : List Job} {job : Job} {path : String}
  {entries more : List Entry} {document : Document}

theorem made?_inStyle (emitter : Emitter) (style : Style) (job : Job) :
    (emitter.inStyle style).made? job = emitter.made? job := by
  cases job <;> rfl

theorem jobWay_inStyle (emitter : Emitter) (style : Style) (files : FileTree) :
    (emitter.inStyle style).jobWay files = emitter.jobWay files := by
  funext job
  cases job <;> rfl

/-- The operation whose module stands in the place of an operation's after some jobs. -/
def winnerOf (emitter : Emitter) (jobs : List Job) (operation : String × Method × Operation) :
    Option (String × Method × Operation) :=
  emitter.policy.winner ((jobs.flatMap Job.operations).filter fun other =>
    placeKey other = placeKey operation)

theorem placeKey_of_winnerOf {operation found : String × Method × Operation}
    (h : emitter.winnerOf jobs operation = some found) : placeKey found = placeKey operation := by
  have hmem : found ∈ (jobs.flatMap Job.operations).filter fun other =>
      placeKey other = placeKey operation := by
    rw [winnerOf] at h
    cases hpolicy : emitter.policy with
    | skipExisting =>
        rw [hpolicy] at h
        exact List.mem_of_mem_head? h
    | overwrite =>
        rw [hpolicy] at h
        exact List.mem_of_getLast? h
  exact of_decide_eq_true (List.mem_filter.mp hmem).2

section

variable (hroomy : Roomy emitter.destination files document)
  (hreaches : (emitter.inStyle style).Reaches components files jobs entries tree)
  (hjobs : jobs ⊆ documentJobs document)

include hjobs in
theorem operations_subset : jobs.flatMap Job.operations ⊆ document.operations := by
  rw [← operations_documentJobs]
  intro operation hoperation
  obtain ⟨job, hjob, hmem⟩ := List.mem_flatMap.mp hoperation
  exact List.mem_flatMap.mpr ⟨job, hjobs hjob, hmem⟩

include hroomy

include hjobs in
theorem not_onWay {operation : String × Method × Operation} (hmem : operation ∈ document.operations)
    (style : Style) : placeIn emitter.destination files style operation ∉
      jobs.flatMap (emitter.jobWay files) := fun hway =>
  hroomy.off operation hmem style (mem_wayTo_of_module hroomy.free hjobs hway)

include hreaches

include hjobs in
/-- In the place of a module is that of the operation that counts. -/
theorem kindAt?_placeIn {operation : String × Method × Operation}
    (hmem : operation ∈ document.operations) :
    tree.kindAt? (placeIn emitter.destination files style operation) =
      (emitter.winnerOf jobs operation).bind fun found =>
        ((emitter.inStyle style).scaffold? components found).map scaffoldKind := by
  have hscaffolds : (entries.map (·.scaffold)).map some =
      (jobs.flatMap Job.operations).map ((emitter.inStyle style).scaffold? components) := by
    rw [List.map_map]
    exact hreaches.doneAll.scaffolds_eq
  have hwinner := congrArg emitter.policy.winner
    (map_scaffoldsAt_placeOf files hscaffolds operation)
  rw [Policy.winner_map, Policy.winner_map] at hwinner
  have hway : placeIn emitter.destination files style operation ∉
      jobs.flatMap ((emitter.inStyle style).jobWay files) := by
    rw [jobWay_inStyle]
    exact not_onWay hroomy hjobs hmem style
  -- no way goes through the place, so the modules that have it decide what is there
  have hsettled : tree.kindAt? (placeIn emitter.destination files style operation) =
      (emitter.policy.winner (scaffoldsAt files (entries.map (·.scaffold))
        (placeIn emitter.destination files style operation))).map scaffoldKind := by
    rw [hreaches.settled.kindAt?_eq, hroomy.vacant operation hmem style]
    exact Policy.settle_vacant hway
  rw [hsettled, winnerOf]
  change (emitter.policy.winner (scaffoldsAt files (entries.map (·.scaffold))
    (placeIn emitter.destination files style operation))).map some = _ at hwinner
  cases hcounts : emitter.policy.winner ((jobs.flatMap Job.operations).filter fun other =>
      placeKey other = placeKey operation) with
  | none =>
      rw [hcounts, Option.map_none, Option.map_eq_none_iff] at hwinner
      rw [hwinner]
      rfl
  | some found =>
      rw [hcounts, Option.map_some, Option.map_eq_some_iff] at hwinner
      obtain ⟨scaffold, hwinner, hscaffold⟩ := hwinner
      rw [hwinner, Option.bind_some, ← hscaffold]

include hjobs in
/-- No module of another style is written. -/
theorem kindAt?_other_style (hne : style ≠ other) {operation : String × Method × Operation}
    (hmem : operation ∈ document.operations) :
    tree.kindAt? (placeIn emitter.destination files other operation) = none := by
  have hnone : ∀ before ∈ jobs.flatMap Job.operations,
      files.locationOf (emitter.inStyle style).destination ++
          (emitter.inStyle style).moduleNames before ≠
        placeIn emitter.destination files other operation := by
    intro before _ heq
    have hnames := (List.append_inj' (List.append_cancel_left heq) rfl).2
    exact Scaffold.fileName_ne hne _ _ (List.cons.inj hnames).1
  rw [hreaches.kindAt?_of_no_module hnone, hroomy.vacant operation hmem other, jobWay_inStyle,
    if_neg (not_onWay hroomy hjobs hmem other)]
  rfl

/-- Making a directory leaves the places of the modules as they are. -/
theorem kindAt?_placeIn_of_made (hjob : job ∈ documentJobs document) (hmade : emitter.made? job = some path)
    {operation : String × Method × Operation} (hmem : operation ∈ document.operations) (kind : Style) :
    (tree.applyAll (tree.makeDirectories path).changes).kindAt?
        (placeIn emitter.destination files kind operation) =
      tree.kindAt? (placeIn emitter.destination files kind operation) := by
  obtain ⟨created, hcreated, hgrows⟩ := FileTree.makeDirectories_grows tree path _ List.prefix_rfl
  rw [hgrows.kindAt?_eq, if_neg]
  rintro ⟨-, hway⟩
  have hsub : [job] ⊆ documentJobs document := List.cons_subset.mpr ⟨hjob, List.nil_subset _⟩
  refine not_onWay hroomy hsub hmem kind ?_
  rw [List.flatMap_singleton, jobWay_of_made hmade, ← FileTree.wayTo_congr hreaches.covers.current_eq]
  exact hcreated hway

end

/-! ## Emitting in both styles -/

/-- Emitting two scaffolds ends the same way where their files lead to the same. -/
theorem emitEffect_of_sibling (policy : Policy) (scaffold same : Scaffold) {first second : FileTree}
    {name other : String}
    (hspot : Sibling name other (first.spot scaffold.file) (second.spot same.file))
    (hslash : Files.endsInSlash scaffold.file = false)
    (hslashSame : Files.endsInSlash same.file = false) :
    (∃ outcome, (emitEffect policy scaffold first).result = .ok outcome ∧
        (emitEffect policy same second).result = .ok outcome) ∨
      ∃ failure fault, emitEffect policy scaffold first = ⟨.error failure, []⟩ ∧
        emitEffect policy same second = ⟨.error fault, []⟩ := by
  cases policy with
  | skipExisting =>
      simp only [emitEffect, writeNewEffect, FileTree.exists?_eq, FileTree.writeNew_eq, hslash,
        hslashSame]
      generalize first.spot scaffold.file = found at hspot ⊢
      generalize second.spot same.file = foundSame at hspot ⊢
      cases hspot with
      | error fault => cases fault <;> simp
      | there directory isDirectory => simp
      | free directory => simp
  | overwrite =>
      simp only [emitEffect, overwriteEffect, FileTree.exists?_eq, FileTree.write_eq, hslash,
        hslashSame]
      generalize first.spot scaffold.file = found at hspot ⊢
      generalize second.spot same.file = foundSame at hspot ⊢
      cases hspot with
      | error fault => simp
      | there directory isDirectory => cases isDirectory <;> simp
      | free directory => simp

/-- Jobs of which the last one fails. -/
theorem performAllEffect_concat_error {failure : Failure}
    (h : emitter.Reaches components files jobs entries tree)
    (hjob : (emitter.performEffect components tree job).result = .error failure) :
    (emitter.performAllEffect components files (jobs ++ [job])).result = .error failure ∧
      (emitter.performAllEffect components files (jobs ++ [job])).after files =
        (emitter.performEffect components tree job).after tree := by
  rw [performAllEffect_append h, performAllEffect_cons_error [] hjob]
  refine ⟨rfl, ?_⟩
  rw [Effect.after_behind, ← h.after_eq]
  rfl

/-! ## Two runs beside each other -/

section

variable (hroomy : Roomy emitter.destination files document)
  (hfirst : (emitter.inStyle style).Reaches components files jobs entries first)
  (hsecond : (emitter.inStyle other).Reaches components files jobs more second)

include hroomy hfirst hsecond

theorem mirrors_of_reaches (hne : style ≠ other) (hjobs : jobs ⊆ documentJobs document) :
    Mirrors emitter.destination files document.operations style other first second := by
  refine ⟨hfirst.covers.current_eq.trans hsecond.covers.current_eq.symm, fun location hnone => ?_,
    fun operation hmem => ⟨kindAt?_other_style hroomy hfirst hjobs hne hmem,
      kindAt?_other_style hroomy hsecond hjobs hne.symm hmem⟩, fun operation hmem => ?_⟩
  · -- no module of either style has its place here, and the ways are the same
    have hplaces : ∀ kind, ∀ before ∈ jobs.flatMap Job.operations,
        files.locationOf (emitter.inStyle kind).destination ++
          (emitter.inStyle kind).moduleNames before ≠ location := fun kind before hbefore =>
      Ne.symm (hnone before (operations_subset hjobs hbefore) kind)
    rw [hfirst.kindAt?_of_no_module (hplaces style), hsecond.kindAt?_of_no_module (hplaces other),
      jobWay_inStyle, jobWay_inStyle]
  · -- one operation counts in both styles
    rw [kindAt?_placeIn hroomy hfirst hjobs hmem, kindAt?_placeIn hroomy hsecond hjobs hmem]
    cases hwinner : emitter.winnerOf jobs operation with
    | none => exact .inl ⟨rfl, rfl⟩
    | some found =>
        have hmethod : found.2.1 = operation.2.1 :=
          (Prod.mk.inj (placeKey_of_winnerOf hwinner)).2
        rw [← hmethod]
        obtain ⟨template, method, operation⟩ := found
        rw [Option.bind_some, Option.bind_some, scaffold?, scaffold?]
        change ((Route.of? emitter.destination template).map _).map _ = none ∧
          ((Route.of? emitter.destination template).map _).map _ = none ∨ ∃ body : String,
            ((Route.of? emitter.destination template).map _).map _ = _ ∧
              ((Route.of? emitter.destination template).map _).map _ = _
        cases Route.of? emitter.destination template with
        | none => exact .inl ⟨rfl, rfl⟩
        | some route =>
            refine .inr ⟨String.ofList (((emitter.inStyle style).scaffoldOf components route
              method operation).bodyChars), ?_, ?_⟩
            · rw [Option.map_some, Option.map_some, scaffoldKind, Scaffold.text_eq]
              rfl
            · rw [Option.map_some, Option.map_some, scaffoldKind, Scaffold.text_eq]
              rfl

/-- Where a directory is made next, both trees are alike. -/
theorem alikeOn_of_made (hcut : documentJobs document = jobs ++ job :: rest)
    (hmade : emitter.made? job = some path) :
    FileTree.AlikeOn (· ∈ files.visits path) first second := by
  refine ⟨hfirst.covers.current_eq.trans hsecond.covers.current_eq.symm,
    fun location hvisited => ?_⟩
  cases job with
  | destination =>
      obtain rfl := eq_nil_of_documentJobs hcut
      rw [← hfirst.after_eq, ← hsecond.after_eq]
      rfl
  | scaffold template method operation => cases hmade
  | route template =>
      obtain ⟨route, hroute, rfl⟩ := Option.map_eq_some_iff.mp hmade
      obtain ⟨hdirectory, hnames⟩ := directory_eq hroute
      have hdestination := destination_mem_of_documentJobs hcut rfl
      rw [hdirectory] at hvisited
      rcases List.mem_cons.mp hvisited with hstart | hway
      · rw [hstart, below, files.startOf_pushNames _ hnames, String.ofList_toList]
        exact (hfirst.shapeAt?_start hdestination).trans (hsecond.shapeAt?_start hdestination).symm
      rcases (files.mem_wayTo_below _ hnames).mp hway with hway | ⟨names, -, hfront, rfl⟩
      · -- the way to the destination was made
        have hmem : ∀ kind, location ∈ jobs.flatMap ((emitter.inStyle kind).jobWay files) :=
          fun kind => List.mem_flatMap.mpr ⟨.destination, hdestination, hway⟩
        rw [FileTree.shapeAt?, FileTree.shapeAt?, hfirst.settled.way _ (hmem style),
          hsecond.settled.way _ (hmem other)]
      · -- below the destination no module is in the way of a route
        have htemplate : template ∈ document.paths.map (·.1) :=
          route_mem_documentJobs.mp (by simp [hcut])
        have hnone : ∀ kind, ∀ before ∈ jobs.flatMap Job.operations,
            files.locationOf (emitter.inStyle kind).destination ++
              (emitter.inStyle kind).moduleNames before ≠
                files.locationOf emitter.destination ++ names := fun kind before _ heq =>
          module_ne_names hroomy.free htemplate hfront (List.append_cancel_left heq)
        rw [FileTree.shapeAt?, FileTree.shapeAt?, hfirst.kindAt?_of_no_module (hnone style),
          hsecond.kindAt?_of_no_module (hnone other), jobWay_inStyle, jobWay_inStyle]

variable (hne : style ≠ other)

include hne

/-- A job that makes a directory ends the same way in both styles, and the trees still mirror each other. -/
theorem performEffect_of_made_inStyle (hcut : documentJobs document = jobs ++ job :: rest)
    (hmade : emitter.made? job = some path) :
    (emitter.inStyle style).performEffect components first job =
        (emitter.inStyle other).performEffect components second job ∧
      Mirrors emitter.destination files document.operations style other
        (((emitter.inStyle style).performEffect components first job).after first)
        (((emitter.inStyle other).performEffect components second job).after second) := by
  have halike := alikeOn_of_made hroomy hfirst hsecond hcut hmade
  have hjobs : jobs ⊆ documentJobs document := hcut ▸ List.subset_append_left _ _
  have hjob : job ∈ documentJobs document := hcut ▸ List.mem_append_right _ List.mem_cons_self
  obtain ⟨hchanges, hputs⟩ := halike.makeDirectories_eq fun visited hvisited => by
    rwa [FileTree.visits_congr hfirst.covers.current_eq] at hvisited
  rw [performEffect_of_made ((made?_inStyle emitter style job).trans hmade),
    performEffect_of_made ((made?_inStyle emitter other job).trans hmade)]
  refine ⟨by rw [Action.makeDirectoriesEffect, Action.makeDirectoriesEffect, hchanges], ?_⟩
  have hmirrors := mirrors_of_reaches hroomy hfirst hsecond hne hjobs
  show Mirrors _ _ _ _ _ (first.applyAll (first.makeDirectories path).changes)
    (second.applyAll (second.makeDirectories path).changes)
  have hplaces : ∀ operation ∈ document.operations, ∀ kind,
      (second.applyAll (first.makeDirectories path).changes).kindAt?
          (placeIn emitter.destination files kind operation) =
        second.kindAt? (placeIn emitter.destination files kind operation) := by
    rw [hchanges]
    exact fun operation hmem => kindAt?_placeIn_of_made hroomy hsecond hjob hmade hmem
  rw [← hchanges]
  exact hmirrors.applyAll halike hputs
    (fun operation hmem => kindAt?_placeIn_of_made hroomy hfirst hjob hmade hmem) hplaces

/-- The paths of the modules of an operation lead to the same. -/
theorem spot_sibling_of_scaffold {template : String} {method : Method} {operation : Operation}
    {route : Route}
    (hcut : documentJobs document = jobs ++ .scaffold template method operation :: rest)
    (hroute : Route.of? emitter.destination template = some route) :
    Sibling (fileName method style) (fileName method other)
      (first.spot (Files.join route.directory (fileName method style)))
      (second.spot (Files.join route.directory (fileName method other))) := by
  have hdestination := destination_mem_of_documentJobs hcut rfl
  have hmade := route_mem_of_documentJobs hcut
  have hmem : (template, method, operation) ∈ document.operations := by
    rw [← operations_documentJobs, hcut]
    simp [Job.operations]
  have hjobs : jobs ⊆ documentJobs document := hcut ▸ List.subset_append_left _ _
  -- the directory of the route was made, so both trees lead there alike
  have halike : FileTree.AlikeOn (· ∈ first.visits route.directory) first second := by
    refine ⟨hfirst.covers.current_eq.trans hsecond.covers.current_eq.symm, fun location hvisited => ?_⟩
    rw [FileTree.visits_congr hfirst.covers.current_eq] at hvisited
    exact (hfirst.shapeAt?_route hdestination hmade hroute hvisited).trans
      (hsecond.shapeAt?_route hdestination hmade hroute hvisited).symm
  have hplace : ∀ kind, first.locationOf route.directory ++ [fileName method kind] =
      placeIn emitter.destination files kind (template, method, operation) := by
    intro kind
    obtain ⟨hdirectory, hnames⟩ := directory_eq hroute
    rw [FileTree.locationOf_congr hfirst.covers.current_eq, hdirectory,
      files.locationOf_below _ hnames, placeIn, List.append_assoc]
  refine FileTree.spot_sibling (Scaffold.isName_fileName method style)
    (Scaffold.isName_fileName method other) (Scaffold.fileName_sibling style other method)
    (Scaffold.nul_not_mem_fileName style method) (Scaffold.nul_not_mem_fileName other method) halike ?_
  rw [hplace, hplace, FileTree.shapeAt?, FileTree.shapeAt?]
  -- in their places is nothing in both trees, or a module in both
  rcases (mirrors_of_reaches hroomy hfirst hsecond hne hjobs).modules _ hmem with
    ⟨hnone, hnoneOther⟩ | ⟨body, hfile, hfileOther⟩
  · rw [hnone, hnoneOther]
  · rw [hfile, hfileOther]
    rfl

/-- Emitting the module of an operation ends the same way in both styles, and the trees it leaves mirror each
other. -/
theorem performEffect_of_scaffold_inStyle {template : String} {method : Method} {operation : Operation}
    {route : Route}
    (hcut : documentJobs document = jobs ++ .scaffold template method operation :: rest)
    (hroute : Route.of? emitter.destination template = some route) :
    SameEnd (List.Forall₂ SameTold)
        ((emitter.inStyle style).performEffect components first
          (.scaffold template method operation)).result
        ((emitter.inStyle other).performEffect components second
          (.scaffold template method operation)).result ∧
      Mirrors emitter.destination files document.operations style other
        (((emitter.inStyle style).performEffect components first
          (.scaffold template method operation)).after first)
        (((emitter.inStyle other).performEffect components second
          (.scaffold template method operation)).after second) := by
  have heffect : ∀ kind tree, (emitter.inStyle kind).performEffect components tree
      (.scaffold template method operation) =
        (emitEffect emitter.policy ((emitter.inStyle kind).scaffoldOf components route method
          operation) tree).map fun outcome =>
            [(emitter.inStyle kind).entryOf components route method operation outcome] := by
    intro kind tree
    have hfound : Route.of? (emitter.inStyle kind).destination template = some route := hroute
    exact performEffect_of_route hfound tree
  have hslash : ∀ kind, Files.endsInSlash
      ((emitter.inStyle kind).scaffoldOf components route method operation).file = false := fun kind =>
    Files.endsInSlash_join (Scaffold.isName_fileName method kind) route.directory
  have hspot : Sibling (fileName method style) (fileName method other)
      (first.spot ((emitter.inStyle style).scaffoldOf components route method operation).file)
      (second.spot ((emitter.inStyle other).scaffoldOf components route method operation).file) :=
    spot_sibling_of_scaffold hroomy hfirst hsecond hne hcut hroute
  rcases emitEffect_of_sibling emitter.policy _ _ hspot (hslash style) (hslash other) with
    ⟨outcome, hresult, hresultOther⟩ | ⟨failure, fault, hfails, hfailsOther⟩
  · -- both are emitted, and the trees are reached by one job more
    have hown : ((emitter.inStyle style).performEffect components first
        (.scaffold template method operation)).result =
          .ok [(emitter.inStyle style).entryOf components route method operation outcome] := by
      rw [heffect, Effect.map, hresult]
      rfl
    have hsame : ((emitter.inStyle other).performEffect components second
        (.scaffold template method operation)).result =
          .ok [(emitter.inStyle other).entryOf components route method operation outcome] := by
      rw [heffect, Effect.map, hresultOther]
      rfl
    have hjobs : jobs ++ [.scaffold template method operation] ⊆ documentJobs document := by
      rw [hcut, List.append_cons jobs _ rest]
      exact List.subset_append_left _ _
    refine ⟨?_, mirrors_of_reaches hroomy (hfirst.concat hown) (hsecond.concat hsame) hne hjobs⟩
    rw [hown, hsame]
    exact .ok (.cons ⟨rfl, rfl, rfl⟩ .nil)
  · -- neither is, and the trees stay as the jobs before left them
    rw [heffect, heffect, hfails, hfailsOther]
    exact ⟨.error _ _, mirrors_of_reaches hroomy hfirst hsecond hne
      (hcut ▸ List.subset_append_left _ _)⟩

/-- Each job ends the same way in both styles, and the trees it leaves mirror each other. -/
theorem performEffect_inStyle (hcut : documentJobs document = jobs ++ job :: rest) :
    SameEnd (List.Forall₂ SameTold) ((emitter.inStyle style).performEffect components first job).result
        ((emitter.inStyle other).performEffect components second job).result ∧
      Mirrors emitter.destination files document.operations style other
        (((emitter.inStyle style).performEffect components first job).after first)
        (((emitter.inStyle other).performEffect components second job).after second) := by
  cases hmade : emitter.made? job with
  | some path =>
      obtain ⟨heq, hafter⟩ := performEffect_of_made_inStyle hroomy hfirst hsecond hne hcut hmade
      refine ⟨?_, hafter⟩
      rw [← heq]
      cases ((emitter.inStyle style).performEffect components first job).result with
      | ok own => exact .ok (List.forall₂_same.mpr fun entry _ => .refl entry)
      | error failure => exact .error failure failure
  | none =>
      -- where the route would leave the destination the job fails in both styles
      have hescapes : ∀ {template}, job.template? = some template →
          Route.of? emitter.destination template = none →
            SameEnd (List.Forall₂ SameTold)
                ((emitter.inStyle style).performEffect components first job).result
                ((emitter.inStyle other).performEffect components second job).result ∧
              Mirrors emitter.destination files document.operations style other
                (((emitter.inStyle style).performEffect components first job).after first)
                (((emitter.inStyle other).performEffect components second job).after second) := by
        intro template hjob hroute
        have hleaves : ∀ kind, Route.of? (emitter.inStyle kind).destination template = none :=
          fun _ => hroute
        rw [performEffect_of_escape hjob (hleaves style), performEffect_of_escape hjob (hleaves other)]
        exact ⟨.error _ _, mirrors_of_reaches hroomy hfirst hsecond hne
          (hcut ▸ List.subset_append_left _ _)⟩
      cases job with
      | destination => cases hmade
      | route template => exact hescapes rfl (Option.map_eq_none_iff.mp hmade)
      | scaffold template method operation =>
          cases hroute : Route.of? emitter.destination template with
          | none => exact hescapes rfl hroute
          | some route =>
              exact performEffect_of_scaffold_inStyle hroomy hfirst hsecond hne hcut hroute

end

/-- The first jobs of a document succeed in both styles, or fail in both. -/
theorem front_inStyle (components : Components)
    (hroomy : Roomy emitter.destination files document) (hne : style ≠ other)
    (hcut : documentJobs document = jobs ++ rest) :
    (∃ entries more first second, (emitter.inStyle style).Reaches components files jobs entries first ∧
        (emitter.inStyle other).Reaches components files jobs more second ∧
          List.Forall₂ SameTold entries more) ∨
      ∃ failure fault,
        ((emitter.inStyle style).performAllEffect components files jobs).result = .error failure ∧
        ((emitter.inStyle other).performAllEffect components files jobs).result = .error fault ∧
        Mirrors emitter.destination files document.operations style other
          (((emitter.inStyle style).performAllEffect components files jobs).after files)
          (((emitter.inStyle other).performAllEffect components files jobs).after files) := by
  induction jobs using List.reverseRecOn generalizing rest with
  | nil => exact .inl ⟨[], [], files, files, reaches_nil files, reaches_nil files, .nil⟩
  | append_singleton jobs last ih =>
      rw [List.append_assoc, List.singleton_append] at hcut
      rcases ih hcut with ⟨entries, more, first, second, hfirst, hsecond, htold⟩ |
        ⟨failure, fault, hfails, hfailsOther, hmirrors⟩
      · -- the jobs before succeed in both styles, so the last one decides
        obtain ⟨hends, hmirrors⟩ := performEffect_inStyle hroomy hfirst hsecond hne hcut
        cases hown : ((emitter.inStyle style).performEffect components first last).result with
        | ok own =>
            cases hsame : ((emitter.inStyle other).performEffect components second last).result with
            | ok same =>
                rw [hown, hsame] at hends
                cases hends with
                | ok h =>
                    exact .inl ⟨_, _, _, _, hfirst.concat hown, hsecond.concat hsame,
                      List.rel_append htold h⟩
            | error fault =>
                rw [hown, hsame] at hends
                cases hends
        | error failure =>
            cases hsame : ((emitter.inStyle other).performEffect components second last).result with
            | ok same =>
                rw [hown, hsame] at hends
                cases hends
            | error fault =>
                obtain ⟨hresult, hafter⟩ := performAllEffect_concat_error hfirst hown
                obtain ⟨hresultOther, hafterOther⟩ := performAllEffect_concat_error hsecond hsame
                rw [hafter, hafterOther]
                exact .inr ⟨failure, fault, hresult, hresultOther, hmirrors⟩
      · rw [performAllEffect_append_error hfails, performAllEffect_append_error hfailsOther]
        exact .inr ⟨failure, fault, hfails, hfailsOther, hmirrors⟩

end Emitter

/-! ## Runs -/

/-- The operations of the document that a run reads; none when it reads none. -/
def Settings.operations (settings : Settings) (files : FileTree) : List (String × Method × Operation) :=
  match settings.document files with
  | .ok document => document.operations
  | .error _ => []

/-- Runs in two styles succeed or fail together, with the same outcome and the same notes for each operation
and the same counters, and leave trees that differ in the names and the last lines of the modules only.  The
places of the modules must be free in both styles. -/
theorem run_inStyle {settings : Settings} {files : FileTree} {style other : Style} (hne : style ≠ other)
    (hroomy : ∀ document, settings.document files = .ok document →
      Roomy settings.destination files document) :
    SameEnd SameReport (run (settings.inStyle style) files).result
        (run (settings.inStyle other) files).result ∧
      Mirrors settings.destination files (settings.operations files) style other
        (run (settings.inStyle style) files).workspace.files
        (run (settings.inStyle other) files).workspace.files := by
  rw [Settings.operations]
  cases hdocument : settings.document files with
  | error failure =>
      -- the style plays no part before there is a document
      have hunread : ∀ kind, (run (settings.inStyle kind) files).result = .error failure ∧
          (run (settings.inStyle kind) files).workspace.files = files := by
        intro kind
        obtain ⟨stage, log, -, hrun⟩ := run_of_document_error
          (show (settings.inStyle kind).document files = .error failure from hdocument)
        rw [hrun]
        exact ⟨rfl, rfl⟩
      rw [(hunread style).1, (hunread style).2, (hunread other).1, (hunread other).2]
      exact ⟨.error failure failure, .refl ..⟩
  | ok document =>
      have hrun : ∀ kind,
          (run (settings.inStyle kind) files).result =
              ((settings.emitter.inStyle kind).performAllEffect document.components files
                (documentJobs document)).result.map Report.ofEntries ∧
            (run (settings.inStyle kind) files).workspace.files =
              ((settings.emitter.inStyle kind).performAllEffect document.components files
                (documentJobs document)).after files := by
        intro kind
        obtain ⟨hresult, hleft, -⟩ := run_of_document
          (show (settings.inStyle kind).document files = .ok document from hdocument)
        exact ⟨hresult, hleft⟩
      rw [(hrun style).1, (hrun style).2, (hrun other).1, (hrun other).2]
      have hplaces : Roomy settings.emitter.destination files document := hroomy document hdocument
      rcases Emitter.front_inStyle document.components hplaces hne
          (List.append_nil (documentJobs document)).symm with
        ⟨entries, more, first, second, hfirst, hsecond, htold⟩ |
          ⟨failure, fault, hfails, hfailsOther, hmirrors⟩
      · rw [hfirst.result_eq, hsecond.result_eq, hfirst.after_eq, hsecond.after_eq]
        exact ⟨.ok (sameReport_ofEntries htold),
          Emitter.mirrors_of_reaches hplaces hfirst hsecond hne (List.Subset.refl _)⟩
      · rw [hfails, hfailsOther]
        exact ⟨.error failure fault, hmirrors⟩

theorem roomy_twin : Roomy twinSettings.destination twinFiles twinDocument where
  vacant := fun operation _ style => vacant_of_destination kindAt?_twinFiles style operation
  off := by
    intro operation _ style hway
    have hdestination : twinFiles.wayTo twinSettings.destination = [["out"]] := rfl
    rw [hdestination, List.mem_singleton] at hway
    have hlength := congrArg List.length hway
    simp [placeIn, show twinFiles.locationOf twinSettings.destination = ["out"] from rfl] at hlength
  free := by
    have hnames : templateNames "/a/" = ["a"] := by cbv
    intro template htemplate name hname method style
    have ha : name = "a" := by
      rcases List.mem_pair.mp htemplate with rfl | rfl
      · rwa [templateNames_pair.1, List.mem_singleton] at hname
      · rwa [hnames, List.mem_singleton] at hname
    rw [ha]
    cases method <;> cases style <;> decide

/-- In both styles the first of two modules in one place is written and the second one is skipped. -/
theorem run_inStyle_twin :
    Style.staticExport ≠ Style.dynamicAssignment ∧
      Roomy twinSettings.destination twinFiles twinDocument ∧
      (run twinSettings twinFiles).result = .ok twinReport ∧
        ∃ again, (run (twinSettings.inStyle .dynamicAssignment) twinFiles).result = .ok again ∧
          SameReport twinReport again ∧
            Mirrors twinSettings.destination twinFiles (twinSettings.operations twinFiles)
              .staticExport .dynamicAssignment (run twinSettings twinFiles).workspace.files
              (run (twinSettings.inStyle .dynamicAssignment) twinFiles).workspace.files := by
  have hne : Style.staticExport ≠ Style.dynamicAssignment := by decide
  have hroomy : ∀ document, twinSettings.document twinFiles = .ok document →
      Roomy twinSettings.destination twinFiles document := by
    intro document hdocument
    cases document_twinFiles.symm.trans hdocument
    exact roomy_twin
  obtain ⟨hends, hmirrors⟩ := run_inStyle hne hroomy
  rw [show twinSettings.inStyle .staticExport = twinSettings from rfl] at hends hmirrors
  rw [run_twin] at hends
  refine ⟨hne, roomy_twin, run_twin, ?_⟩
  generalize (run (twinSettings.inStyle .dynamicAssignment) twinFiles).result = result at hends ⊢
  cases hends with
  | ok h => exact ⟨_, rfl, h, hmirrors⟩

/-! ## A destination that leads through the place of a module

The destination is the parent of a directory with the name of a module in one style.  Making the destination
makes that directory, so that in this style the module is skipped. -/

/-- A source with an operation on the root path. -/
def rootSource : String :=
  "\x7b\"openapi\":\"3.0.0\",\"info\":\x7b\"title\":\"\",\"version\":\"\"\x7d,\"paths\":" ++
    "\x7b\"/\":\x7b\"get\":\x7b\"responses\":\x7b\x7d\x7d\x7d\x7d\x7d"

/-- The tree of the source. -/
def rootJson : Json := pairTree [("/", twinItem)]

def rootDocument : Document where
  title := ""
  version := ""
  paths := [("/", { operations := [(.get, {})] })]

/-- The settings of a run to the parent of a directory. -/
def climbingSettings : Settings where
  source := "api.json"
  destination := "out/get.ts/.."

def climbingFiles : FileTree := oneFile "api.json" rootSource.toUTF8

/-- The tree after the destination was made. -/
def climbingOpened (contents : ByteArray) : FileTree where
  root := .dir [("api.json", .file contents), ("out", .dir [("get.ts", .dir [])])]

def climbingRoute : Route := ⟨"/", "/", "out/get.ts/.."⟩

/-- What is reported for the operation. -/
def climbingReport (style : Style) (outcome : Outcome) : Report :=
  .ofEntries [(climbingSettings.emitter.inStyle style).entryOf {} climbingRoute .get {} outcome]

theorem readJson_rootSource : Source.readJson rootSource = .ok rootJson := by
  rfl

theorem document_climbingFiles : climbingSettings.document climbingFiles = .ok rootDocument := by
  have hholds : climbingSettings.Holds climbingFiles rootJson :=
    holds_oneFile (fun _ => rfl) readJson_rootSource
  have hcheck : OpenApi.checkDescription rootJson = .ok () := by cbv
  exact document_of_holds hholds (OpenApi.describe_of_check hcheck) (by simp [climbingSettings]) rfl

theorem route_climbing :
    Route.of? climbingSettings.emitter.destination "/" = some climbingRoute := by
  cbv

theorem makeDirectories_climbing (contents : ByteArray) :
    (oneFile "api.json" contents).makeDirectories "out/get.ts/.." =
      { changes := [.makeDirectory ["out"], .makeDirectory ["out", "get.ts"]] } := by
  have hparents : Files.parents "out/get.ts/..".toList = ["out/get.ts".toList, "out".toList, []] := by
    rfl
  have hmissing : ∀ path ∈ ["out/get.ts/..".toList, "out/get.ts".toList],
      (oneFile "api.json" contents).makeDirectory (String.ofList path) = .error .notFound := by
    intro path hpath
    rcases List.mem_pair.mp hpath with rfl | rfl <;> rfl
  have houter : (oneFile "api.json" contents).makeWithin "out".toList [[]] =
      { changes := [.makeDirectory ["out"]] } := by
    have hmake : (oneFile "api.json" contents).makeDirectory (String.ofList "out".toList) =
        .ok (.makeDirectory ["out"]) := rfl
    rw [FileTree.makeWithin, hmake]
    rfl
  have hinner : (oneFile "api.json" contents).makeWithin "out/get.ts".toList ["out".toList, []] =
      { changes := [.makeDirectory ["out"], .makeDirectory ["out", "get.ts"]] } := by
    have hgrown : ((oneFile "api.json" contents).applyAll [.makeDirectory ["out"]]).makeDirectory
        (String.ofList "out/get.ts".toList) = .ok (.makeDirectory ["out", "get.ts"]) := rfl
    rw [FileTree.makeWithin, hmissing _ (by simp), houter]
    dsimp only
    rw [hgrown]
    rfl
  -- the path itself leads back to a directory that is there by then
  have hthere : ((oneFile "api.json" contents).applyAll [.makeDirectory ["out"],
      .makeDirectory ["out", "get.ts"]]).makeDirectory (String.ofList "out/get.ts/..".toList) =
        .error .alreadyExists := rfl
  rw [FileTree.makeDirectories, hparents, FileTree.makeWithin, hmissing _ (by simp), hinner]
  dsimp only
  rw [hthere]
  rfl

/-- The jobs before the scaffold make the destination. -/
theorem reaches_climbing (style : Style) (contents : ByteArray) :
    (climbingSettings.emitter.inStyle style).Reaches {} (oneFile "api.json" contents)
      [.destination, .route "/"] [] (climbingOpened contents) := by
  have hdestination : (climbingSettings.emitter.inStyle style).performEffect {}
      (oneFile "api.json" contents) .destination =
        ⟨.ok [], [.makeDirectory ["out"], .makeDirectory ["out", "get.ts"]]⟩ := by
    have hmade := makeDirectories_climbing contents
    rw [Emitter.performEffect_of_made
      (show (climbingSettings.emitter.inStyle style).made? .destination = some "out/get.ts/.." from rfl),
      Action.makeDirectoriesEffect, hmade]
    rfl
  have hroute : (climbingSettings.emitter.inStyle style).performEffect {} (climbingOpened contents)
      (.route "/") = ⟨.ok [], []⟩ := by
    have hmade : (climbingSettings.emitter.inStyle style).made? (.route "/") =
        some "out/get.ts/.." := by
      show (Route.of? climbingSettings.emitter.destination "/").map (·.directory) = _
      rw [route_climbing]
      rfl
    have hthere : (climbingOpened contents).makeDirectories "out/get.ts/.." = {} :=
      FileTree.makeDirectories_of_isDirectory rfl rfl
    rw [Emitter.performEffect_of_made hmade, Action.makeDirectoriesEffect, hthere]
    rfl
  have hopened : (oneFile "api.json" contents).applyAll
      [.makeDirectory ["out"], .makeDirectory ["out", "get.ts"]] = climbingOpened contents := rfl
  constructor
  · rw [Emitter.performAllEffect_cons_of_eq _ hdestination hopened,
      Emitter.performAllEffect_cons_of_eq _ hroute rfl]
    rfl
  · rw [Emitter.performAllEffect_cons_of_eq _ hdestination hopened,
      Emitter.performAllEffect_cons_of_eq _ hroute rfl]
    rfl

/-- The run ends as emitting the module does. -/
theorem run_climbing {style : Style} {outcome : Outcome} {file : String}
    (hfile : Files.join "out/get.ts/.." (fileName .get style) = file)
    (hemit : ∀ contents (scaffold : Scaffold), scaffold.file = file →
      (Emitter.emitEffect .skipExisting scaffold (climbingOpened contents)).result = .ok outcome) :
    (run (climbingSettings.inStyle style) climbingFiles).result =
      .ok (climbingReport style outcome) := by
  have hdocument : (climbingSettings.inStyle style).document climbingFiles = .ok rootDocument :=
    document_climbingFiles
  have hroute : Route.of? (climbingSettings.emitter.inStyle style).destination "/" =
      some climbingRoute := route_climbing
  have hown : ((climbingSettings.emitter.inStyle style).performEffect {}
      (climbingOpened rootSource.toUTF8) (.scaffold "/" .get {})).result =
        .ok (climbingReport style outcome).entries := by
    have hemitted : (Emitter.emitEffect (climbingSettings.emitter.inStyle style).policy
        ((climbingSettings.emitter.inStyle style).scaffoldOf {} climbingRoute .get {})
        (climbingOpened rootSource.toUTF8)).result = .ok outcome := hemit _ _ hfile
    rw [Emitter.performEffect_of_route hroute, Effect.map, hemitted]
    rfl
  have hjobs := ((reaches_climbing style rootSource.toUTF8).concat hown).result_eq
  rw [(run_of_document hdocument).1]
  exact congrArg (Except.map Report.ofEntries) hjobs

theorem run_climbing_skipped : (run (climbingSettings.inStyle .staticExport) climbingFiles).result =
    .ok (climbingReport .staticExport .skipped) := by
  have hfile : Files.join "out/get.ts/.." (fileName .get .staticExport) = "out/get.ts/../get.ts" := by
    cbv
  refine run_climbing hfile fun contents scaffold hscaffold => ?_
  rw [Emitter.emitEffect, hscaffold]
  rfl

theorem run_climbing_written :
    (run (climbingSettings.inStyle .dynamicAssignment) climbingFiles).result =
      .ok (climbingReport .dynamicAssignment .written) := by
  have hfile : Files.join "out/get.ts/.." (fileName .get .dynamicAssignment) =
      "out/get.ts/../get.js" := by
    cbv
  refine run_climbing hfile fun contents scaffold hscaffold => ?_
  rw [Emitter.emitEffect, Emitter.writeNewEffect, hscaffold]
  generalize scaffold.text.toUTF8 = text
  rfl

/-- Nothing is at the destination, and the template takes no name of a module.  Still the module is skipped in
one style and written in the other. -/
theorem not_inStyle_climbing :
    climbingSettings.document climbingFiles = .ok rootDocument ∧
      climbingFiles.exists? climbingSettings.destination = false ∧
      climbingFiles.kindAt? (climbingFiles.locationOf climbingSettings.destination) = none ∧
      FreeOfModules (rootDocument.paths.map (·.1)) ∧
      (run (climbingSettings.inStyle .staticExport) climbingFiles).result =
        .ok (climbingReport .staticExport .skipped) ∧
      (run (climbingSettings.inStyle .dynamicAssignment) climbingFiles).result =
        .ok (climbingReport .dynamicAssignment .written) ∧
      ¬ List.Forall₂ SameTold (climbingReport .staticExport .skipped).entries
        (climbingReport .dynamicAssignment .written).entries := by
  have hvacant : ∀ contents, (oneFile "api.json" contents).exists? "out/get.ts/.." = false ∧
      (oneFile "api.json" contents).kindAt?
        ((oneFile "api.json" contents).locationOf "out/get.ts/..") = none := fun _ => ⟨rfl, rfl⟩
  have hfree : FreeOfModules (rootDocument.paths.map (·.1)) := by
    have hnames : templateNames "/" = [] := by cbv
    intro template htemplate name hname
    rw [List.mem_singleton.mp htemplate, hnames] at hname
    cases hname
  obtain ⟨hmissing, hnone⟩ := hvacant rootSource.toUTF8
  refine ⟨document_climbingFiles, hmissing, hnone, hfree, run_climbing_skipped, run_climbing_written,
    fun htold => ?_⟩
  obtain ⟨htold, -⟩ := List.forall₂_cons.mp htold
  cases htold.outcome_eq

end RouteScaffold.Run
