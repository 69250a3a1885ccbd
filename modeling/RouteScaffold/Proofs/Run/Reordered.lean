import RouteScaffold.Proofs.Document.Reordered
import RouteScaffold.Proofs.Run.Reaches
import RouteScaffold.Proofs.Run.Unaffected

/-!
# Documents in another order

The order of the paths of a document, and of the methods of each path, does not matter when the templates
take different names below the destination and none takes the name of a module (`run_reordered`).

What a job finds in the place of its module is then the same in each order (`kindAt?_place`): no other job
puts a module there, and no template leads through it.  So each operation has the same entry
(`map_entries_eq`).  A route can be made in the other order when it can in the first one: its path is short
enough and starts at a directory, and what stands on its way is a directory in the end, so that no file can
be there (`clear_route`).
-/

namespace RouteScaffold.Run

open Document (Components Operation SameUpToOrder)
open Files (FileTree Kind Location below)
open OpenApi (Method)
open Scaffold (Route fileName)

/-! ## Operations with places of their own -/

/-- When templates take different names and no path has a method twice, modules have different places. -/
theorem nodup_placeKey {document : Document}
    (htemplates : (document.paths.map fun path => templateNames path.1).Nodup)
    (hmethods : ∀ path ∈ document.paths, (path.2.operations.map (·.1)).Nodup) :
    (document.operations.map placeKey).Nodup := by
  rw [Document.operations, List.map_flatMap]
  refine List.nodup_flatMap.mpr ⟨fun path hpath => ?_, ?_⟩
  · have hpairs : ((path.2.operations.map (·.1)).map fun method =>
        (templateNames path.1, method)).Nodup :=
      (hmethods path hpath).map fun _ _ heq => (Prod.mk.inj heq).2
    rw [List.map_map] at hpairs
    rw [List.map_map]
    exact hpairs
  · rw [List.Nodup, List.pairwise_map] at htemplates
    refine htemplates.imp fun {first second} hne => ?_
    intro key hfirst hsecond
    obtain ⟨_, hmore, rfl⟩ := List.mem_map.mp hfirst
    obtain ⟨_, hother, heq⟩ := List.mem_map.mp hsecond
    obtain ⟨_, -, rfl⟩ := List.mem_map.mp hmore
    obtain ⟨_, -, rfl⟩ := List.mem_map.mp hother
    exact hne (Prod.mk.inj heq).1.symm

/-- A document whose modules keep out of the way of each other and of all directories below the
destination. -/
structure Uncrossed (document : Document) : Prop where
  nodup : (document.operations.map placeKey).Nodup
  free : FreeOfModules (document.paths.map (·.1))

theorem Uncrossed.perm {document other : Document} (h : Uncrossed document)
    (hsame : SameUpToOrder document other) : Uncrossed other :=
  ⟨(hsame.operations_perm.map placeKey).nodup_iff.mp h.nodup, fun template htemplate =>
    h.free template (hsame.templates_perm.mem_iff.mpr htemplate)⟩

namespace Emitter

variable {emitter : Emitter} {files middle tree : FileTree} {document other : Document}
  {done rest : List Job} {front entries : List Entry}

/-- What a job finds in the place of its module: what was there, or a directory on the way to the
destination. -/
def placed (emitter : Emitter) (files : FileTree) (operation : String × Method × Operation) :
    Option Kind :=
  (files.kindAt? (emitter.placeOf files operation)).or
    (if emitter.placeOf files operation ∈ files.wayTo emitter.destination then some .directory
      else none)

/-- The entry that is reported for an operation. -/
def entry? (emitter : Emitter) (components : Components) (files : FileTree)
    (operation : String × Method × Operation) : Option Entry :=
  (Route.of? emitter.destination operation.1).map fun route =>
    emitter.entryOf components route operation.2.1 operation.2.2
      (if emitter.placed files operation = none then .written else emitter.policy.repeated)

section

variable (huncrossed : Uncrossed document)
  (hdone : emitter.Reaches document.components files done front middle)

include huncrossed hdone

theorem kindAt?_place {template : String} {method : Method} {operation : Operation}
    (hcut : documentJobs document = done ++ .scaffold template method operation :: rest) :
    middle.kindAt? (emitter.placeOf files (template, method, operation)) =
      emitter.placed files (template, method, operation) := by
  have hnodup := huncrossed.nodup
  rw [← operations_documentJobs, hcut, List.flatMap_append, List.flatMap_cons, List.map_append,
    List.map_append, List.nodup_append] at hnodup
  -- the modules before it have other places
  have hnone : ∀ before ∈ done.flatMap Job.operations,
      files.locationOf emitter.destination ++ emitter.moduleNames before ≠
        emitter.placeOf files (template, method, operation) := by
    intro before hbefore heq
    have hkeys := moduleNames_eq_iff.mp (List.append_cancel_left heq)
    exact hnodup.2.2 _ (List.mem_map_of_mem hbefore) _
      (List.mem_append_left _ (List.mem_singleton.mpr rfl)) hkeys
  have hsub : done ⊆ documentJobs document := by
    rw [hcut]
    exact List.subset_append_left _ _
  have hway : emitter.placeOf files (template, method, operation) ∈
      done.flatMap (emitter.jobWay files) ↔
        emitter.placeOf files (template, method, operation) ∈ files.wayTo emitter.destination :=
    ⟨mem_wayTo_of_module huncrossed.free hsub, fun hmem =>
      List.mem_flatMap.mpr ⟨.destination, destination_mem_of_documentJobs hcut rfl, hmem⟩⟩
  rw [hdone.kindAt?_of_no_module hnone, placed]
  simp only [hway]

theorem map_own_eq {job : Job} {own : List Entry} (hcut : documentJobs document = done ++ job :: rest)
    (hown : (emitter.performEffect document.components middle job).result = .ok own) :
    own.map some = job.operations.map (emitter.entry? document.components files) := by
  have hjob := done_of_effect hown
  generalize (emitter.performEffect document.components middle job).after middle = after at hjob
  cases hjob with
  | destination hopens => rfl
  | route hroute hopens => rfl
  | scaffold hroute hemits =>
      rename_i template method operation route outcome
      have hplace := kindAt?_place huncrossed hdone hcut
      have hfile : middle.locationOf (emitter.scaffoldOf document.components route method
          operation).file = emitter.placeOf files (template, method, operation) := by
        rw [FileTree.locationOf_congr hdone.covers.current_eq]
        exact locationOf_of_scaffold? (by rw [scaffold?, hroute]; rfl) files
      -- the outcome depends on what is in the place when its turn comes, which is the same in each order
      have houtcome : outcome = if emitter.placed files (template, method, operation) = none then
          .written else emitter.policy.repeated := by
        rw [← hplace, ← hfile]
        cases hemits with
        | skipped hpolicy hthere =>
            rw [if_neg (FileTree.kindAt?_ne_none_of_exists? hthere), hpolicy]
            rfl
        | written hvacant hputs => rw [if_pos hvacant]
        | overwritten hpolicy hold hputs =>
            rw [if_neg (by simp [hold]), hpolicy]
            rfl
      rw [Job.operations, List.map_singleton, List.map_singleton, entry?, hroute, houtcome]
      rfl

end

/-- The entries of a document are those of its operations, in its order. -/
theorem map_entries_eq (huncrossed : Uncrossed document)
    (h : emitter.Reaches document.components files (documentJobs document) entries tree) :
    entries.map some = document.operations.map (emitter.entry? document.components files) := by
  rw [← operations_documentJobs]
  exact h.map_entries fun done job rest front middle own hcut hdone hown =>
    map_own_eq huncrossed hdone hcut hown

/-- At most one scaffold of a document goes to a location. -/
theorem scaffold_unique (huncrossed : Uncrossed document)
    (h : emitter.Reaches document.components files (documentJobs document) entries tree)
    {location : Location} {scaffold same : Scaffold}
    (hscaffold : scaffold ∈ scaffoldsAt files (entries.map (·.scaffold)) location)
    (hsame : same ∈ scaffoldsAt files (entries.map (·.scaffold)) location) : scaffold = same := by
  have hoperation : ∀ found ∈ scaffoldsAt files (entries.map (·.scaffold)) location,
      ∃ operation ∈ document.operations,
        emitter.scaffold? document.components operation = some found ∧
          emitter.placeOf files operation = location := by
    intro found hfound
    obtain ⟨hmem, hlocation⟩ := List.mem_filter.mp hfound
    obtain ⟨entry, hentry, rfl⟩ := List.mem_map.mp hmem
    obtain ⟨operation, hoperation, htold⟩ := h.doneAll.exists_operation hentry
    rw [operations_documentJobs] at hoperation
    exact ⟨operation, hoperation, htold,
      (locationOf_of_scaffold? htold files).symm.trans (of_decide_eq_true hlocation)⟩
  obtain ⟨first, hfirst, htold, hplace⟩ := hoperation scaffold hscaffold
  obtain ⟨second, hsecond, htoldSecond, hplaceSecond⟩ := hoperation same hsame
  have hkeys := moduleNames_eq_iff.mp (List.append_cancel_left (hplace.trans hplaceSecond.symm))
  obtain rfl := List.inj_on_of_nodup_map huncrossed.nodup hfirst hsecond hkeys
  exact Option.some.inj (htold.symm.trans htoldSecond)

/-! ## Each job succeeds in the other order -/

section

variable (huncrossed : Uncrossed document) (hsame : SameUpToOrder document other)
  (hfirst : emitter.Reaches document.components files (documentJobs document) entries tree)
  (hdone : emitter.Reaches document.components files done front middle)

include huncrossed hfirst hdone

/-- A location that a template leads through, and that is a directory in the end, is no file before. -/
theorem shapeAt?_ne_file {template : String} {names : List String}
    (htemplate : template ∈ document.paths.map (·.1)) (hnames : names <+: templateNames template)
    (hend : tree.kindAt? (files.locationOf emitter.destination ++ names) = some .directory) :
    middle.shapeAt? (files.locationOf emitter.destination ++ names) ≠ some false := by
  intro hfile
  have hkind := hdone.kindAt?_of_no_module fun before _ heq =>
    module_ne_names huncrossed.free htemplate hnames (List.append_cancel_left heq)
  rw [hfirst.settled.kindAt?_eq] at hend
  rcases Policy.settle_eq_directory hend with hold | ⟨hnew, -⟩
  · rw [FileTree.shapeAt?_eq_true.mpr (hdone.settled.directory _ hold)] at hfile
    cases hfile
  · rw [hnew, Option.none_or] at hkind
    rw [FileTree.shapeAt?, hkind] at hfile
    split at hfile <;> cases hfile

theorem clear_route {template : String} {route : Route}
    (hcut : documentJobs other = done ++ .route template :: rest)
    (hroute : Route.of? emitter.destination template = some route)
    (hjob : .route template ∈ documentJobs document) (hne : templateNames template ≠ []) :
    middle.Clear route.directory := by
  obtain ⟨hdirectory, hnames⟩ := directory_eq hroute
  have hmade : emitter.made? (.route template) = some route.directory := by
    rw [made?, hroute]
    rfl
  have hcurrent := hdone.covers.current_eq
  have hsteps : Files.steps route.directory =
      Files.steps emitter.destination ++ templateNames template := by
    rw [hdirectory, Files.steps_below _ hnames]
  have hdirectoryNe : route.directory ≠ "" := by
    intro hempty
    rw [hempty] at hsteps
    exact hne (List.append_eq_nil_iff.mp hsteps.symm).2
  obtain ⟨found, hfound⟩ := hfirst.spot_of_made hjob hmade hdirectoryNe
  have hpasses := FileTree.passes_of_spot hfound
  have hstart : files.startOf route.directory = files.startOf emitter.destination := by
    rw [hdirectory, below, files.startOf_pushNames _ hnames, String.ofList_toList]
  have hdestination := destination_mem_of_documentJobs hcut rfl
  refine ⟨hpasses, .inr ?_, ?_, ?_, fun location hlocation => ?_⟩
  · -- the path ends in a name
    rw [String.ofList_toList, hsteps, List.getLast?_append_of_ne_nil _ hne]
    intro hlast
    exact (hnames _ (List.mem_of_getLast? hlast)).ne_current rfl
  · rw [FileTree.spot_of_passes hpasses] at hfound
    exact FileTree.short_of_spotFrom hfound
  · -- the path starts at a directory, as it does in the end
    have hend := hfirst.shapeAt?_visits hjob hmade hdirectoryNe List.mem_cons_self
    rw [hstart, hfirst.shapeAt?_start List.mem_cons_self] at hend
    rw [FileTree.startOf_congr hcurrent, hstart, hdone.shapeAt?_start hdestination]
    exact hend
  · rw [FileTree.wayTo_congr hcurrent, hdirectory, files.mem_wayTo_below _ hnames] at hlocation
    rcases hlocation with hway | ⟨names, hnil, hbegins, rfl⟩
    · have hthere := hdone.settled.way location
        (List.mem_flatMap.mpr ⟨.destination, hdestination, hway⟩)
      rw [FileTree.shapeAt?_eq_true.mpr hthere]
      simp
    · refine shapeAt?_ne_file huncrossed hfirst hdone (route_mem_documentJobs.mp hjob) hbegins ?_
      refine hfirst.settled.way _ (List.mem_flatMap.mpr ⟨.route template, hjob, ?_⟩)
      rw [jobWay_of_made hmade, hdirectory, files.mem_wayTo_below _ hnames]
      exact .inr ⟨names, hnil, hbegins, rfl⟩

include hsame

theorem exists_own_route {template : String}
    (hcut : documentJobs other = done ++ .route template :: rest) :
    (emitter.performEffect document.components middle (.route template)).result = .ok [] := by
  have hmem : .route template ∈ documentJobs other := by simp [hcut]
  have hjob : .route template ∈ documentJobs document := by
    rw [route_mem_documentJobs] at hmem ⊢
    exact hsame.templates_perm.mem_iff.mpr hmem
  obtain ⟨route, hroute⟩ := hfirst.doneAll.exists_route hjob
  have hmade : emitter.made? (.route template) = some route.directory := by
    rw [made?, hroute]
    rfl
  refine ok_of_made hmade ?_
  by_cases hnil : templateNames template = []
  · -- the directory is the destination
    obtain ⟨hdirectory, -⟩ := directory_eq hroute
    rw [hnil, Files.below_nil] at hdirectory
    rw [hdirectory, hdone.makeDirectories_of_made (destination_mem_of_documentJobs hcut rfl) rfl]
  · exact (clear_route huncrossed hfirst hdone hcut hroute hjob hnil).makes

theorem exists_own_scaffold {template : String} {method : Method} {operation : Operation}
    (hcut : documentJobs other = done ++ .scaffold template method operation :: rest) :
    ∃ own, (emitter.performEffect document.components middle
      (.scaffold template method operation)).result = .ok own := by
  have hmem : (template, method, operation) ∈ other.operations := by
    rw [← operations_documentJobs, hcut]
    simp [Job.operations]
  obtain ⟨before, after, hcutFirst⟩ := List.append_of_mem
    (scaffold_mem_documentJobs (hsame.operations_perm.mem_iff.mpr hmem))
  rw [hcutFirst] at hfirst
  obtain ⟨_, reached, own, _, hreached, hown, -⟩ := hfirst.split
  refine ⟨own, ?_⟩
  rw [← hown, performEffect, performEffect]
  cases hroute : Route.of? emitter.destination template with
  | none => rfl
  | some route =>
      have hplace := kindAt?_place (huncrossed.perm hsame) (hsame.components_eq ▸ hdone) hcut
      have hplaceFirst := kindAt?_place huncrossed hreached hcutFirst
      have hfile := Scaffold.Route.scaffold_file hroute method emitter.style
        (Synthesis.synthesize document.components operation)
      have hcurrent := hdone.covers.current_eq
      -- the paths to the module are directories in both trees, or were so at the start
      have halike : FileTree.AlikeOn (· ∈ files.visits
          (emitter.scaffoldOf document.components route method operation).file) middle reached := by
        refine ⟨hcurrent.trans hreached.covers.current_eq.symm, fun location hvisited => ?_⟩
        rw [scaffoldOf, hfile] at hvisited
        rcases mem_visits_module hroute method emitter.style hvisited with hway | rfl
        · rw [hdone.shapeAt?_route (destination_mem_of_documentJobs hcut rfl)
            (route_mem_of_documentJobs hcut) hroute hway,
            hreached.shapeAt?_route (destination_mem_of_documentJobs hcutFirst rfl)
            (route_mem_of_documentJobs hcutFirst) hroute hway]
        · have hnames : route.fileNames method emitter.style =
              emitter.moduleNames (template, method, operation) := by
            rw [Scaffold.Route.fileNames, Scaffold.Route.segments,
              (Scaffold.Route.of?_eq_some hroute).2.1]
            rfl
          rw [hnames, FileTree.shapeAt?, FileTree.shapeAt?]
          exact congrArg _ (hplace.trans hplaceFirst.symm)
      have hspot := halike.spot_eq fun visited hvisited =>
        FileTree.visits_congr hcurrent _ ▸ hvisited
      dsimp only
      rw [emitEffect_of_spot_eq _ hspot]

end

/-! ## All jobs in the other order -/

section

variable (huncrossed : Uncrossed document) (hsame : SameUpToOrder document other)
  (hfirst : emitter.Reaches document.components files (documentJobs document) entries tree)

include huncrossed hsame hfirst

/-- In the other order all jobs succeed. -/
theorem exists_reaches_of_reordered :
    ∃ more after, emitter.Reaches document.components files (documentJobs other) more after := by
  refine exists_reaches fun done job rest front middle hcut hdone => ?_
  cases job with
  | destination =>
      -- it is the first job in both orders
      obtain rfl := eq_nil_of_documentJobs hcut
      obtain ⟨hresult, rfl⟩ := hdone
      obtain ⟨_, reached, own, _, hnothing, hown, -⟩ :=
        (show emitter.Reaches document.components files ([] ++ .destination ::
          document.paths.flatMap pathJobs) entries tree from hfirst).split
      exact ⟨own, hnothing.after_eq ▸ hown⟩
  | route template => exact ⟨[], exists_own_route huncrossed hsame hfirst hdone hcut⟩
  | scaffold template method operation =>
      exact exists_own_scaffold huncrossed hsame hfirst hdone hcut

variable {more : List Entry} {after : FileTree}
  (hsecond : emitter.Reaches document.components files (documentJobs other) more after)

include hsecond

/-- In the other order the same entries are reported in another order. -/
theorem entries_perm : entries.Perm more := by
  have hentries := map_entries_eq huncrossed hfirst
  have hmore := map_entries_eq (huncrossed.perm hsame) (hsame.components_eq ▸ hsecond)
  rw [← hsame.components_eq] at hmore
  refine (List.map_perm_map_iff (Option.some_injective _)).mp ?_
  rw [hentries, hmore]
  exact hsame.operations_perm.map _

/-- In the other order the same tree is reached. -/
theorem kindAt?_eq_of_reordered (location : Location) :
    after.kindAt? location = tree.kindAt? location := by
  have hperm := (entries_perm huncrossed hsame hfirst hsecond).map (·.scaffold)
  have hway : location ∈ (documentJobs other).flatMap (emitter.jobWay files) ↔
      location ∈ (documentJobs document).flatMap (emitter.jobWay files) := by
    rw [List.mem_flatMap, List.mem_flatMap]
    refine exists_congr fun job => and_congr_left fun hjob => ?_
    cases job with
    | destination => exact iff_of_true List.mem_cons_self List.mem_cons_self
    | route template =>
        rw [route_mem_documentJobs, route_mem_documentJobs]
        exact hsame.templates_perm.mem_iff.symm
    | scaffold template method operation => cases hjob
  -- of one place there is at most one scaffold, so that their order says nothing
  have hscaffolds : scaffoldsAt files (entries.map (·.scaffold)) location =
      scaffoldsAt files (more.map (·.scaffold)) location := by
    have hfiltered : (scaffoldsAt files (entries.map (·.scaffold)) location).Perm
        (scaffoldsAt files (more.map (·.scaffold)) location) := hperm.filter _
    exact hfiltered.eq_of_pairwise
      (fun _ _ hscaffold hmore _ _ =>
        scaffold_unique huncrossed hfirst hscaffold (hfiltered.mem_iff.mpr hmore))
      (List.pairwise_of_forall (R := fun _ _ => True) fun _ _ => trivial)
      (List.pairwise_of_forall fun _ _ => trivial)
  rw [hsecond.settled.kindAt?_eq, hfirst.settled.kindAt?_eq, ← hscaffolds, Policy.settle_congr hway]

end

end Emitter

/-! ## Runs -/

theorem nodup_methods_of_read {tree : Json} {description : OpenApi.Description} {document : Document}
    (hdistinct : tree.Distinct) (hdescribe : OpenApi.describe tree = .ok description)
    (hread : Document.read tree = .ok document) :
    ∀ path ∈ document.paths, (path.2.operations.map (·.1)).Nodup := by
  intro path hpath
  obtain ⟨member, -, hitem⟩ :=
    exists_of_forall₂ (Document.readsPath_of_read hdistinct hdescribe hread).flip hpath
  exact (OpenApi.methods_perm hitem.1 hitem.2.2).nodup_iff.mpr (OpenApi.nodup_methods _)

/-- A run that succeeds succeeds in any other order of the paths and their methods, when the templates
take different names below the destination and none takes the name of a module.  It reports the same entries
in another order, and leaves the same tree. -/
theorem run_reordered {settings other : Settings} {files others : FileTree} {tree more : Json}
    {document : Document} {report : Report} (hemitter : other.emitter = settings.emitter)
    (hstrict : other.strict = settings.strict) (halike : files.Alike others)
    (hholds : settings.Holds files tree) (hholdsOther : other.Holds others more)
    (horder : Json.ReorderedTree tree more) (hdocument : settings.document files = .ok document)
    (htemplates : (document.paths.map fun path => templateNames path.1).Nodup)
    (hfree : FreeOfModules (document.paths.map (·.1)))
    (hrun : (run settings files).result = .ok report) :
    ∃ again, (run other others).result = .ok again ∧ again.entries.Perm report.entries ∧
      (∀ outcome, again.count outcome = report.count outcome) ∧
        (run settings files).workspace.files.Alike (run other others).workspace.files ∧
          ∀ location, files.kindAt? location = others.kindAt? location →
            (run settings files).workspace.files.kindAt? location =
              (run other others).workspace.files.kindAt? location := by
  -- the other source is read as a document in another order
  obtain ⟨contents, found, description, htext, htree, hdescribe, hnone, hread⟩ :=
    exists_tree_of_document hdocument
  obtain ⟨_, hsame, hsource⟩ := hholds
  cases htext.symm.trans hsame
  cases htree.symm.trans hsource
  have hdistinct := Source.distinct_tree htree
  have hdistinctOther : more.Distinct := by
    obtain ⟨_, -, hsourceOther⟩ := hholdsOther
    exact Source.distinct_tree hsourceOther
  obtain ⟨rfl, hdescribeOther⟩ := OpenApi.describe_of_reordered horder hdistinct hdescribe
  obtain ⟨moved, hreadOther, hreordered⟩ :=
    Document.read_of_reordered horder hdistinct hdistinctOther hdescribe hread
  have hdocumentOther := document_of_holds hholdsOther hdescribeOther
    (fun hwanted => OpenApi.violations_of_reordered horder hdistinct
      (hnone (hstrict.symm.trans hwanted))) hreadOther
  have huncrossed : Uncrossed document :=
    ⟨nodup_placeKey htemplates (nodup_methods_of_read hdistinct hdescribe hread), hfree⟩
  -- so its jobs are those of the first document in another order
  obtain ⟨hresult, hleft, -⟩ := run_of_document hdocument
  obtain ⟨hresultOther, hleftOther, -⟩ := run_of_document hdocumentOther
  rw [hrun] at hresult
  obtain ⟨entries, hentries, rfl⟩ := map_eq_ok hresult.symm
  have hfirst : settings.emitter.Reaches document.components files (documentJobs document) entries
      (run settings files).workspace.files := ⟨hentries, hleft.symm⟩
  obtain ⟨again, after, hsecond⟩ :=
    Emitter.exists_reaches_of_reordered huncrossed hreordered hfirst
  have hperm := Emitter.entries_perm huncrossed hreordered hfirst hsecond
  have hkind := Emitter.kindAt?_eq_of_reordered huncrossed hreordered hfirst hsecond
  have heffect : settings.emitter.performAllEffect document.components files (documentJobs moved) =
      settings.emitter.performAllEffect document.components others (documentJobs moved) :=
    Emitter.performAllEffect_congr halike _
  rw [hemitter, ← hreordered.components_eq, ← heffect, hsecond.result_eq] at hresultOther
  rw [hemitter, ← hreordered.components_eq, ← heffect] at hleftOther
  have hchanges : files.applyAll (settings.emitter.performAllEffect document.components files
      (documentJobs moved)).changes = after := hsecond.after_eq
  refine ⟨.ofEntries again, hresultOther, ?_, fun outcome => ?_, ?_, fun location hsame => ?_⟩
  · rw [Report.entries_ofEntries, Report.entries_ofEntries]
    exact hperm.symm
  · rw [Report.count_ofEntries, Report.count_ofEntries]
    exact hperm.symm.countP_eq _
  · have hfinal : (run settings files).workspace.files.Alike after :=
      ⟨hfirst.covers.current_eq.trans hsecond.covers.current_eq.symm, fun location => by
        rw [FileTree.shapeAt?, FileTree.shapeAt?, hkind]⟩
    rw [hleftOther]
    exact hfinal.trans (hchanges ▸ halike.applyAll _)
  · have hon : FileTree.AlikeOn (fun _ => True) files others :=
      ⟨halike.current_eq, fun location _ => halike.shapeAt?_eq location⟩
    rw [← hkind, hleftOther, ← hchanges]
    exact hon.kindAt?_applyAll (fun _ _ _ => trivial) hsame

/-! ## Two orders of one source -/

/-- A source with two methods on one path and none on another one. -/
def pairSource : String :=
  "\x7b\"openapi\":\"3.0.0\",\"info\":\x7b\"title\":\"\",\"version\":\"\"\x7d,\"paths\":" ++
    "\x7b\"/a\":\x7b\"get\":\x7b\"responses\":\x7b\x7d\x7d," ++
    "\"put\":\x7b\"responses\":\x7b\x7d\x7d\x7d,\"/b\":\x7b\x7d\x7d\x7d"

/-- The source with its paths and its methods the other way round. -/
def swappedSource : String :=
  "\x7b\"openapi\":\"3.0.0\",\"info\":\x7b\"title\":\"\",\"version\":\"\"\x7d,\"paths\":" ++
    "\x7b\"/b\":\x7b\x7d,\"/a\":\x7b\"put\":\x7b\"responses\":\x7b\x7d\x7d," ++
    "\"get\":\x7b\"responses\":\x7b\x7d\x7d\x7d\x7d\x7d"

def pairTree (paths : List (String × Json)) : Json :=
  .obj [("openapi", .str "3.0.0"), ("info", .obj [("title", .str ""), ("version", .str "")]),
    ("paths", .obj paths)]

def pairOperation : Json := .obj [("responses", .obj [])]

/-- The tree of the source. -/
def pairJson : Json :=
  pairTree [("/a", .obj [("get", pairOperation), ("put", pairOperation)]), ("/b", .obj [])]

/-- The tree of the source the other way round. -/
def swappedJson : Json :=
  pairTree [("/b", .obj []), ("/a", .obj [("put", pairOperation), ("get", pairOperation)])]

def pairDocument : Document where
  title := ""
  version := ""
  paths := [("/a", { operations := [(.get, {}), (.put, {})] }), ("/b", {})]

def pairReport : Report where
  entries :=
    [twinSettings.emitter.entryOf {} (twinRoute "/a") .get {} .written,
      twinSettings.emitter.entryOf {} (twinRoute "/a") .put {} .written]
  written := 2

def pairFiles : FileTree := oneFile "api.json" pairSource.toUTF8

def swappedFiles : FileTree := oneFile "api.json" swappedSource.toUTF8

set_option maxRecDepth 2000 in
theorem tree_pairSource : Source.tree (some .json) pairSource = .ok pairJson := by
  rfl

set_option maxRecDepth 2000 in
theorem tree_swappedSource : Source.tree (some .json) swappedSource = .ok swappedJson := by
  rfl

theorem holds_pair : twinSettings.Holds pairFiles pairJson :=
  holds_oneFile (fun _ => rfl) tree_pairSource

theorem holds_swapped : twinSettings.Holds swappedFiles swappedJson :=
  holds_oneFile (fun _ => rfl) tree_swappedSource

theorem document_pairFiles : twinSettings.document pairFiles = .ok pairDocument := by
  have hcheck : OpenApi.checkDescription pairJson = .ok () := by cbv
  exact document_of_holds holds_pair (OpenApi.describe_of_check hcheck) (by simp [twinSettings]) rfl

theorem alike_oneFile (name : String) (contents more : ByteArray) :
    (oneFile name contents).Alike (oneFile name more) := by
  refine ⟨rfl, fun location => ?_⟩
  by_cases hlocation : location = [name]
  · have hfile : ∀ text, (oneFile name text).kindAt? [name] = some (.file text) := by
      intro text
      simp [FileTree.kindAt?, oneFile, Files.Node.kindAt?_cons, Files.Node.kind]
    rw [hlocation, FileTree.shapeAt?, FileTree.shapeAt?, hfile, hfile]
    rfl
  · rw [FileTree.shapeAt?, FileTree.shapeAt?, kindAt?_oneFile_congr hlocation hlocation]

theorem reordered_pair : Json.ReorderedTree pairJson swappedJson := by
  have hitem : Json.ReorderedItem (.obj [("get", pairOperation), ("put", pairOperation)])
      (.obj [("put", pairOperation), ("get", pairOperation)]) :=
    ⟨_, _, _, rfl, rfl, .swap .., .cons ⟨rfl, rfl⟩ (.cons ⟨rfl, rfl⟩ .nil)⟩
  have hempty : Json.ReorderedItem (.obj []) (.obj []) := ⟨_, _, _, rfl, rfl, .nil, .nil⟩
  have hpaths : Json.ReorderedPaths
      (.obj [("/a", .obj [("get", pairOperation), ("put", pairOperation)]), ("/b", .obj [])])
      (.obj [("/b", .obj []), ("/a", .obj [("put", pairOperation), ("get", pairOperation)])]) :=
    ⟨_, _, _, rfl, rfl, .swap .., .cons ⟨rfl, hempty⟩ (.cons ⟨rfl, hitem⟩ .nil)⟩
  exact ⟨_, _, _, rfl, rfl, .refl _, .cons ⟨rfl, rfl⟩ (.cons ⟨rfl, rfl⟩ (.cons ⟨rfl, hpaths⟩ .nil))⟩

theorem templateNames_pair : templateNames "/a" = ["a"] ∧ templateNames "/b" = ["b"] := by
  constructor <;> cbv

theorem freeOfModules_pair : FreeOfModules (pairDocument.paths.map (·.1)) := by
  have hnames : ∀ name ∈ ["a", "b"], ∀ method style, name ≠ fileName method style := by
    intro name hname method style
    rcases List.mem_pair.mp hname with rfl | rfl <;> cases method <;> cases style <;> decide
  intro template htemplate name hname
  refine hnames name ?_
  rcases List.mem_pair.mp htemplate with rfl | rfl
  · rw [templateNames_pair.1] at hname
    simp_all
  · rw [templateNames_pair.2] at hname
    simp_all

/-- The second module on a path is written beside the first one. -/
theorem performEffect_pair (contents text : ByteArray) : ∃ changes,
    twinSettings.emitter.performEffect {} (twinOpened contents [("get.ts", .file text)])
        (.scaffold "/a" .put {}) =
      ⟨.ok [twinSettings.emitter.entryOf {} (twinRoute "/a") .put {} .written], changes⟩ ∧
      ∃ module, (twinOpened contents [("get.ts", .file text)]).applyAll changes =
        twinOpened contents [("get.ts", .file text), ("put.ts", .file module)] := by
  have hfile : (twinSettings.emitter.scaffoldOf {} (twinRoute "/a") .put {}).file =
      "out/a/put.ts" := by
    show Files.join "out/a" (fileName .put .staticExport) = "out/a/put.ts"
    cbv
  rw [Emitter.performEffect, show twinSettings.emitter.destination = "out" from rfl,
    route_twin (.inl rfl)]
  dsimp only
  rw [show twinSettings.emitter.policy = .skipExisting from rfl, Emitter.emitEffect,
    Emitter.writeNewEffect, hfile]
  generalize (twinSettings.emitter.scaffoldOf {} (twinRoute "/a") .put {}).text.toUTF8 = module
  exact ⟨[.makeFile ["out", "a", "put.ts"], .fill ["out", "a", "put.ts"] module], rfl, module, rfl⟩

/-- In the first order all jobs succeed. -/
theorem run_pair : (run twinSettings pairFiles).result = .ok pairReport := by
  obtain ⟨changes, hput, module, hwritten⟩ :=
    performEffect_pair pairSource.toUTF8 (twinScaffold "/a").text.toUTF8
  have hother : twinSettings.emitter.performEffect {}
      (twinOpened pairSource.toUTF8
        [("get.ts", .file (twinScaffold "/a").text.toUTF8), ("put.ts", .file module)])
      (.route "/b") = ⟨.ok [], [.makeDirectory ["out", "b"]]⟩ := by
    -- the contents play no part, and would be computed
    generalize (twinScaffold "/a").text.toUTF8 = text
    generalize pairSource.toUTF8 = contents
    have hroute : Route.of? twinSettings.emitter.destination "/b" = some ⟨"/b", "/b", "out/b"⟩ := by
      cbv
    have hmake : (twinOpened contents [("get.ts", .file text), ("put.ts", .file module)]
        ).makeDirectories "out/b" = ⟨[.makeDirectory ["out", "b"]], none⟩ :=
      FileTree.makeDirectories_of_makeDirectory (by decide) rfl
    rw [Emitter.performEffect, hroute]
    dsimp only
    rw [Action.makeDirectoriesEffect, hmake]
    rfl
  have hjobs : (twinSettings.emitter.performAllEffect {} (twinTree pairSource.toUTF8 [])
      [.destination, .route "/a", .scaffold "/a" .get {}, .scaffold "/a" .put {},
        .route "/b"]).result = .ok pairReport.entries := by
    have hpolicy : twinPolicy .skipExisting = twinSettings := rfl
    rw [← hpolicy, performAllEffect_twin, hpolicy,
      Emitter.performAllEffect_cons_of_eq _ hput hwritten,
      Emitter.performAllEffect_cons_of_eq _ hother rfl]
    rfl
  exact (run_of_document document_pairFiles).1.trans (congrArg _ hjobs)

/-- The other order of the source is run as the first one. -/
theorem run_reordered_pair :
    (run twinSettings pairFiles).result = .ok pairReport ∧
      Json.ReorderedTree pairJson swappedJson ∧ ∃ again,
        (run twinSettings swappedFiles).result = .ok again ∧
          again.entries.Perm pairReport.entries ∧
            (∀ outcome, again.count outcome = pairReport.count outcome) ∧
              (run twinSettings pairFiles).workspace.files.Alike
                  (run twinSettings swappedFiles).workspace.files ∧
                ∀ location, pairFiles.kindAt? location = swappedFiles.kindAt? location →
                  (run twinSettings pairFiles).workspace.files.kindAt? location =
                    (run twinSettings swappedFiles).workspace.files.kindAt? location := by
  have htemplates : (pairDocument.paths.map fun path => templateNames path.1).Nodup := by
    show [templateNames "/a", templateNames "/b"].Nodup
    rw [templateNames_pair.1, templateNames_pair.2]
    decide
  exact ⟨run_pair, reordered_pair, run_reordered rfl rfl (alike_oneFile _ _ _) holds_pair
    holds_swapped reordered_pair document_pairFiles htemplates freeOfModules_pair run_pair⟩

end RouteScaffold.Run
