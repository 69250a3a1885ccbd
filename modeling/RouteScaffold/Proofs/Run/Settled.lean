import RouteScaffold.Proofs.Run.Plan

/-!
# What stands where after jobs

After some jobs what stands at a location depends on three things only: what stood there before,
whether the location is on the way to a directory that was made, and the scaffolds that go there, in
their order.  `Policy.settle` says how.

* When files are skipped, what stood there stays.  Otherwise a directory on the way stands there, and
  otherwise the first scaffold.
* When files are overwritten, the last scaffold stands there.  Otherwise what stood there stays, and
  otherwise a directory on the way stands there.

The invariant `Settled` says that a tree is as `settle` has it, that all of the way is there, and that
no directory is lost.
Making directories and emitting a scaffold keep it (`Settled.opens`, `Settled.emits`), so it holds
after all jobs of a plan (`Emitter.DoneAll.settled`).  That directories and scaffolds are settled by
one function rests on the two never meeting: a directory cannot be made where a scaffold is, and where
a directory is a scaffold is skipped or its job stops.
-/

namespace RouteScaffold.Run

open Document (Components)
open Files (FileTree Kind Location)
open Scaffold (Route)

/-- The file that a scaffold is written as. -/
def scaffoldKind (scaffold : Scaffold) : Kind := .file scaffold.text.toUTF8

/-- What stands at a location in the end, from what stood there before, whether it is on the way to a
directory, and the scaffolds that go there. -/
def Policy.settle (policy : Policy) (before : Option Kind) (onWay : Prop) [Decidable onWay]
    (scaffolds : List Scaffold) : Option Kind :=
  match policy with
  | .skipExisting =>
    before.or (if onWay then some .directory else scaffolds.head?.map scaffoldKind)
  | .overwrite =>
    (scaffolds.getLast?.map scaffoldKind).or
      (before.or (if onWay then some .directory else none))

namespace Policy

variable {policy : Policy} {before : Option Kind} {onWay : Prop} [Decidable onWay]
  {scaffolds : List Scaffold}

theorem settle_congr {onMore : Prop} [Decidable onMore] (h : onWay ↔ onMore) :
    policy.settle before onWay scaffolds = policy.settle before onMore scaffolds := by
  cases policy <;> simp [settle, h]

/-- A directory made where nothing or a directory is settled is settled as a directory. -/
theorem settle_true (h : policy.settle before onWay scaffolds = none ∨
    policy.settle before onWay scaffolds = some .directory) :
    policy.settle before True scaffolds = some .directory := by
  cases policy with
  | skipExisting =>
      cases before with
      | none => rfl
      | some kind => simpa [settle] using h
  | overwrite =>
      cases hlast : scaffolds.getLast? with
      | none =>
          cases before with
          | none => simp [settle, hlast]
          | some kind => simpa [settle, hlast] using h
      | some last => simp [settle, hlast, scaffoldKind] at h

/-- A scaffold that is skipped settles nothing. -/
theorem settle_concat_skip (h : skipExisting.settle before onWay scaffolds ≠ none)
    (scaffold : Scaffold) :
    skipExisting.settle before onWay (scaffolds ++ [scaffold]) =
      skipExisting.settle before onWay scaffolds := by
  cases scaffolds with
  | nil =>
      cases before with
      | none =>
          by_cases hway : onWay
          · simp [settle, hway]
          · simp [settle, hway] at h
      | some kind => rfl
  | cons first rest => rfl

/-- Where nothing is settled a scaffold is. -/
theorem settle_concat_of_none (h : policy.settle before onWay scaffolds = none)
    (scaffold : Scaffold) :
    policy.settle before onWay (scaffolds ++ [scaffold]) = some (scaffoldKind scaffold) := by
  cases policy with
  | skipExisting =>
      obtain ⟨rfl, hrest⟩ := Option.or_eq_none_iff.mp h
      by_cases hway : onWay
      · simp [hway] at hrest
      · obtain rfl : scaffolds = [] := by simpa [hway] using hrest
        simp [settle, hway]
  | overwrite => simp [settle]

/-- A scaffold that is written in place of a file settles its location. -/
theorem settle_concat_overwrite (scaffold : Scaffold) :
    overwrite.settle before onWay (scaffolds ++ [scaffold]) = some (scaffoldKind scaffold) := by
  simp [settle]

/-- Without scaffolds only directories are settled anew. -/
theorem settle_nil : policy.settle before onWay [] =
    before.or (if onWay then some .directory else none) := by
  cases policy <;> simp [settle]

theorem settle_skip_of_some {kind : Kind} :
    skipExisting.settle (some kind) onWay scaffolds = some kind := rfl

theorem settle_overwrite_of_getLast? {last : Scaffold} (h : scaffolds.getLast? = some last) :
    overwrite.settle before onWay scaffolds = some (scaffoldKind last) := by
  simp [settle, h]

/-- When files are skipped a new one is that of the first scaffold. -/
theorem settle_skip_eq_file {contents : ByteArray}
    (h : skipExisting.settle before onWay scaffolds = some (.file contents)) :
    before = some (.file contents) ∨ before = none ∧
      ∃ first, scaffolds.head? = some first ∧ contents = first.text.toUTF8 := by
  cases before with
  | some kind => exact .inl h
  | none =>
      by_cases hway : onWay
      · simp [settle, hway] at h
      · obtain ⟨first, hfirst, hkind⟩ : ∃ first, scaffolds.head? = some first ∧
            scaffoldKind first = .file contents := by
          simpa [settle, hway] using h
        exact .inr ⟨rfl, first, hfirst, (Kind.file.inj hkind).symm⟩

/-- Where nothing was a file is that of a scaffold. -/
theorem settle_none_eq_file {contents : ByteArray}
    (h : policy.settle none onWay scaffolds = some (.file contents)) :
    ∃ scaffold ∈ scaffolds, contents = scaffold.text.toUTF8 := by
  cases policy with
  | skipExisting =>
      rcases settle_skip_eq_file h with hold | ⟨-, first, hfirst, hcontents⟩
      · cases hold
      · exact ⟨first, List.mem_of_mem_head? hfirst, hcontents⟩
  | overwrite =>
      cases hlast : scaffolds.getLast? with
      | none => by_cases hway : onWay <;> simp [settle, hlast, hway] at h
      | some last =>
          rw [settle_overwrite_of_getLast? hlast] at h
          exact ⟨last, List.mem_of_getLast? hlast, (Kind.file.inj (Option.some.inj h)).symm⟩

/-- Where nothing was, and no directory is on the way, a scaffold is settled if one goes there. -/
theorem settle_none_of_ne_nil (policy : Policy) (hway : ¬ onWay) (hne : scaffolds ≠ []) :
    ∃ scaffold ∈ scaffolds, policy.settle none onWay scaffolds = some (scaffoldKind scaffold) := by
  cases policy with
  | skipExisting => exact ⟨scaffolds.head hne, List.head_mem hne, by
      simp [settle, hway, List.head?_eq_some_head hne]⟩
  | overwrite => exact ⟨scaffolds.getLast hne, List.getLast_mem hne,
      settle_overwrite_of_getLast? (List.getLast?_eq_some_getLast hne)⟩

/-- A directory that is settled was there or is on the way. -/
theorem settle_eq_directory (h : policy.settle before onWay scaffolds = some .directory) :
    before = some .directory ∨ before = none ∧ onWay := by
  cases policy with
  | skipExisting =>
      cases before with
      | some kind => exact .inl h
      | none =>
          by_cases hway : onWay
          · exact .inr ⟨rfl, hway⟩
          · simp [settle, hway, scaffoldKind] at h
  | overwrite =>
      cases hlast : scaffolds.getLast? with
      | some last => simp [settle, hlast, scaffoldKind] at h
      | none =>
          cases before with
          | some kind => exact .inl (by simpa [settle, hlast] using h)
          | none => exact .inr ⟨rfl, by simpa [settle, hlast] using h⟩

end Policy

/-- The scaffolds that go to a location. -/
def scaffoldsAt (files : FileTree) (scaffolds : List Scaffold) (location : Location) :
    List Scaffold :=
  scaffolds.filter fun scaffold => files.locationOf scaffold.file = location

theorem scaffoldsAt_concat_self (files : FileTree) (scaffolds : List Scaffold)
    (scaffold : Scaffold) :
    scaffoldsAt files (scaffolds ++ [scaffold]) (files.locationOf scaffold.file) =
      scaffoldsAt files scaffolds (files.locationOf scaffold.file) ++ [scaffold] := by
  simp [scaffoldsAt, List.filter_append]

theorem scaffoldsAt_concat_of_ne {files : FileTree} {scaffold : Scaffold} {location : Location}
    (h : location ≠ files.locationOf scaffold.file) (scaffolds : List Scaffold) :
    scaffoldsAt files (scaffolds ++ [scaffold]) location = scaffoldsAt files scaffolds location := by
  simp [scaffoldsAt, List.filter_append, Ne.symm h]

/-- A tree in which directories were made on the way and scaffolds were emitted, starting from some
files. -/
structure Settled (policy : Policy) (files : FileTree) (ways : List Location)
    (scaffolds : List Scaffold) (tree : FileTree) : Prop where
  current_eq : tree.current = files.current
  kindAt?_eq : ∀ location, tree.kindAt? location =
    policy.settle (files.kindAt? location) (location ∈ ways) (scaffoldsAt files scaffolds location)
  way : ∀ location ∈ ways, tree.kindAt? location = some .directory
  directory : ∀ location, files.kindAt? location = some .directory →
    tree.kindAt? location = some .directory

namespace Settled

variable {policy : Policy} {files tree after : FileTree} {ways : List Location}
  {scaffolds : List Scaffold}

theorem start (policy : Policy) (files : FileTree) : Settled policy files [] [] files := by
  refine ⟨rfl, fun location => ?_, fun location hmem => (List.not_mem_nil hmem).elim,
    fun location hbefore => hbefore⟩
  cases policy <;> simp [Policy.settle, scaffoldsAt]

theorem kindAt?_opens {path : String} (h : Settled policy files ways scaffolds tree)
    (hopens : tree.Opens path after) (location : Location) :
    after.kindAt? location =
      policy.settle (files.kindAt? location) (location ∈ ways ++ files.wayTo path)
        (scaffoldsAt files scaffolds location) := by
  have hway := FileTree.wayTo_congr h.current_eq path
  have hgrows := hopens.grows.kindAt?_eq location
  rw [h.kindAt?_eq, hway] at hgrows
  by_cases hmem : location ∈ files.wayTo path
  · -- a directory is there now, so no scaffold can have settled the location
    have hdirectory := hopens.way location (hway ▸ hmem)
    rw [hdirectory] at hgrows ⊢
    have hopen : location ∈ ways ++ files.wayTo path ↔ True := by simp [hmem]
    have hsettled : policy.settle (files.kindAt? location) (location ∈ ways)
          (scaffoldsAt files scaffolds location) = none ∨
        policy.settle (files.kindAt? location) (location ∈ ways)
          (scaffoldsAt files scaffolds location) = some .directory := by
      split at hgrows
      · exact .inl (‹_ ∧ _›).1
      · exact .inr hgrows.symm
    rw [Policy.settle_congr hopen, Policy.settle_true hsettled]
  · rw [hgrows, if_neg (fun hand => hmem hand.2)]
    exact Policy.settle_congr (by simp [hmem])

theorem opens {path : String} (h : Settled policy files ways scaffolds tree)
    (hopens : tree.Opens path after) :
    Settled policy files (ways ++ files.wayTo path) scaffolds after := by
  refine ⟨hopens.grows.current_eq.trans h.current_eq, h.kindAt?_opens hopens,
    fun location hmem => ?_, fun location hbefore =>
      hopens.grows.kindAt?_of_some (h.directory location hbefore)⟩
  rcases List.mem_append.mp hmem with hmem | hmem
  · exact hopens.grows.kindAt?_of_some (h.way location hmem)
  · exact hopens.way location (FileTree.wayTo_congr h.current_eq path ▸ hmem)

theorem kindAt?_emits {scaffold : Scaffold} {outcome : Outcome}
    (h : Settled policy files ways scaffolds tree)
    (hemits : Emits policy scaffold tree outcome after) (location : Location) :
    after.kindAt? location =
      policy.settle (files.kindAt? location) (location ∈ ways)
        (scaffoldsAt files (scaffolds ++ [scaffold]) location) := by
  have hself := FileTree.locationOf_congr h.current_eq scaffold.file
  have hsettled := h.kindAt?_eq (files.locationOf scaffold.file)
  by_cases hlocation : location = files.locationOf scaffold.file
  · -- at its file the ways to emit the scaffold are the ways to settle it
    rw [hlocation, scaffoldsAt_concat_self]
    cases hemits with
    | skipped hpolicy hthere =>
        have hsome := FileTree.kindAt?_ne_none_of_exists? hthere
        rw [hself, hsettled] at hsome
        subst hpolicy
        rw [hsettled, Policy.settle_concat_skip hsome]
    | written hfree hputs =>
        rw [hself, hsettled] at hfree
        rw [Policy.settle_concat_of_none hfree, ← hself, hputs.kindAt?_self]
        rfl
    | overwritten hpolicy hold hputs =>
        subst hpolicy
        rw [Policy.settle_concat_overwrite, ← hself, hputs.kindAt?_self]
        rfl
  · rw [scaffoldsAt_concat_of_ne hlocation, ← h.kindAt?_eq]
    rw [← hself] at hlocation
    cases hemits with
    | skipped hpolicy hthere => rfl
    | written hfree hputs => exact hputs.kindAt?_of_ne hlocation
    | overwritten hpolicy hold hputs => exact hputs.kindAt?_of_ne hlocation

theorem emits {scaffold : Scaffold} {outcome : Outcome}
    (h : Settled policy files ways scaffolds tree)
    (hemits : Emits policy scaffold tree outcome after) :
    Settled policy files ways (scaffolds ++ [scaffold]) after :=
  ⟨hemits.current_eq.trans h.current_eq, h.kindAt?_emits hemits,
    fun location hmem => hemits.kindAt?_directory (h.way location hmem),
    fun location hbefore => hemits.kindAt?_directory (h.directory location hbefore)⟩

end Settled

/-! ## Jobs -/

namespace Emitter

variable {emitter : Emitter} {components : Components}

/-- The locations on the way to the directories that a job makes. -/
def jobWay (emitter : Emitter) (files : FileTree) : Job → List Location
  | .destination => files.wayTo emitter.destination
  | .route template =>
    match Route.of? emitter.destination template with
    | some route => files.wayTo route.directory
    | none => []
  | .scaffold .. => []

theorem Done.settled {job : Job} {files before after : FileTree} {ways : List Location}
    {scaffolds : List Scaffold} {entries : List Entry}
    (hdone : emitter.Done components job before entries after)
    (h : Settled emitter.policy files ways scaffolds before) :
    Settled emitter.policy files (ways ++ emitter.jobWay files job)
      (scaffolds ++ entries.map (·.scaffold)) after := by
  cases hdone with
  | destination hopens => simpa [jobWay] using h.opens hopens
  | route hroute hopens => simpa [jobWay, hroute] using h.opens hopens
  | scaffold hroute hemits => simpa [jobWay, entryOf] using h.emits hemits

theorem DoneAll.settled {jobs : List Job} {files before after : FileTree} {ways : List Location}
    {scaffolds : List Scaffold} {entries : List Entry}
    (hdone : emitter.DoneAll components jobs before entries after)
    (h : Settled emitter.policy files ways scaffolds before) :
    Settled emitter.policy files (ways ++ jobs.flatMap (emitter.jobWay files))
      (scaffolds ++ entries.map (·.scaffold)) after := by
  induction hdone generalizing ways scaffolds with
  | nil tree => simpa using h
  | cons hjob hrest ih => simpa using ih (hjob.settled h)

/-- After some jobs the tree is as the policy settles it. -/
theorem DoneAll.settled_start {jobs : List Job} {files after : FileTree} {entries : List Entry}
    (hdone : emitter.DoneAll components jobs files entries after) :
    Settled emitter.policy files (jobs.flatMap (emitter.jobWay files))
      (entries.map (·.scaffold)) after := by
  simpa using hdone.settled (Settled.start emitter.policy files)

end Emitter

end RouteScaffold.Run
