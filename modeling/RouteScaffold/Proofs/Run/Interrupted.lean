import RouteScaffold.Proofs.Run.Again

/-!
# Interrupted runs

A run that skips files is cut short after some of its changes, and another run follows.  What the
first one made is found by the second one, and the other changes are made, so that the files become
what one run would have left.  There is one exception: where the cut falls between the making of a
file and its filling, an empty file is left, which the second run takes for a module and skips
(`run_interrupted`).
-/

namespace RouteScaffold.Run

open Document (Components)
open Files (Change FileTree Location)
open Scaffold (Route)

/-- What is made of an effect whose first changes were made before: the others are made, and the files
become the same. -/
structure Completes {α : Type} (front : List Change) (whole again : Effect α) : Prop where
  changes_eq : whole.changes = front ++ again.changes
  isOk_eq : again.result.isOk = whole.result.isOk
  complete : ∀ location, front.getLast? ≠ some (.makeFile location)

/-- What is made of an effect of which a file was made but not filled: it stays empty, and all else
becomes the same. -/
structure Tears {α : Type} (files : FileTree) (front : List Change) (whole again : Effect α)
    (location : Location) (scaffold : Scaffold) : Prop where
  last_eq : front.getLast? = some (.makeFile location)
  isOk_eq : again.result.isOk = whole.result.isOk
  sameBut : FileTree.SameBut location (again.after (files.applyAll front)) (whole.after files)
  empty : (again.after (files.applyAll front)).kindAt? location = some (.file ByteArray.empty)
  filled : (whole.after files).kindAt? location = some (scaffoldKind scaffold)

/-- How an effect ends whose first changes were made before. -/
def Resumes {α : Type} (files : FileTree) (front : List Change) (whole again : Effect α) : Prop :=
  Completes front whole again ∨ ∃ location scaffold, Tears files front whole again location scaffold

section

variable {α β : Type} {files : FileTree} {front : List Change} {whole again : Effect α}

theorem isOk_map (f : α → β) (result : Except Failure α) : (result.map f).isOk = result.isOk := by
  cases result <;> rfl

theorem isOk_of_ok {result : Except Failure α} {value : α} (h : result = .ok value) :
    result.isOk = true := by
  rw [h]
  rfl

theorem exists_of_isOk {result : Except Failure α} (h : result.isOk = true) :
    ∃ value, result = .ok value := by
  cases result with
  | ok value => exact ⟨value, rfl⟩
  | error failure => cases h

theorem Resumes.map (f g : α → β) (h : Resumes files front whole again) :
    Resumes files front (whole.map f) (again.map g) := by
  rcases h with hcompletes | ⟨location, scaffold, htears⟩
  · refine .inl ⟨hcompletes.changes_eq, ?_, hcompletes.complete⟩
    rw [Effect.map, Effect.map, isOk_map, isOk_map, hcompletes.isOk_eq]
  · refine .inr ⟨location, scaffold, htears.last_eq, ?_, htears.sameBut, htears.empty,
      htears.filled⟩
    rw [Effect.map, Effect.map, isOk_map, isOk_map, htears.isOk_eq]

theorem Resumes.isOk_eq (h : Resumes files front whole again) :
    again.result.isOk = whole.result.isOk := by
  rcases h with hcompletes | ⟨location, scaffold, htears⟩
  · exact hcompletes.isOk_eq
  · exact htears.isOk_eq

/-- Changes in front that are complete, and that are not made again. -/
theorem Resumes.behind {changes : List Change} (hne : front ≠ [])
    (h : Resumes (files.applyAll changes) front whole again) :
    Resumes files (changes ++ front) (whole.behind changes) (again.behind []) := by
  have hlast : (changes ++ front).getLast? = front.getLast? :=
    List.getLast?_append_of_ne_nil changes hne
  rcases h with hcompletes | ⟨location, scaffold, htears⟩
  · refine .inl ⟨?_, hcompletes.isOk_eq, fun location => hlast ▸ hcompletes.complete location⟩
    rw [Effect.behind, Effect.behind, hcompletes.changes_eq, List.append_assoc, List.nil_append]
  · refine .inr ⟨location, scaffold, hlast.trans htears.last_eq, htears.isOk_eq, ?_, ?_, ?_⟩
    · rw [Effect.after_behind, Effect.after_behind, FileTree.applyAll_append]
      exact htears.sameBut
    · rw [Effect.after_behind, FileTree.applyAll_append]
      exact htears.empty
    · rw [Effect.after_behind]
      exact htears.filled

/-- Where nothing was made nothing is different. -/
theorem Resumes.of_nil (files : FileTree) (effect : Effect α) : Resumes files [] effect effect :=
  .inl ⟨rfl, rfl, fun location hlast => by cases hlast⟩

end

namespace Emitter

open Run.Action

variable {emitter : Emitter} {components : Components} {files : FileTree} {front : List Change}

theorem makeDirectoriesEffect_resumes {path : String}
    (h : front <+: (makeDirectoriesEffect path files).changes) :
    Resumes files front (makeDirectoriesEffect path files)
      (makeDirectoriesEffect path (files.applyAll front)) := by
  have hresumes := FileTree.makeDirectories_resume h
  have hfault := hresumes.fault_eq
  refine .inl ⟨hresumes.changes_eq, ?_, fun location hlast => ?_⟩
  · rw [makeDirectoriesEffect, makeDirectoriesEffect]
    dsimp only
    cases hmade : (files.makeDirectories path).fault <;>
      cases hagain : ((files.applyAll front).makeDirectories path).fault <;>
        simp_all [Except.isOk, Except.toBool]
  · obtain ⟨_, hmade⟩ := FileTree.changes_makeDirectories files path _
      (h.subset (List.mem_of_getLast? hlast))
    cases hmade

theorem prefix_pair {α : Type} {first second : α} {front : List α} (h : front <+: [first, second])
    (hne : front ≠ []) : front = [first] ∨ front = [first, second] := by
  rcases List.prefix_concat_iff.mp (show front <+: [first] ++ [second] from h) with hall | hfirst
  · exact .inr hall
  · rcases List.prefix_concat_iff.mp (show front <+: [] ++ [first] from hfirst) with hone | hnil
    · exact .inl hone
    · exact absurd (List.prefix_nil.mp hnil) hne

theorem emitEffect_resumes {scaffold : Scaffold}
    (h : front <+: (emitEffect .skipExisting scaffold files).changes) :
    Resumes files front (emitEffect .skipExisting scaffold files)
      (emitEffect .skipExisting scaffold (files.applyAll front)) := by
  by_cases hnil : front = []
  · subst hnil
    exact .of_nil files _
  cases hthere : files.exists? scaffold.file with
  | true =>
      rw [emitEffect, if_pos hthere] at h
      exact absurd (List.prefix_nil.mp h) hnil
  | false =>
      have hfree : ¬ files.exists? scaffold.file = true := by simp [hthere]
      cases hwrite : files.writeNew scaffold.file scaffold.text.toUTF8 with
      | error fault =>
          rw [emitEffect, if_neg hfree, writeNewEffect, hwrite] at h
          cases fault <;> exact absurd (List.prefix_nil.mp h) hnil
      | ok changes =>
          have hwhole : emitEffect .skipExisting scaffold files = ⟨.ok .written, changes⟩ := by
            rw [emitEffect, if_neg hfree, writeNewEffect, hwrite]
          rw [hwhole] at h ⊢
          -- the file is there, filled or not
          have hagain : emitEffect .skipExisting scaffold (files.applyAll front) =
              ⟨.ok .skipped, []⟩ := by
            rw [emitEffect, if_pos (FileTree.exists?_of_writeNew_prefix hwrite h hnil (.refl _))]
          rw [hagain]
          have hwholly := (FileTree.writeNew_ok hwrite).2.wholly
          obtain ⟨rfl, hputs⟩ := FileTree.changes_of_writeNew hwrite
          rcases prefix_pair h hnil with rfl | rfl
          · exact .inr ⟨_, scaffold, rfl, rfl, hputs.sameBut_of_puts hwholly, hputs.kindAt?_self,
              hwholly.kindAt?_self⟩
          · exact .inl ⟨(List.append_nil _).symm, rfl, fun location hlast => by cases hlast⟩

theorem performEffect_resumes (hpolicy : emitter.policy = .skipExisting) {job : Job}
    (h : front <+: (emitter.performEffect components files job).changes) :
    Resumes files front (emitter.performEffect components files job)
      (emitter.performEffect components (files.applyAll front) job) := by
  cases job with
  | destination => exact (makeDirectoriesEffect_resumes h).map _ _
  | route template =>
      rw [performEffect] at h ⊢
      rw [performEffect]
      cases hroute : Route.of? emitter.destination template with
      | none =>
          rw [hroute] at h
          obtain rfl := List.prefix_nil.mp h
          exact .of_nil files _
      | some route =>
          rw [hroute] at h
          exact (makeDirectoriesEffect_resumes h).map _ _
  | scaffold template method operation =>
      rw [performEffect] at h ⊢
      rw [performEffect]
      cases hroute : Route.of? emitter.destination template with
      | none =>
          rw [hroute] at h
          obtain rfl := List.prefix_nil.mp h
          exact .of_nil files _
      | some route =>
          rw [hroute, hpolicy] at h
          rw [hpolicy]
          exact (emitEffect_resumes h).map _ _

/-- When files are skipped no job changes what stands somewhere. -/
theorem keeps_performAllEffect (hpolicy : emitter.policy = .skipExisting)
    (components : Components) (jobs : List Job) (files : FileTree) :
    Keeps files ((emitter.performAllEffect components files jobs).after files) :=
  (allows_keeps hpolicy).performAllEffect components jobs files List.prefix_rfl

theorem performAllEffect_of_error {job : Job} {failure : Failure} (rest : List Job)
    (h : (emitter.performEffect components files job).result = .error failure) :
    emitter.performAllEffect components files (job :: rest) =
      emitter.performEffect components files job := by
  rw [performAllEffect_cons_error rest h, ← h]

/-- The cut is in the first of some jobs. -/
theorem resumes_cons (hpolicy : emitter.policy = .skipExisting) {job : Job} {entries : List Entry}
    (rest : List Job) (hjob : (emitter.performEffect components files job).result = .ok entries)
    (h : front <+: (emitter.performEffect components files job).changes) :
    Resumes files front (emitter.performAllEffect components files (job :: rest))
      (emitter.performAllEffect components (files.applyAll front) (job :: rest)) := by
  have hresumes := performEffect_resumes hpolicy h
  obtain ⟨again, hagain⟩ := exists_of_isOk (hresumes.isOk_eq.trans (isOk_of_ok hjob))
  rw [performAllEffect_cons_ok rest hjob, performAllEffect_cons_ok rest hagain]
  rcases hresumes with hcompletes | ⟨location, scaffold, htears⟩
  · -- the files are the same after the first job
    have hafter : (emitter.performEffect components (files.applyAll front) job).after
        (files.applyAll front) = (emitter.performEffect components files job).after files := by
      rw [Effect.after, Effect.after, hcompletes.changes_eq, FileTree.applyAll_append]
    rw [hafter]
    refine .inl ⟨?_, ?_, hcompletes.complete⟩
    · rw [Effect.behind, Effect.behind, hcompletes.changes_eq, List.append_assoc]
      rfl
    · rw [Effect.behind, Effect.behind, Effect.map, Effect.map, isOk_map, isOk_map]
  · -- the other jobs do not look at what is in the file
    rw [performAllEffect_congr htears.sameBut.toAlike]
    set others := emitter.performAllEffect components
      ((emitter.performEffect components files job).after files) rest with hothers
    have hkept := keeps_performAllEffect hpolicy components rest
    refine .inr ⟨location, scaffold, htears.last_eq, ?_, ?_, ?_, ?_⟩
    · rw [Effect.behind, Effect.behind, Effect.map, Effect.map, isOk_map, isOk_map]
    · rw [Effect.after_behind, Effect.after_behind]
      exact htears.sameBut.applyAll _
    · rw [Effect.after_behind]
      have hempty := hkept _ location _ htears.empty
      rw [performAllEffect_congr htears.sameBut.toAlike] at hempty
      exact hempty
    · rw [Effect.after_behind]
      exact hkept _ location _ htears.filled

/-- Whatever the first changes of some jobs were, doing the jobs again makes the others. -/
theorem performAllEffect_resumes (hpolicy : emitter.policy = .skipExisting) {jobs : List Job}
    (h : front <+: (emitter.performAllEffect components files jobs).changes) :
    Resumes files front (emitter.performAllEffect components files jobs)
      (emitter.performAllEffect components (files.applyAll front) jobs) := by
  induction jobs generalizing files front with
  | nil =>
      obtain rfl := List.prefix_nil.mp h
      exact .of_nil files _
  | cons job rest ih =>
      cases hjob : (emitter.performEffect components files job).result with
      | error failure =>
          rw [performAllEffect_of_error rest hjob] at h ⊢
          have hresumes := performEffect_resumes hpolicy h
          cases hagain : (emitter.performEffect components (files.applyAll front) job).result with
          | error other =>
              rw [performAllEffect_of_error rest hagain]
              exact hresumes
          | ok entries =>
              have hisOk := hresumes.isOk_eq
              rw [hjob, hagain] at hisOk
              cases hisOk
      | ok entries =>
          by_cases hfirst : front <+: (emitter.performEffect components files job).changes
          · exact resumes_cons hpolicy rest hjob hfirst
          -- the first job was done, and it is done again without a change
          rw [performAllEffect_cons_ok rest hjob] at h ⊢
          obtain ⟨back, rfl⟩ := (List.prefix_or_prefix_of_prefix h
            (List.prefix_append _ _)).resolve_left hfirst
          have hne : back ≠ [] := by
            rintro rfl
            rw [List.append_nil] at hfirst
            exact hfirst List.prefix_rfl
          have hback := (List.prefix_append_right_inj _).mp h
          have hcovers := emitter.allows_covers.performAllEffect components rest
            ((emitter.performEffect components files job).after files) hback
          rw [Effect.after, ← FileTree.applyAll_append] at hcovers
          have hagain := performEffect_again hjob hcovers
          have hnothing := hagain.changes_eq hpolicy
          have hafter := hagain.after_eq hpolicy
          rw [performAllEffect_cons_ok rest hagain.result_eq, hafter, hnothing,
            FileTree.applyAll_append]
          exact ((ih hback).map _ _).behind hne

end Emitter

theorem toUTF8_text_ne_empty (scaffold : Scaffold) : scaffold.text.toUTF8 ≠ ByteArray.empty := by
  intro hempty
  have hsize : scaffold.text.utf8ByteSize = 0 := congrArg ByteArray.size hempty
  have htext : scaffold.text = "" := String.utf8ByteSize_eq_zero_iff.mp hsize
  rw [Scaffold.text, ← String.ofList_nil, String.ofList_inj] at htext
  cases htext

/-- Whatever the first changes of a run were, running again makes the others. -/
theorem runEffect_resumes {settings : Settings} {files : FileTree} {front : List Change}
    (hpolicy : settings.policy = .skipExisting)
    (hfront : front <+: (run settings files).workspace.changes) :
    Resumes files front (runEffect settings files) (runEffect settings (files.applyAll front)) := by
  rw [(run_eq_effect settings files).2.2, runEffect] at hfront
  cases hdocument : settings.document files with
  | error failure =>
      rw [hdocument] at hfront
      obtain rfl := List.prefix_nil.mp hfront
      exact .of_nil files _
  | ok document =>
      rw [hdocument] at hfront
      -- the document is read again from what the cut left
      have hcovers : files.Covers (files.applyAll front) :=
        settings.emitter.allows_covers.performAllEffect _ _ _ hfront
      have hkeeps : Keeps files (files.applyAll front) :=
        (Emitter.allows_keeps hpolicy).performAllEffect _ _ _ hfront
      have hread := document_again hdocument hcovers fun contents => hkeeps _ _
      rw [runEffect, runEffect, hdocument, hread]
      exact (Emitter.performAllEffect_resumes hpolicy hfront).map _ _

/-- A run that skips files is cut short after some of its changes, and another one follows.  It ends
as one run would, and leaves the same files, unless the last change made a file that was not filled:
that file stays empty. -/
theorem run_interrupted {settings : Settings} {files : FileTree} {front : List Change}
    (hpolicy : settings.policy = .skipExisting)
    (hfront : front <+: (run settings files).workspace.changes) :
    (run settings (files.applyAll front)).result.isOk = (run settings files).result.isOk ∧
      ((∀ location, front.getLast? ≠ some (.makeFile location)) →
        (run settings (files.applyAll front)).workspace.files =
          (run settings files).workspace.files) ∧
      ∀ location, front.getLast? = some (.makeFile location) →
        (run settings (files.applyAll front)).workspace.files.kindAt? location =
            some (.file ByteArray.empty) ∧
          (run settings files).workspace.files.kindAt? location ≠ some (.file ByteArray.empty) ∧
          ∀ other, other ≠ location →
            (run settings (files.applyAll front)).workspace.files.kindAt? other =
              (run settings files).workspace.files.kindAt? other := by
  have hresumes := runEffect_resumes hpolicy hfront
  obtain ⟨hresult, hfiles, -⟩ := run_eq_effect settings files
  obtain ⟨hagain, hleft, -⟩ := run_eq_effect settings (files.applyAll front)
  rw [hresult, hagain, hfiles, hleft]
  refine ⟨hresumes.isOk_eq, ?_⟩
  rcases hresumes with hcompletes | ⟨location, scaffold, htears⟩
  · refine ⟨fun _ => ?_, fun location hlast => absurd hlast (hcompletes.complete location)⟩
    rw [Effect.after, Effect.after, hcompletes.changes_eq, FileTree.applyAll_append]
  · refine ⟨fun hcomplete => absurd htears.last_eq (hcomplete location), fun other hlast => ?_⟩
    obtain rfl : location = other := by
      injection htears.last_eq.symm.trans hlast with hchange
      injection hchange
    refine ⟨htears.empty, ?_, htears.sameBut.kindAt?_eq⟩
    rw [htears.filled, scaffoldKind]
    simpa using toUTF8_text_ne_empty scaffold

/-- The changes up to the making of the module of the two templates. -/
def twinCut : List Change :=
  [.makeDirectory ["out"], .makeDirectory ["out", "a"], .makeFile ["out", "a", "get.ts"]]

theorem prefix_twinCut : twinCut <+: (run twinSettings twinFiles).workspace.changes := by
  rw [(run_of_document document_twinFiles).2.2]
  show twinCut <+: (Emitter.performAllEffect (twinPolicy .skipExisting).emitter {}
    (twinTree twinSource.toUTF8 []) (.destination :: .route "/a" :: .scaffold "/a" .get {} :: _)).changes
  rw [performAllEffect_twin]
  refine List.IsPrefix.trans ?_ (List.prefix_append _ _)
  exact ⟨[.fill ["out", "a", "get.ts"] (twinScaffold "/a").text.toUTF8], rfl⟩

/-- The module is left empty. -/
theorem run_interrupted_twin :
    twinSettings.policy = .skipExisting ∧
      twinCut <+: (run twinSettings twinFiles).workspace.changes ∧
      (run twinSettings (twinFiles.applyAll twinCut)).workspace.files.kindAt?
        ["out", "a", "get.ts"] = some (.file ByteArray.empty) :=
  ⟨rfl, prefix_twinCut, ((run_interrupted rfl prefix_twinCut).2.2 _ rfl).1⟩

/-- A run that succeeds after another one was cut short need not leave what one run leaves. -/
theorem not_completed_twin :
    ¬ ∀ front, front <+: (run twinSettings twinFiles).workspace.changes →
      ∀ report, (run twinSettings (twinFiles.applyAll front)).result = .ok report →
        ∀ location, (run twinSettings (twinFiles.applyAll front)).workspace.files.kindAt? location =
          (run twinSettings twinFiles).workspace.files.kindAt? location := by
  intro h
  have hresumes := runEffect_resumes rfl prefix_twinCut
  obtain ⟨hresult, hfiles, -⟩ := run_eq_effect twinSettings twinFiles
  obtain ⟨hagain, hleft, -⟩ := run_eq_effect twinSettings (twinFiles.applyAll twinCut)
  have hisOk := hresumes.isOk_eq
  rw [← hresult, ← hagain, run_twin] at hisOk
  obtain ⟨report, hreport⟩ := exists_of_isOk hisOk
  rcases hresumes with hcompletes | ⟨location, scaffold, htears⟩
  · exact hcompletes.complete _ rfl
  · have hsame := h twinCut prefix_twinCut report hreport location
    rw [hfiles, hleft, htears.empty, htears.filled, scaffoldKind] at hsame
    exact toUTF8_text_ne_empty scaffold (by simpa using hsame.symm)

end RouteScaffold.Run
