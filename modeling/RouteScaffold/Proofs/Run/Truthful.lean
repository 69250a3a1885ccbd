import RouteScaffold.Proofs.Files.Paved
import RouteScaffold.Proofs.Run.Effect

/-!
# What emitting tells

Emitting a scaffold ends with an outcome or with a failure, and what it ends with is decided by the policy and by
what the path of the file leads to: a free name, a file, a directory, or nowhere (`Decided`).  What it tells is
true of the files that it leaves (`TellsTruth`): only an outcome of something written comes with a change, the file
then holds the text of the scaffold and nothing else, and a failure leaves the files as they are.
-/

namespace RouteScaffold.Run

open Files (Fault FileTree Kind)

/-- How emitting a scaffold ends is decided by what the path of its file leads to. -/
structure Decided (policy : Policy) (scaffold : Scaffold) (files : FileTree)
    (result : Except Failure Outcome) : Prop where
  skipped : result = .ok .skipped ↔
    policy = .skipExisting ∧ ∃ kind, files.Leads scaffold.file (some kind)
  written : result = .ok .written ↔ files.Leads scaffold.file none
  overwritten : result = .ok .overwritten ↔
    policy = .overwrite ∧ ∃ old, files.Leads scaffold.file (some (.file old))
  failed : (∃ failure, result = .error failure) ↔
    (∀ found, ¬ files.Leads scaffold.file found) ∨
      policy = .overwrite ∧ files.Leads scaffold.file (some .directory)
  /-- A failure names the file and why it cannot be written. -/
  fault : ∀ failure, result = .error failure →
    ∃ fault, failure = .unwritable scaffold.file fault ∧ files.Explains scaffold.file fault

/-- What emitting a scaffold tells is true of the files that it leaves. -/
structure TellsTruth (policy : Policy) (scaffold : Scaffold) (before : FileTree)
    (result : Except Failure Outcome) (after : FileTree) : Prop extends
    Decided policy scaffold before result where
  unchanged : result ≠ .ok .written → result ≠ .ok .overwritten → after = before
  contents : result = .ok .written ∨ result = .ok .overwritten →
    after.Leads scaffold.file (some (.file scaffold.text.toUTF8))
  /-- At all other locations the same stands as before. -/
  elsewhere : ∀ location, location ≠ before.locationOf scaffold.file →
    after.kindAt? location = before.kindAt? location
  /-- All paths to other locations lead to the same as before. -/
  paths : ∀ path, before.locationOf path ≠ before.locationOf scaffold.file →
    ∀ found, after.Leads path found ↔ before.Leads path found

variable {policy : Policy} {scaffold : Scaffold} {before after : FileTree}
  {result : Except Failure Outcome}

/-! ## Files that are left alone or written -/

theorem Decided.tellsTruth_of_unchanged (h : Decided policy scaffold before result)
    (hwritten : result ≠ .ok .written) (hoverwritten : result ≠ .ok .overwritten) :
    TellsTruth policy scaffold before result before where
  toDecided := h
  unchanged _ _ := rfl
  contents hdone := (hdone.elim hwritten hoverwritten).elim
  elsewhere _ _ := rfl
  paths _ _ _ := Iff.rfl

theorem Decided.tellsTruth_of_puts {found : Option Kind} (h : Decided policy scaffold before result)
    (hdone : result = .ok .written ∨ result = .ok .overwritten) (hleads : before.Leads scaffold.file found)
    (hfound : found ≠ some .directory)
    (hputs : before.Puts (before.locationOf scaffold.file) (.file scaffold.text.toUTF8) after) :
    TellsTruth policy scaffold before result after := by
  have hold : before.kindAt? (before.locationOf scaffold.file) ≠ some .directory := by
    rw [hleads.kindAt?_eq]
    exact hfound
  have hthere : after.kindAt? (after.locationOf scaffold.file) = some (.file scaffold.text.toUTF8) := by
    rw [FileTree.locationOf_congr hputs.current_eq, hputs.kindAt?_self]
  exact
    { toDecided := h
      unchanged := fun hwritten hoverwritten => (hdone.elim hwritten hoverwritten).elim
      contents := fun _ => ⟨(hputs.paved_iff hold).mpr hleads.paved, hthere,
        fun hslash => absurd (hleads.directory hslash) hfound⟩
      elsewhere := fun _ hne => hputs.kindAt?_of_ne hne
      paths := fun _ hne _ => hputs.leads_iff hold hne }

/-- The changes of writing a file put it at the location of its path. -/
theorem puts_of_leads {found : Option Kind} (h : before.Leads scaffold.file found)
    (hfound : found ≠ some .directory) (contents : ByteArray) :
    before.Puts (before.locationOf scaffold.file) (.file contents)
      (before.applyAll [.makeFile (before.locationOf scaffold.file),
        .fill (before.locationOf scaffold.file) contents]) := by
  obtain ⟨-, hwrites⟩ := FileTree.write_ok (FileTree.write_of_leads contents h hfound)
  exact hwrites.wholly

namespace Emitter

/-! ## Effects -/

/-- Where nothing is the scaffold is written. -/
theorem emitEffect_of_none (policy : Policy) (h : before.Leads scaffold.file none) :
    emitEffect policy scaffold before = ⟨.ok .written, [.makeFile (before.locationOf scaffold.file),
      .fill (before.locationOf scaffold.file) scaffold.text.toUTF8]⟩ := by
  have hmissing : before.exists? scaffold.file = false := by
    rw [← Bool.not_eq_true, FileTree.exists?_iff_leads]
    rintro ⟨kind, hkind⟩
    cases h.iff_eq.mp hkind
  cases policy with
  | skipExisting =>
      rw [emitEffect, hmissing, writeNewEffect, FileTree.writeNew_of_leads _ h]
      rfl
  | overwrite =>
      have hwrite := FileTree.write_of_leads scaffold.text.toUTF8 h (by simp)
      rw [emitEffect, overwriteEffect, hmissing, hwrite]
      rfl

theorem emitEffect_of_some {kind : Kind} (h : before.Leads scaffold.file (some kind)) :
    emitEffect .skipExisting scaffold before = ⟨.ok .skipped, []⟩ := by
  rw [emitEffect, if_pos (FileTree.exists?_iff_leads.mpr ⟨kind, h⟩)]

theorem emitEffect_of_file {old : ByteArray} (h : before.Leads scaffold.file (some (.file old))) :
    emitEffect .overwrite scaffold before =
      ⟨.ok .overwritten, [.makeFile (before.locationOf scaffold.file),
        .fill (before.locationOf scaffold.file) scaffold.text.toUTF8]⟩ := by
  have hthere := FileTree.exists?_iff_leads.mpr ⟨_, h⟩
  have hwrite := FileTree.write_of_leads scaffold.text.toUTF8 h (by simp)
  rw [emitEffect, overwriteEffect, hthere, hwrite]
  rfl

theorem emitEffect_of_directory (h : before.Leads scaffold.file (some .directory)) :
    emitEffect .overwrite scaffold before = ⟨.error (.unwritable scaffold.file .isDirectory), []⟩ := by
  rw [emitEffect, overwriteEffect, FileTree.write_of_leads_directory _ h]

/-- Where neither call can write the file nothing is done, and the fault is told. -/
theorem emitEffect_of_fault (policy : Policy) {fault : Fault}
    (hmissing : before.exists? scaffold.file = false) (hexplains : before.Explains scaffold.file fault)
    (hnew : before.writeNew scaffold.file scaffold.text.toUTF8 = .error fault)
    (hwrite : before.write scaffold.file scaffold.text.toUTF8 = .error fault) :
    emitEffect policy scaffold before = ⟨.error (.unwritable scaffold.file fault), []⟩ := by
  cases policy with
  | overwrite => rw [emitEffect, overwriteEffect, hwrite]
  | skipExisting =>
      rw [emitEffect, hmissing, writeNewEffect, hnew]
      -- a name that is taken explains nothing
      cases fault with
      | alreadyExists => cases hexplains with | blocked hblocks => cases hblocks
      | _ => rfl

theorem emitEffect_of_not_leads (policy : Policy) (h : ∀ found, ¬ before.Leads scaffold.file found) :
    ∃ fault, before.Explains scaffold.file fault ∧
      emitEffect policy scaffold before = ⟨.error (.unwritable scaffold.file fault), []⟩ := by
  obtain ⟨fault, hexplains, hfault⟩ := FileTree.exists_fault_of_not_leads h
  obtain ⟨hnew, hwrite⟩ := hfault scaffold.text.toUTF8
  have hmissing : before.exists? scaffold.file = false := by
    rw [← Bool.not_eq_true, FileTree.exists?_iff_leads]
    rintro ⟨kind, hkind⟩
    exact h _ hkind
  exact ⟨fault, hexplains, emitEffect_of_fault policy hmissing hexplains hnew hwrite⟩

theorem emitEffect_of_spot_error (policy : Policy) {fault : Fault}
    (h : before.spot scaffold.file = .error fault) :
    emitEffect policy scaffold before = ⟨.error (.unwritable scaffold.file fault), []⟩ := by
  refine emitEffect_of_fault policy ?_ (FileTree.explains_of_spot h) ?_ ?_
  · rw [FileTree.exists?_eq, h]
  · rw [FileTree.writeNew_eq, h]
  · rw [FileTree.write_eq, h]

/-! ## The truth -/

theorem tellsTruth_of_none (policy : Policy) (h : before.Leads scaffold.file none) :
    TellsTruth policy scaffold before (emitEffect policy scaffold before).result
      ((emitEffect policy scaffold before).after before) := by
  have hdecided : Decided policy scaffold before (.ok .written) := by
    refine ⟨?_, ?_, ?_, ?_, nofun⟩ <;> simp [h.iff_eq]
  rw [emitEffect_of_none policy h]
  exact hdecided.tellsTruth_of_puts (.inl rfl) h (by simp) (puts_of_leads h (by simp) _)

theorem tellsTruth_of_some {kind : Kind} (h : before.Leads scaffold.file (some kind)) :
    TellsTruth .skipExisting scaffold before (emitEffect .skipExisting scaffold before).result
      ((emitEffect .skipExisting scaffold before).after before) := by
  have hdecided : Decided .skipExisting scaffold before (.ok .skipped) := by
    refine ⟨?_, ?_, ?_, ?_, nofun⟩ <;> simp [h.iff_eq]
  rw [emitEffect_of_some h]
  exact hdecided.tellsTruth_of_unchanged nofun nofun

theorem tellsTruth_of_file {old : ByteArray} (h : before.Leads scaffold.file (some (.file old))) :
    TellsTruth .overwrite scaffold before (emitEffect .overwrite scaffold before).result
      ((emitEffect .overwrite scaffold before).after before) := by
  have hdecided : Decided .overwrite scaffold before (.ok .overwritten) := by
    refine ⟨?_, ?_, ?_, ?_, nofun⟩ <;> simp [h.iff_eq]
  rw [emitEffect_of_file h]
  exact hdecided.tellsTruth_of_puts (.inr rfl) h (by simp) (puts_of_leads h (by simp) _)

theorem tellsTruth_of_directory (h : before.Leads scaffold.file (some .directory)) :
    TellsTruth .overwrite scaffold before (emitEffect .overwrite scaffold before).result
      ((emitEffect .overwrite scaffold before).after before) := by
  have hdecided : Decided .overwrite scaffold before
      (.error (.unwritable scaffold.file .isDirectory)) := by
    refine ⟨?_, ?_, ?_, ?_, ?_⟩
    iterate 4 simp [h.iff_eq]
    rintro failure hfailure
    exact ⟨_, (Except.error.inj hfailure).symm, .directory h.kindAt?_eq⟩
  rw [emitEffect_of_directory h]
  exact hdecided.tellsTruth_of_unchanged nofun nofun

theorem tellsTruth_of_not_leads (policy : Policy) (h : ∀ found, ¬ before.Leads scaffold.file found) :
    TellsTruth policy scaffold before (emitEffect policy scaffold before).result
      ((emitEffect policy scaffold before).after before) := by
  obtain ⟨fault, hexplains, heffect⟩ := emitEffect_of_not_leads policy h
  have hdecided : Decided policy scaffold before (.error (.unwritable scaffold.file fault)) := by
    refine ⟨?_, ?_, ?_, ?_, ?_⟩
    iterate 4 simp [h]
    rintro failure hfailure
    exact ⟨fault, (Except.error.inj hfailure).symm, hexplains⟩
  rw [heffect]
  exact hdecided.tellsTruth_of_unchanged nofun nofun

/-- Whatever the policy and whatever is there, emitting a scaffold tells the truth. -/
theorem tellsTruth_emit (policy : Policy) (scaffold : Scaffold) (workspace : Workspace) :
    TellsTruth policy scaffold workspace.files ((emit policy scaffold).runOn workspace).1
      ((emit policy scaffold).runOn workspace).2.files := by
  obtain ⟨log, hrun⟩ := does_emit policy scaffold workspace.files workspace rfl
  rw [hrun]
  by_cases hnowhere : ∀ found, ¬ workspace.files.Leads scaffold.file found
  · exact tellsTruth_of_not_leads policy hnowhere
  obtain ⟨found, hleads⟩ := not_forall_not.mp hnowhere
  cases found with
  | none => exact tellsTruth_of_none policy hleads
  | some kind =>
      cases policy with
      | skipExisting => exact tellsTruth_of_some hleads
      | overwrite =>
          cases kind with
          | file old => exact tellsTruth_of_file hleads
          | directory => exact tellsTruth_of_directory hleads

end Emitter

end RouteScaffold.Run
