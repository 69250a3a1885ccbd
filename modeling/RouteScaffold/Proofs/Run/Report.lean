import Mathlib.Tactic.Common
import RouteScaffold.Run.Basic

/-!
# Reports

A report grows entry by entry, and one of its counters grows with each (`count_record`).  So the report of some
entries holds them in their order, and its counters are the numbers of entries with each outcome
(`count_ofEntries`): together they are as many as the scaffolds.
-/

namespace RouteScaffold.Run.Report

variable (report : Report)

/-! ## One entry more -/

@[simp] theorem entries_record (entry : Entry) :
    (report.record entry).entries = report.entries ++ [entry] := rfl

theorem count_record (entry : Entry) (outcome : Outcome) :
    (report.record entry).count outcome =
      report.count outcome + if entry.outcome = outcome then 1 else 0 := by
  rw [record]
  cases entry.outcome <;> cases outcome <;> rfl

/-! ## All entries of a run -/

/-- The report of some entries. -/
def ofEntries (entries : List Entry) : Report := entries.foldl record {}

theorem entries_foldl_record (entries : List Entry) :
    (entries.foldl record report).entries = report.entries ++ entries := by
  induction entries generalizing report with
  | nil => exact (List.append_nil _).symm
  | cons entry rest ih =>
      rw [List.foldl_cons, ih, entries_record, List.append_assoc, List.singleton_append]

theorem count_foldl_record (entries : List Entry) (outcome : Outcome) :
    (entries.foldl record report).count outcome =
      report.count outcome + entries.countP fun entry => entry.outcome = outcome := by
  induction entries generalizing report with
  | nil => rfl
  | cons entry rest ih =>
      rw [List.foldl_cons, ih, count_record, List.countP_cons]
      simp only [decide_eq_true_eq]
      omega

@[simp] theorem entries_ofEntries (entries : List Entry) : (ofEntries entries).entries = entries := by
  rw [ofEntries, entries_foldl_record]
  rfl

@[simp] theorem scaffolds_ofEntries (entries : List Entry) :
    (ofEntries entries).scaffolds = entries.map (·.scaffold) := by
  rw [scaffolds, entries_ofEntries]

@[simp] theorem notes_ofEntries (entries : List Entry) :
    (ofEntries entries).notes = entries.flatMap (·.notes) := by
  rw [notes, entries_ofEntries]

theorem count_ofEntries (entries : List Entry) (outcome : Outcome) :
    (ofEntries entries).count outcome = entries.countP fun entry => entry.outcome = outcome := by
  rw [ofEntries, count_foldl_record]
  cases outcome <;> exact Nat.zero_add _

/-- Where all entries have one outcome, its counter is their number, and the others stay at nothing. -/
theorem count_ofEntries_of_forall {entries : List Entry} {own : Outcome}
    (h : ∀ entry ∈ entries, entry.outcome = own) (outcome : Outcome) :
    (ofEntries entries).count outcome = if own = outcome then entries.length else 0 := by
  rw [count_ofEntries]
  split
  · rename_i heq
    exact List.countP_eq_length.mpr fun entry hentry => by simp [h entry hentry, heq]
  · rename_i hne
    exact List.countP_eq_zero.mpr fun entry hentry => by simp [h entry hentry, hne]

end RouteScaffold.Run.Report
