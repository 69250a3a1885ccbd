import RouteScaffold.Proofs.Json.Distinct
import RouteScaffold.Source.Tree

/-!
# Sources have distinct keys

The tree of a source has distinct keys (`Source.distinct_tree`): both readers put a repeated key in
the place of the first one.  For JSON the invariant is that all the arrays and objects that are still
open have distinct keys; for YAML the tree of a node is distinct when those one level below it are.
-/

namespace RouteScaffold

namespace Json

/-! ## Reading JSON -/

/-- The items or the members of an open array or object have distinct keys. -/
def Frame.Distinct : Frame → Prop
  | .array items => Json.Distinct (.arr items)
  | .object members _ => Json.Distinct (.obj members)

/-- What was read of the innermost array or object has distinct keys. -/
def Expecting.Distinct : Expecting → Prop
  | .nextKey members => Json.Distinct (.obj members)
  | .afterValue tree => tree.Distinct
  | _ => True

/-- All that a reader holds has distinct keys. -/
structure Reader.Distinct (reader : Reader) : Prop where
  stack : ∀ frame ∈ reader.stack, frame.Distinct
  expecting : reader.expecting.Distinct

namespace Reader

variable {stack : List Frame} {found : Located} {next : Reader}

theorem distinct_completed {tree : Json} (hstack : ∀ frame ∈ stack, frame.Distinct)
    (htree : tree.Distinct) : (completed stack tree).Distinct := ⟨hstack, htree⟩

theorem distinct_takeValue (hstack : ∀ frame ∈ stack, frame.Distinct)
    (h : takeValue stack found = .ok next) : next.Distinct := by
  have hatom : ∀ tree, tree.Distinct → (.ok (completed stack tree) : Except ReadError Reader) = .ok next →
      next.Distinct := by
    intro tree htree hnext
    rw [← Except.ok.inj hnext]
    exact distinct_completed hstack htree
  unfold takeValue at h
  split at h
  case h_1 => exact hatom .null (by simp) h
  case h_2 value _ => exact hatom (.bool value) (by simp) h
  case h_3 value _ => exact hatom (.num value) (by simp) h
  case h_4 text _ => exact hatom (.str text) (by simp) h
  case h_5 =>
    split at h
    · rw [← Except.ok.inj h]
      exact ⟨hstack, trivial⟩
    · simp [refuse] at h
  case h_6 =>
    split at h
    · rw [← Except.ok.inj h]
      exact ⟨hstack, trivial⟩
    · simp [refuse] at h
  all_goals simp [refuse] at h

theorem distinct_takeKey {members : List (String × Json)} (hmembers : Json.Distinct (.obj members))
    (hstack : ∀ frame ∈ stack, frame.Distinct) (h : takeKey members stack found = .ok next) :
    next.Distinct := by
  unfold takeKey at h
  split at h
  · cases h
    exact ⟨List.forall_mem_cons.mpr ⟨hmembers, hstack⟩, trivial⟩
  all_goals cases h

theorem distinct_takeAfter {value : Json} (hvalue : value.Distinct)
    (hstack : ∀ frame ∈ stack, frame.Distinct) (h : takeAfter stack value found = .ok next) :
    next.Distinct := by
  unfold takeAfter at h
  split at h
  · cases h
  · rename_i items outer
    obtain ⟨hitems, houter⟩ := List.forall_mem_cons.mp hstack
    have hmore : Json.Distinct (.arr (value :: items)) := hvalue.cons hitems
    split at h
    · cases h
      exact ⟨List.forall_mem_cons.mpr ⟨hmore, houter⟩, trivial⟩
    · cases h
      exact ⟨houter, hmore.reverse⟩
    · cases h
  · rename_i members key outer
    obtain ⟨hmembers, houter⟩ := List.forall_mem_cons.mp hstack
    -- a key that was read before has its value replaced, and none is there twice
    have hmore : Json.Distinct (.obj (RouteScaffold.putMember key value members)) :=
      Json.Distinct.putMember hmembers hvalue key
    split at h
    · cases h
      exact ⟨houter, hmore⟩
    · cases h
      exact ⟨houter, hmore⟩
    · cases h

/-- A lexeme keeps what was read distinct. -/
theorem Distinct.take {reader : Reader} (hreader : reader.Distinct)
    (h : reader.take found = .ok next) : next.Distinct := by
  obtain ⟨stack, expecting⟩ := reader
  obtain ⟨hstack, hexpecting⟩ := hreader
  cases expecting with
  | value => exact distinct_takeValue hstack h
  | firstItem =>
      simp only [Reader.take] at h
      split at h
      · cases h
        exact ⟨hstack, Json.Distinct.nil⟩
      · have hframe : (Frame.array []).Distinct := Json.Distinct.nil
        exact distinct_takeValue (List.forall_mem_cons.mpr ⟨hframe, hstack⟩) h
  | firstKey =>
      simp only [Reader.take] at h
      split at h
      · cases h
        exact ⟨hstack, Json.Distinct.empty⟩
      · exact distinct_takeKey .empty hstack h
  | nextKey members =>
      simp only [Reader.take] at h
      split at h
      · cases h
      · exact distinct_takeKey hexpecting hstack h
  | nextItem =>
      simp only [Reader.take] at h
      split at h
      · cases h
      · exact distinct_takeValue hstack h
  | colon =>
      simp only [Reader.take] at h
      split at h
      · cases h
        exact ⟨hstack, trivial⟩
      · cases h
  | afterValue value => exact distinct_takeAfter hexpecting hstack h

theorem Distinct.finish {reader : Reader} {place : Position} {tree : Json}
    (hreader : reader.Distinct) (h : reader.finish place = .ok tree) : tree.Distinct := by
  obtain ⟨stack, expecting⟩ := reader
  unfold Reader.finish at h
  split at h
  case h_1 hexpecting _ =>
    cases h
    have hvalue := hreader.expecting
    rw [hexpecting] at hvalue
    exact hvalue
  all_goals cases h

/-- What a reader reads to the end is distinct. -/
theorem Distinct.run {reader : Reader} {place : Position} {lexemes : List Located} {tree : Json}
    (hreader : reader.Distinct) (h : reader.run place lexemes = .ok tree) : tree.Distinct := by
  induction lexemes generalizing reader with
  | nil => exact hreader.finish h
  | cons found rest ih =>
      rw [Reader.run] at h
      cases htake : reader.take found with
      | error fault =>
          rw [htake] at h
          cases h
      | ok next =>
          rw [htake] at h
          exact ih (hreader.take htake) h

end Reader

theorem distinct_of_parse {text : String} {tree : Json} (h : parse text = .ok tree) :
    tree.Distinct := by
  have hstart : (Reader.mk [] .value).Distinct := ⟨by simp, trivial⟩
  exact hstart.run h

end Json

/-! ## Reading YAML -/

namespace Yaml

theorem distinct_of_tree? {reading : RealReading} {tree : Json} (h : reading.tree? = some tree) :
    tree.Distinct := by
  cases reading with
  | real value =>
      rw [← Option.some.inj h]
      simp
  | special =>
      rw [← Option.some.inj h]
      simp
  | notReal => simp [RealReading.tree?] at h

theorem distinct_of_plainTree {text : List Char} {tree : Json} (h : plainTree text = some tree) :
    tree.Distinct := by
  unfold plainTree at h
  split at h
  · rw [← Option.some.inj h]
    simp
  split at h
  · rw [← Option.some.inj h]
    simp
  split at h
  · rw [← Option.some.inj h]
    simp
  · simp at h
  · have hreal : ∀ real, (if isPaddedDigits text then none else (readReal text).tree?) = some real →
        real.Distinct := by
      intro real hreal
      split at hreal
      · simp at hreal
      · exact distinct_of_tree? hreal
    rw [← Option.some.inj h]
    cases hread : if isPaddedDigits text then none else (readReal text).tree? with
    | none => simp
    | some real => exact hreal real hread

theorem distinct_of_taggedTree {tag : Tag} {text : List Char} {plain : Bool} {tree : Json}
    (h : taggedTree tag text plain = some tree) : tree.Distinct := by
  unfold taggedTree at h
  split at h
  · obtain ⟨value, -, rfl⟩ := Option.map_eq_some_iff.mp h
    simp
  split at h
  · split at h
    · rw [← Option.some.inj h]
      simp
    · simp at h
  split at h
  · exact distinct_of_tree? h
  split at h
  · split at h
    · rw [← Option.some.inj h]
      simp
    · simp at h
  split at h
  · simp at h
  split at h
  · exact distinct_of_plainTree h
  · rw [← Option.some.inj h]
    simp

theorem distinct_of_scalarTree {tag : Option Tag} {text : List Char} {plain : Bool} {tree : Json}
    (h : scalarTree tag text plain = some tree) : tree.Distinct := by
  unfold scalarTree at h
  split at h
  · exact distinct_of_taggedTree h
  split at h
  · exact distinct_of_plainTree h
  · rw [← Option.some.inj h]
    simp

namespace Scope

variable {scope : Scope} {depth : Nat}

theorem step_bind_eq_some {α β : Type} {step : Step α} {next : α → Step β} {start : Nat}
    {result : β × Nat} (h : (step >>= next) start = some result) :
    ∃ value middle, step start = some (value, middle) ∧ next value middle = some result := by
  obtain ⟨⟨value, middle⟩, hstep, hnext⟩ := Option.bind_eq_some_iff.mp h
  exact ⟨value, middle, hstep, hnext⟩

/-- What is made of a node with some lists and mappings below it has distinct keys. -/
def DistinctBelow (scope : Scope) (depth : Nat) : Prop :=
  ∀ node followed tree more, scope.tree depth node followed = some (tree, more) → tree.Distinct

theorem distinct_of_itemTrees (htrees : scope.DistinctBelow depth) {items : List Node}
    {followed more : Nat} {trees : List Json}
    (h : scope.itemTrees depth items followed = some (trees, more)) : Json.Distinct (.arr trees) := by
  induction items generalizing followed trees more with
  | nil =>
      rw [itemTrees] at h
      cases h
      exact .nil
  | cons item rest ih =>
      rw [itemTrees] at h
      obtain ⟨tree, middle, htree, h⟩ := step_bind_eq_some h
      obtain ⟨later, last, hlater, h⟩ := step_bind_eq_some h
      cases h
      exact (htrees _ _ _ _ htree).cons (ih hlater)

theorem distinct_of_entryTrees (htrees : scope.DistinctBelow depth) {entries : List (Node × Node)}
    {followed more : Nat} {members result : List (String × Json)}
    (hmembers : Json.Distinct (.obj members))
    (h : scope.entryTrees depth entries members followed = some (result, more)) :
    Json.Distinct (.obj result) := by
  induction entries generalizing followed members with
  | nil =>
      rw [entryTrees] at h
      cases h
      exact hmembers
  | cons entry rest ih =>
      rw [entryTrees] at h
      obtain ⟨key, first, -, h⟩ := step_bind_eq_some h
      obtain ⟨value, second, hvalue, h⟩ := step_bind_eq_some h
      exact ih (hmembers.putMember (htrees _ _ _ _ hvalue) key) h

/-- The lists and mappings of one depth are made of what is below them. -/
theorem distinctBelow_of_lower
    (hlower : ∀ lower, depth = lower + 1 → scope.DistinctBelow lower) :
    scope.DistinctBelow depth := by
  intro node followed tree more h
  rw [Scope.tree] at h
  obtain ⟨target, middle, -, h⟩ := step_bind_eq_some h
  split at h
  · cases h
  · obtain ⟨scalar, hscalar, heq⟩ := Option.map_eq_some_iff.mp h
    cases heq
    exact distinct_of_scalarTree hscalar
  · split at h
    · cases h
    split at h
    · cases h
    · obtain ⟨items, last, hitems, h⟩ := step_bind_eq_some h
      cases h
      exact distinct_of_itemTrees (hlower _ rfl) hitems
  · split at h
    · cases h
    split at h
    · cases h
    · obtain ⟨members, last, hmembers, h⟩ := step_bind_eq_some h
      cases h
      exact distinct_of_entryTrees (hlower _ rfl) .empty hmembers

theorem distinctBelow (scope : Scope) (depth : Nat) : scope.DistinctBelow depth := by
  induction depth with
  | zero => exact distinctBelow_of_lower fun lower hlower => by omega
  | succ depth ih =>
      refine distinctBelow_of_lower fun lower hlower => ?_
      obtain rfl : depth = lower := Nat.succ_inj.mp hlower
      exact ih

end Scope

theorem distinct_of_parse {text : String} {tree : Json} (h : parse text = some tree) :
    tree.Distinct := by
  unfold parse at h
  obtain ⟨tokens, -, h⟩ := Option.bind_eq_some_iff.mp h
  obtain ⟨root, -, h⟩ := Option.bind_eq_some_iff.mp h
  split at h
  · cases h
    exact .null
  · obtain ⟨⟨found, followed⟩, hfound, rfl⟩ := Option.map_eq_some_iff.mp h
    exact Scope.distinctBelow _ _ _ _ _ _ hfound

end Yaml

/-! ## Sources -/

namespace Source

theorem distinct_of_readJson {contents : String} {tree : Json} (h : readJson contents = .ok tree) :
    tree.Distinct := by
  unfold readJson at h
  cases hparse : Json.parse contents with
  | error fault => rw [hparse] at h; cases h
  | ok found =>
      rw [hparse] at h
      cases h
      exact Json.distinct_of_parse hparse

theorem distinct_of_readYaml {contents : String} {tree : Json} (h : readYaml contents = .ok tree) :
    tree.Distinct := by
  unfold readYaml at h
  split at h
  · rename_i found hparse
    cases h
    exact Yaml.distinct_of_parse hparse
  · cases h

/-- The tree of a source has distinct keys. -/
theorem distinct_tree {format : Option Format} {contents : String} {tree : Json}
    (h : Source.tree format contents = .ok tree) : tree.Distinct := by
  unfold Source.tree at h
  split at h
  · exact distinct_of_readJson h
  · exact distinct_of_readYaml h
  · split at h
    · rename_i found hjson
      cases h
      exact distinct_of_readJson hjson
    · exact distinct_of_readYaml h

end Source

end RouteScaffold
