import RouteScaffold.Proofs.Document.Outline
import RouteScaffold.Proofs.OpenApi.Reordered

/-!
# Documents in another order

A tree in another order is read as a document with the same components, and with the same paths and
operations in another order (`read_of_reordered`).
-/

namespace RouteScaffold.Document

open Json (Distinct Mismatch Reordered ReorderedItem ReorderedPaths ReorderedTree)
open OpenApi (Description describe membersAt Method)

variable {first second : Json}

/-- Documents with the same components and with the same paths in any order, the operations of each path in
any order. -/
structure SameUpToOrder (first second : RouteScaffold.Document) : Prop where
  components_eq : first.components = second.components
  paths : ∃ middle, first.paths.Perm middle ∧ List.Forall₂ (fun path other =>
    path.1 = other.1 ∧ path.2.operations.Perm other.2.operations) middle second.paths

/-! ## Reading succeeds -/

/-- What stands under a key in the other order is related to something there in the first. -/
theorem under_of_reordered {below : String → Json → Json → Prop} {members others : List (String × Json)}
    (h : Reordered below (.obj members) (.obj others)) {key : String} {P Q : Json → Prop}
    (hbelow : ∀ child other, below key child other → P child → Q other) (hmembers : Under members key P) :
    Under others key Q := by
  intro other hother
  obtain ⟨child, hchild, hrelated⟩ := h.exists_of_mem hother
  exact hbelow _ _ hrelated (hmembers _ hchild)

theorem isPathItem_of_reordered (h : ReorderedItem first second) (hfirst : IsPathItem first) :
    IsPathItem second := by
  obtain ⟨members, others, rfl, rfl⟩ := Reordered.exists_members h
  have hunder : ∀ {key : String} {P : Json → Prop}, Under members key P → Under others key P :=
    under_of_reordered h fun _ _ heq => Eq.mp (congrArg _ heq)
  obtain ⟨_, heq, hparameters, hmethods⟩ := hfirst
  cases heq
  exact ⟨others, rfl, hunder hparameters, fun method => hunder (hmethods method)⟩

theorem isTable_of_reordered (h : ReorderedPaths first second) (hfirst : IsTable IsPathItem first) :
    IsTable IsPathItem second := by
  obtain ⟨members, others, rfl, rfl⟩ := Reordered.exists_members h
  obtain ⟨_, heq, hmembers⟩ := hfirst
  cases heq
  refine ⟨others, rfl, fun other hother => ?_⟩
  obtain ⟨child, hchild, hitem⟩ := Reordered.exists_of_mem h hother
  exact isPathItem_of_reordered hitem (hmembers _ hchild)

theorem isDocument_of_reordered (h : ReorderedTree first second) (hfirst : IsDocument first) :
    IsDocument second := by
  obtain ⟨members, others, rfl, rfl⟩ := Reordered.exists_members h
  obtain ⟨hforms, hkeys⟩ := isRecord_obj.mp hfirst
  refine .object (fun slot hslot => ?_) fun slot hslot hrefused =>
    (Reordered.keys_perm h).mem_iff.mp (hkeys slot hslot hrefused)
  -- what stands under a key is the same in both orders, but for the paths
  refine under_of_reordered h (fun child other hbelow hchild => ?_) (hforms slot hslot)
  by_cases hkey : slot.key = "paths"
  · rw [if_pos hkey] at hbelow
    have hpaths : slot = ⟨"paths", .defaulted, IsTable IsPathItem⟩ := by
      simp only [documentSlots, List.mem_cons, List.not_mem_nil, or_false] at hslot
      rcases hslot with rfl | rfl | rfl
      · exact absurd hkey (by decide)
      · rfl
      · exact absurd hkey (by decide)
    subst hpaths
    exact isTable_of_reordered hbelow hchild
  · rw [if_neg hkey] at hbelow
    exact hbelow ▸ hchild

/-! ## What is read -/

/-- A member has at most one operation read from it. -/
theorem rightUnique_readsOperation : Relator.RightUnique ReadsOperation := by
  rintro member ⟨method, operation⟩ ⟨other, more⟩ hentry hother
  cases hentry.1.symm.trans hother.1
  cases hentry.2.symm.trans hother.2
  rfl

theorem operations_of_reordered {item other : PathItem} (h : ReorderedItem first second)
    (hfirst : first.Distinct) (hsecond : second.Distinct) (hread : PathItem.read first = .ok item)
    (hreadOther : PathItem.read second = .ok other) : item.operations.Perm other.operations := by
  have hitem := operations_of_read hfirst hread
  have hother := operations_of_read hsecond hreadOther
  obtain ⟨members, middle, others, rfl, rfl, hperm, hrelated⟩ := h
  have hmiddle : middle = others := by
    rw [← List.forall₂_eq_eq_eq]
    exact hrelated.imp fun _ _ hentry => Prod.ext hentry.1 hentry.2
  subst hmiddle
  exact List.rel_perm_imp rightUnique_readsOperation hitem hother (hperm.filter _)

variable {description : Description} {document other : RouteScaffold.Document}

theorem paths_of_reordered (h : ReorderedTree first second) (hfirst : first.Distinct)
    (hsecond : second.Distinct) (hdescribe : describe first = .ok description)
    (hread : Document.read first = .ok document) (hreadOther : Document.read second = .ok other) :
    ∃ middle, document.paths.Perm middle ∧ List.Forall₂ (fun path other =>
      path.1 = other.1 ∧ path.2.operations.Perm other.2.operations) middle other.paths := by
  obtain ⟨hdescription, hdescribeOther⟩ := OpenApi.describe_of_reordered h hfirst hdescribe
  have hpaths := readsPath_of_read hfirst hdescribe hread
  have hpathsOther := readsPath_of_read hsecond hdescribeOther hreadOther
  obtain ⟨ordered, hperm, hrelated⟩ := OpenApi.membersAt_of_reordered h hfirst
  -- the paths of the first document in the order of the second tree
  obtain ⟨middle, hmiddle, hpermuted⟩ := List.perm_comp_forall₂ hperm.symm hpaths
  refine ⟨middle, hpermuted.symm, ?_⟩
  generalize membersAt second "paths" = others at hrelated hpathsOther
  generalize other.paths = morePaths at hpathsOther ⊢
  clear hperm hpermuted
  induction hrelated generalizing middle morePaths with
  | nil =>
      cases hmiddle
      cases hpathsOther
      exact .nil
  | cons hentry hrest ih =>
      cases hmiddle with
      | cons hpath hmiddle =>
          cases hpathsOther with
          | cons hother hpathsOther =>
              refine .cons ⟨?_, ?_⟩ (ih _ hmiddle _ hpathsOther)
              · exact (hpath.2.1.symm.trans hentry.1).trans hother.2.1
              · exact operations_of_reordered hentry.2 hpath.1 hother.1 hpath.2.2 hother.2.2

/-- A tree in another order is read as a document in another order. -/
theorem read_of_reordered (h : ReorderedTree first second) (hfirst : first.Distinct)
    (hsecond : second.Distinct) (hdescribe : describe first = .ok description)
    (hread : Document.read first = .ok document) :
    ∃ other, Document.read second = .ok other ∧ SameUpToOrder document other := by
  obtain ⟨other, hreadOther⟩ := (accepts_document second).mpr
    (isDocument_of_reordered h ((accepts_document first).mp ⟨document, hread⟩))
  refine ⟨other, hreadOther, ?_, paths_of_reordered h hfirst hsecond hdescribe hread hreadOther⟩
  have hget := h.get?_eq hfirst (show "components" ≠ "paths" by decide)
  obtain ⟨members, middle, others, rfl, rfl, -⟩ := h
  have hcomponents := fills_components.readFrom hfirst hread
  rw [hget] at hcomponents
  exact hcomponents.unique (fills_components.readFrom hsecond hreadOther)

/-! ## Operations in another order -/

theorem SameUpToOrder.operations_perm (h : SameUpToOrder document other) :
    document.operations.Perm other.operations := by
  obtain ⟨-, middle, hperm, hrelated⟩ := h
  refine (hperm.flatMap_right _).trans ?_
  rw [RouteScaffold.Document.operations]
  generalize other.paths = others at hrelated
  clear hperm
  induction hrelated with
  | nil => exact .refl _
  | cons hentry hrest ih =>
      rename_i path other paths more
      obtain ⟨template, item⟩ := path
      obtain ⟨_, otherItem⟩ := other
      obtain ⟨rfl, hoperations⟩ := hentry
      exact (hoperations.map _).append ih

theorem SameUpToOrder.templates_perm (h : SameUpToOrder document other) :
    (document.paths.map (·.1)).Perm (other.paths.map (·.1)) := by
  obtain ⟨-, middle, hperm, hrelated⟩ := h
  exact map_eq_of_forall₂ hrelated (fun _ _ hentry => hentry.1) ▸ hperm.map _

end RouteScaffold.Document
