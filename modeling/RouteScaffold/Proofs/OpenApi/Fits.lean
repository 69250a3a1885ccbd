import RouteScaffold.OpenApi.Description
import RouteScaffold.Proofs.Document.Record

/-!
# What trees fit

Each lemma reads the success of the check as a fact about the tree.  `Fits` forgets whether the tree
belongs to a part that was taken apart, which decides only how names may be written.  A part is an
object that fits all groups of its layout (`fitsGroups_of_record`), one that is selected by a tag those
of the part that the tag stands for (`fitsGroups_of_tagged`).  `Asks` says which shape a part wants under
a key; what stands there has the shape, or is null where the key is optional (`FitsGroups.under`).
-/

namespace RouteScaffold.OpenApi

open Json (Mismatch)

/-- A tree has a shape, whether taken apart before or not. -/
def Fits (shape : Shape) (tree : Json) : Prop := ∃ apart, check apart shape tree = .ok ()

theorem describe_of_check {tree : Json} (h : checkDescription tree = .ok ()) :
    describe tree = .ok (Description.ofTree tree) := by
  rw [describe, h]
  rfl

/-! ## Simple shapes -/

theorem fits_text {tree : Json} (h : Fits .text tree) : ∃ text, tree = .str text := by
  obtain ⟨apart, hcheck⟩ := h
  rw [check] at hcheck
  obtain ⟨text, htext, -⟩ := map_eq_ok hcheck
  cases tree with
  | str found => exact ⟨found, rfl⟩
  | _ => cases htext

theorem fits_flag {tree : Json} (h : Fits .flag tree) : ∃ value, tree = .bool value := by
  obtain ⟨apart, hcheck⟩ := h
  rw [check] at hcheck
  obtain ⟨value, hvalue, -⟩ := map_eq_ok hcheck
  cases tree with
  | bool found => exact ⟨found, rfl⟩
  | _ => cases hvalue

theorem fits_of_checkItems {apart : Bool} {item : Shape} {items : List Json}
    (h : checkItems apart item items = .ok ()) : ∀ tree ∈ items, Fits item tree := by
  induction items with
  | nil => simp
  | cons first rest ih =>
      rw [checkItems] at h
      obtain ⟨_, hfirst, hrest⟩ := bind_eq_ok h
      intro tree hmem
      rcases List.mem_cons.mp hmem with rfl | hmem
      · exact ⟨apart, hfirst⟩
      · exact ih hrest tree hmem

theorem fits_list {item : Shape} {tree : Json} (h : Fits (.list item) tree) :
    ∃ items, tree = .arr items ∧ ∀ child ∈ items, Fits item child := by
  obtain ⟨apart, hcheck⟩ := h
  cases tree with
  | arr items =>
      rw [check] at hcheck
      exact ⟨items, rfl, fits_of_checkItems hcheck⟩
  | _ => simp [check] at hcheck

/-- Checking the members of an object checks each of them. -/
theorem checkMembers_cons {apart : Bool} {select : String → Option (Presence × Shape)} {key : String}
    {child : Json} {rest : List (String × Json)}
    (h : checkMembers apart select ((key, child) :: rest) = .ok ()) :
    (∀ presence shape, select key = some (presence, shape) →
      presence = .optional ∧ child = .null ∨ Fits shape child) ∧
      checkMembers apart select rest = .ok () := by
  rw [checkMembers] at h
  split at h
  · rename_i hselect
    refine ⟨fun presence shape hsome => ?_, h⟩
    cases hselect.symm.trans hsome
  · rename_i presence shape hselect
    split at h
    · refine ⟨fun other found hsome => ?_, h⟩
      obtain ⟨rfl, rfl⟩ := Prod.mk.inj (Option.some.inj (hselect.symm.trans hsome))
      exact .inl ⟨rfl, rfl⟩
    · obtain ⟨_, hfirst, hrest⟩ := bind_eq_ok h
      refine ⟨fun other found hsome => ?_, hrest⟩
      obtain ⟨rfl, rfl⟩ := Prod.mk.inj (Option.some.inj (hselect.symm.trans hsome))
      exact .inr ⟨apart, hfirst⟩

/-- What stands under a selected key has the shape for it, or is null where the key is optional. -/
theorem fits_of_checkMembers {apart : Bool} {select : String → Option (Presence × Shape)}
    {members : List (String × Json)} (h : checkMembers apart select members = .ok ())
    {key : String} {child : Json} {presence : Presence} {shape : Shape}
    (hmem : (key, child) ∈ members) (hselect : select key = some (presence, shape)) :
    presence = .optional ∧ child = .null ∨ Fits shape child := by
  induction members with
  | nil => simp at hmem
  | cons member rest ih =>
      obtain ⟨hfirst, hrest⟩ := checkMembers_cons h
      rcases List.mem_cons.mp hmem with rfl | hmem
      · exact hfirst presence shape hselect
      · exact ih hrest hmem

theorem fits_table {value : Shape} {tree : Json} (h : Fits (.table value) tree) :
    ∃ members, tree = .obj members ∧ ∀ member ∈ members, Fits value member.2 := by
  obtain ⟨apart, hcheck⟩ := h
  cases tree with
  | obj members =>
      rw [check] at hcheck
      refine ⟨members, rfl, fun member hmember => ?_⟩
      rcases fits_of_checkMembers hcheck hmember rfl with ⟨hoptional, -⟩ | hfits
      · cases hoptional
      · exact hfits
  | _ => simp [check] at hcheck

/-- What is no reference has the shape of the thing itself. -/
theorem fits_orReference {target : Shape} {tree : Json} (h : Fits (.orReference target) tree)
    (hnone : tree.reference? = none) : Fits target tree := by
  obtain ⟨apart, hcheck⟩ := h
  rw [check, hnone] at hcheck
  exact ⟨false, hcheck⟩

/-! ## Groups of keys -/

/-- An object fits a group of keys. -/
def FitsGroup (group : Group) (members : List (String × Json)) : Prop :=
  ∃ apart, checkMembers apart (group.shapeOf (group.chosen members)) members = .ok () ∧
    group.missing members = .ok ()

namespace FitsGroup

variable {members : List (String × Json)} {key : String} {child : Json}

theorem field {wanted : List Field} (h : FitsGroup (.fields wanted) members) {field : Field}
    (hfind : wanted.find? (·.key = key) = some field) (hmem : (key, child) ∈ members) :
    field.presence = .optional ∧ child = .null ∨ Fits field.shape child := by
  obtain ⟨apart, hcheck, -⟩ := h
  refine fits_of_checkMembers hcheck hmem ?_
  rw [Group.shapeOf, hfind]
  rfl

theorem required {wanted : List Field} (h : FitsGroup (.fields wanted) members) {field : Field}
    (hfield : field ∈ wanted) (hpresence : field.presence = .required) :
    field.key ∈ members.map (·.1) := by
  obtain ⟨apart, -, hmissing⟩ := h
  by_contra hnone
  rw [Group.missing] at hmissing
  split at hmissing
  · cases hmissing
  · rename_i hfind
    have hthere := List.find?_eq_none.mp hfind field hfield
    have habsent : members.any (·.1 = field.key) = false := by
      rw [List.any_eq_false]
      intro member hmember
      simpa using fun heq => hnone (List.mem_map.mpr ⟨member, hmember, heq⟩)
    simp [hpresence, habsent] at hthere

theorem keys {family : KeyClass} {shape : Shape} (h : FitsGroup (.keys family shape) members)
    (hmem : (key, child) ∈ members) (hkey : family.has key = true) : Fits shape child := by
  obtain ⟨apart, hcheck, -⟩ := h
  have hselect : (Group.keys family shape).shapeOf ((Group.keys family shape).chosen members) key =
      some (.required, shape) := by
    rw [Group.shapeOf, if_pos hkey]
  rcases fits_of_checkMembers hcheck hmem hselect with ⟨hoptional, -⟩ | hfits
  · cases hoptional
  · exact hfits

end FitsGroup

/-! ## Parts -/

/-- The groups of keys that a part is laid out in. -/
def groupsOf (part : Part) : List Group :=
  match layout part with
  | .record _ groups => groups
  | .tagged .. => []

/-- An object fits all groups of a part. -/
def FitsGroups (part : Part) (members : List (String × Json)) : Prop :=
  ∀ group ∈ groupsOf part, FitsGroup group members

theorem forM_eq_ok {α : Type} {step : α → Except Mismatch Unit} {items : List α}
    (h : items.forM step = .ok ()) : ∀ item ∈ items, step item = .ok () := by
  induction items with
  | nil => simp
  | cons first rest ih =>
      have hsteps : (step first >>= fun _ => rest.forM step) = .ok () := h
      obtain ⟨_, hfirst, hrest⟩ := bind_eq_ok hsteps
      exact List.forall_mem_cons.mpr ⟨hfirst, ih hrest⟩

/-- An object that fits a part fits the groups it is checked for. -/
theorem exists_groupsFor {part : Part} {tree : Json} (h : Fits (.part part) tree) :
    ∃ taken selection, groupsFor part tree = .ok (taken, selection) ∧
      ∀ members, tree = .obj members → ∀ group ∈ selection.groups, FitsGroup group members := by
  obtain ⟨apart, hcheck⟩ := h
  rw [check] at hcheck
  obtain ⟨⟨taken, selection⟩, hgroups, hrest⟩ := bind_eq_ok hcheck
  refine ⟨taken, selection, hgroups, ?_⟩
  rintro members rfl group hgroup
  obtain ⟨_, hmembers, hmissing⟩ := bind_eq_ok (forM_eq_ok (mapError_eq_ok hrest) group hgroup)
  exact ⟨_, hmembers, hmissing⟩

/-- A tree that fits a part with a layout of its own is an object that fits the groups. -/
theorem fitsGroups_of_record {part : Part} {title : String} {groups : List Group} {tree : Json}
    (hlayout : layout part = .record title groups) (h : Fits (.part part) tree) :
    ∃ members, tree = .obj members ∧ FitsGroups part members := by
  obtain ⟨taken, selection, hgroups, hall⟩ := exists_groupsFor h
  rw [groupsFor, hlayout] at hgroups
  cases tree with
  | obj members =>
      obtain ⟨-, rfl⟩ := Prod.mk.inj (Except.ok.inj hgroups)
      refine ⟨members, rfl, ?_⟩
      rw [FitsGroups, groupsOf, hlayout]
      exact hall members rfl
  | _ => cases hgroups

/-- A tree that fits a part selected by a tag is an object that has the tag and fits the groups of the
part that the tag stands for. -/
theorem fitsGroups_of_tagged {part : Part} {title tag : String} {parts : List (String × Part)}
    {tree : Json} (hlayout : layout part = .tagged title tag parts) (h : Fits (.part part) tree) :
    ∃ members found selected, tree = .obj members ∧ members.lookup tag = some found ∧
      findPart parts found = .ok selected ∧ FitsGroups selected members := by
  obtain ⟨taken, selection, hgroups, hall⟩ := exists_groupsFor h
  rw [groupsFor, hlayout] at hgroups
  obtain ⟨selected, hselect, hpair⟩ := map_eq_ok hgroups
  obtain ⟨-, rfl⟩ := Prod.mk.inj hpair
  cases tree with
  | obj members =>
      rw [selectPart] at hselect
      split at hselect
      · cases hselect
      · rename_i found hfound
        obtain ⟨chosen, hchosen, rfl⟩ := map_eq_ok hselect
        exact ⟨members, found, chosen, rfl, hfound, hchosen, hall members rfl⟩
  | arr items =>
      -- an array selects a part by its first item, but never is one
      cases items with
      | nil => cases hselect
      | cons first rest =>
          rw [selectPart] at hselect
          obtain ⟨chosen, -, hselect⟩ := bind_eq_ok hselect
          dsimp only at hselect
          split at hselect
          · cases hselect
          · split at hselect <;> cases hselect
  | _ => cases hselect

/-! ## Under a key -/

/-- A part asks for a shape under a key. -/
def Asks (part : Part) (key : String) (presence : Presence) (shape : Shape) : Prop :=
  ∃ wanted, .fields wanted ∈ groupsOf part ∧
    wanted.find? (·.key = key) = some ⟨key, presence, shape⟩

namespace FitsGroups

variable {part : Part} {members : List (String × Json)} {key : String} {presence : Presence}
  {shape : Shape} {child : Json}

theorem under (h : FitsGroups part members) (hasks : Asks part key presence shape)
    (hmem : (key, child) ∈ members) :
    presence = .optional ∧ child = .null ∨ Fits shape child := by
  obtain ⟨wanted, hwanted, hfind⟩ := hasks
  exact (h _ hwanted).field hfind hmem

/-- Where null does not count as missing, the shape is there. -/
theorem under_of_ne (h : FitsGroups part members) (hasks : Asks part key presence shape)
    (hmem : (key, child) ∈ members) (hne : presence ≠ .optional) : Fits shape child := by
  rcases h.under hasks hmem with ⟨hoptional, -⟩ | hfits
  · exact absurd hoptional hne
  · exact hfits

theorem has_key (h : FitsGroups part members) (hasks : Asks part key .required shape) :
    key ∈ members.map (·.1) := by
  obtain ⟨wanted, hwanted, hfind⟩ := hasks
  exact (h _ hwanted).required (List.mem_of_find?_eq_some hfind) rfl

end FitsGroups

end RouteScaffold.OpenApi
