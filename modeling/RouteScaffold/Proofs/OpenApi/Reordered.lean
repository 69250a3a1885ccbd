import RouteScaffold.Proofs.OpenApi.Violations

/-!
# Descriptions in another order

The paths of a description may come in any order, and so may the members of each path item
(`ReorderedTree`).  The check accepts a tree in one order exactly when it accepts it in another
(`check_reordered`): the layouts of the parts that are reordered look keys up, or go through all keys of a
class, and neither asks for the first key of a choice.  Strict checks find nothing in the one order if they
find nothing in the other (`violations_of_reordered`), since references lead to the same places and each
operation id is used as often.
-/

namespace RouteScaffold

/-! ## Trees in another order -/

namespace Json

variable {below : String → Json → Json → Prop} {first second : Json}

/-- Objects with the same keys in any order, what stands under each key being related. -/
def Reordered (below : String → Json → Json → Prop) (first second : Json) : Prop :=
  ∃ members middle others, first = .obj members ∧ second = .obj others ∧ members.Perm middle ∧
    List.Forall₂ (fun member other => member.1 = other.1 ∧ below member.1 member.2 other.2) middle
      others

/-- Objects with the same members in any order. -/
def ReorderedItem : Json → Json → Prop := Reordered fun _ => Eq

/-- Objects with the same path items in any order, and the members of each in any order. -/
def ReorderedPaths : Json → Json → Prop := Reordered fun _ => ReorderedItem

/-- Trees of descriptions that differ in the order of their paths and in that of the members of their path
items; their own members too may be in any order. -/
def ReorderedTree : Json → Json → Prop :=
  Reordered fun key => if key = "paths" then ReorderedPaths else Eq

namespace Reordered

theorem exists_members (h : Reordered below first second) :
    ∃ members others, first = .obj members ∧ second = .obj others :=
  let ⟨members, _, others, hfirst, hsecond, _⟩ := h
  ⟨members, others, hfirst, hsecond⟩

theorem exists_of_mem {members others : List (String × Json)}
    (h : Reordered below (.obj members) (.obj others)) {other : String × Json}
    (hother : other ∈ others) :
    ∃ child, (other.1, child) ∈ members ∧ below other.1 child other.2 := by
  obtain ⟨_, middle, _, heq, heqOther, hperm, hrelated⟩ := h
  cases heq
  cases heqOther
  obtain ⟨member, hmember, hkey, hbelow⟩ := exists_of_forall₂ hrelated.flip hother
  rw [hkey] at hbelow
  exact ⟨member.2, hkey ▸ hperm.mem_iff.mpr hmember, hbelow⟩

theorem keys_perm {members others : List (String × Json)}
    (h : Reordered below (.obj members) (.obj others)) :
    (members.map (·.1)).Perm (others.map (·.1)) := by
  obtain ⟨_, middle, _, heq, heqOther, hperm, hrelated⟩ := h
  cases heq
  cases heqOther
  exact map_eq_of_forall₂ hrelated (fun _ _ hentry => hentry.1) ▸ hperm.map _

/-- With distinct keys, what stands under a key in the one order is related to what does in the other. -/
theorem get?_rel (h : Reordered below first second) (hdistinct : first.Distinct) (key : String) :
    Option.Rel (below key) (first.get? key) (second.get? key) := by
  obtain ⟨members, middle, others, rfl, rfl, hperm, hrelated⟩ := h
  have hkeys := (distinct_obj.mp hdistinct).1
  have hlookup : members.lookup key = middle.lookup key := by
    cases hfound : middle.lookup key with
    | none =>
        refine List.lookup_eq_none_iff.mpr fun member hmember => ?_
        exact List.lookup_eq_none_iff.mp hfound member (hperm.mem_iff.mp hmember)
    | some child => exact lookup_of_mem hkeys (hperm.mem_iff.mpr (mem_of_lookup hfound))
  show Option.Rel (below key) (members.lookup key) (others.lookup key)
  rw [hlookup]
  exact Document.lookup_rel_of_forall₂ hrelated key

theorem get?_eq (h : Reordered below first second) (hdistinct : first.Distinct) {key : String}
    (hbelow : ∀ child other, below key child other → child = other) :
    first.get? key = second.get? key :=
  eq_of_rel (h.get?_rel hdistinct key) hbelow

end Reordered

theorem ReorderedItem.get?_eq (h : ReorderedItem first second) (hdistinct : first.Distinct)
    (key : String) : first.get? key = second.get? key :=
  Reordered.get?_eq h hdistinct fun _ _ heq => heq

theorem ReorderedItem.reference?_eq (h : ReorderedItem first second) (hdistinct : first.Distinct) :
    first.reference? = second.reference? := by
  rw [reference?, reference?, getText?, getText?, h.get?_eq hdistinct]

theorem ReorderedTree.get?_eq (h : ReorderedTree first second) (hdistinct : first.Distinct)
    {key : String} (hkey : key ≠ "paths") : first.get? key = second.get? key := by
  refine Reordered.get?_eq h hdistinct fun child other hbelow => ?_
  rwa [if_neg hkey] at hbelow

theorem ReorderedTree.paths (h : ReorderedTree first second) (hdistinct : first.Distinct) :
    Option.Rel ReorderedPaths (first.get? "paths") (second.get? "paths") :=
  Reordered.get?_rel h hdistinct "paths"

end Json

namespace OpenApi

open Json (Distinct Mismatch Reordered ReorderedItem ReorderedPaths ReorderedTree)

variable {first second : Json}

/-! ## The check -/

/-- A member has the shape that is selected for its key, or is null where the key is optional. -/
def Suits (apart : Bool) (select : String → Option (Presence × Shape)) (member : String × Json) :
    Prop :=
  ∀ presence shape, select member.1 = some (presence, shape) →
    presence = .optional ∧ member.2 = .null ∨ check apart shape member.2 = .ok ()

theorem checkMembers_iff {apart : Bool} {select : String → Option (Presence × Shape)}
    {members : List (String × Json)} :
    checkMembers apart select members = .ok () ↔ ∀ member ∈ members, Suits apart select member := by
  induction members with
  | nil => simp [checkMembers]
  | cons member rest ih =>
      obtain ⟨key, value⟩ := member
      rw [List.forall_mem_cons, ← ih, checkMembers]
      cases hselect : select key with
      | none => exact ⟨fun h => ⟨by simp [Suits, hselect], h⟩, fun h => h.2⟩
      | some wanted =>
          obtain ⟨presence, shape⟩ := wanted
          have hsuits : Suits apart select (key, value) ↔
              presence = .optional ∧ value = .null ∨ check apart shape value = .ok () := by
            simp [Suits, hselect]
          rw [hsuits]
          dsimp only
          -- a null is let pass where the member may be left out
          split
          · exact ⟨fun h => ⟨.inl ⟨rfl, rfl⟩, h⟩, fun h => h.2⟩
          · rename_i hnot
            have hnever : ¬ (presence = .optional ∧ value = .null) := fun hnull =>
              hnot hnull.1 hnull.2
            rw [or_iff_right hnever]
            cases check apart shape value with
            | ok _ => simp [Bind.bind, Except.bind]
            | error mismatch => simp [Bind.bind, Except.bind]

theorem forM_eq_ok_iff {α : Type} {step : α → Except Mismatch Unit} {items : List α} :
    items.forM step = .ok () ↔ ∀ item ∈ items, step item = .ok () := by
  refine ⟨forM_eq_ok, fun h => ?_⟩
  induction items with
  | nil => rfl
  | cons first rest ih =>
      obtain ⟨hfirst, hrest⟩ := List.forall_mem_cons.mp h
      show (step first >>= fun _ => rest.forM step) = .ok ()
      rw [hfirst]
      exact ih hrest

/-- An object has the shape of a part with a layout of its own when its members suit all groups and no
group misses a key. -/
theorem check_record_iff {apart : Bool} {part : Part} {title : String} {groups : List Group}
    (hlayout : layout part = .record title groups) (members : List (String × Json)) :
    check apart (.part part) (.obj members) = .ok () ↔ ∀ group ∈ groups,
      (∀ member ∈ members,
        Suits (apart || group.isApart) (group.shapeOf (group.chosen members)) member) ∧
        group.missing members = .ok () := by
  rw [check, groupsFor, hlayout]
  dsimp only [Bind.bind, Except.bind]
  have hblame : ∀ step : Except Mismatch Unit,
      step.mapError (Selection.blame { groups }) = .ok () ↔ step = .ok () := by
    intro step
    refine ⟨mapError_eq_ok, ?_⟩
    rintro rfl
    rfl
  rw [hblame]
  refine forM_eq_ok_iff.trans (forall₂_congr fun group _ => ?_)
  rw [Bool.or_false, ← checkMembers_iff]
  cases checkMembers (apart || group.isApart) (group.shapeOf (group.chosen members)) members with
  | ok _ => simp
  | error mismatch => simp

/-- A part whose groups look keys up, or go through all keys of a class, is accepted in another order. -/
theorem check_reordered {apart : Bool} {part : Part} {title : String} {groups : List Group}
    {below : String → Json → Json → Prop} (hlayout : layout part = .record title groups)
    (hplain : ∀ group ∈ groups, group.isApart = false)
    (hsuits : ∀ group ∈ groups, ∀ key child other, below key child other → child.Distinct →
      Suits apart (group.shapeOf none) (key, child) → Suits apart (group.shapeOf none) (key, other))
    (h : Reordered below first second) (hdistinct : first.Distinct)
    (hcheck : check apart (.part part) first = .ok ()) :
    check apart (.part part) second = .ok () := by
  obtain ⟨members, others, rfl, rfl⟩ := h.exists_members
  rw [check_record_iff hlayout] at hcheck ⊢
  intro group hgroup
  obtain ⟨hmembers, hmissing⟩ := hcheck group hgroup
  have hchosen : ∀ members, group.chosen members = none := by
    intro members
    cases group with
    | firstOf choice forms => cases hplain _ hgroup
    | _ => rfl
  rw [hplain group hgroup, Bool.or_false, hchosen] at hmembers ⊢
  refine ⟨fun other hother => ?_, ?_⟩
  · obtain ⟨child, hchild, hbelow⟩ := h.exists_of_mem hother
    have hvalue := (Json.distinct_obj.mp hdistinct).2 _ hchild
    exact hsuits group hgroup _ _ _ hbelow hvalue (hmembers _ hchild)
  · -- what is missing depends on the keys alone
    have hany : ∀ key, others.any (·.1 = key) = members.any (·.1 = key) := by
      intro key
      have hkeys := h.keys_perm.mem_iff (a := key)
      rw [Bool.eq_iff_iff]
      simpa [List.mem_map] using hkeys.symm
    cases group with
    | fields wanted =>
        rw [Group.missing] at hmissing ⊢
        simp only [hany]
        exact hmissing
    | firstOf choice forms => cases hplain _ hgroup
    | keys family shape => rfl

theorem check_reorderedItem {apart : Bool} (h : ReorderedItem first second)
    (hdistinct : first.Distinct) (hcheck : check apart (.part .pathItem) first = .ok ()) :
    check apart (.part .pathItem) second = .ok () := by
  refine check_reordered rfl ?_ ?_ h hdistinct hcheck
  · intro group hgroup
    obtain rfl := List.mem_singleton.mp hgroup
    rfl
  · rintro group - key child _ rfl - hsuits
    exact hsuits

theorem check_reorderedPaths {apart : Bool} (h : ReorderedPaths first second)
    (hdistinct : first.Distinct) (hcheck : check apart (.part .paths) first = .ok ()) :
    check apart (.part .paths) second = .ok () := by
  refine check_reordered rfl ?_ ?_ h hdistinct hcheck
  · intro group hgroup
    obtain rfl := List.mem_singleton.mp hgroup
    rfl
  · intro group hgroup key child other hitem hchild hsuits presence shape hselect
    obtain rfl := List.mem_singleton.mp hgroup
    -- an item that is a reference stays one, with the same text
    have hwanted := hselect
    rw [Group.shapeOf] at hwanted
    split at hwanted
    · cases hwanted
      refine .inr ?_
      obtain ⟨hoptional, -⟩ | hfits := hsuits _ _ hselect
      · cases hoptional
      rw [check] at hfits ⊢
      dsimp only at hfits ⊢
      rw [← hitem.reference?_eq hchild]
      split
      · rfl
      · rename_i hreference
        rw [if_neg hreference] at hfits
        exact check_reorderedItem hitem hchild hfits
    · cases hwanted

theorem describe_of_reordered {description : Description} (h : ReorderedTree first second)
    (hdistinct : first.Distinct) (hdescribe : describe first = .ok description) :
    description = .ofTree first ∧ describe second = .ok (.ofTree second) := by
  obtain ⟨_, hcheck, rfl⟩ := map_eq_ok hdescribe
  refine ⟨rfl, describe_of_check (check_reordered rfl ?_ ?_ h hdistinct hcheck)⟩
  · intro group hgroup
    obtain rfl := List.mem_singleton.mp hgroup
    rfl
  · intro group hgroup key child other hbelow hchild hsuits presence shape hselect
    obtain rfl := List.mem_singleton.mp hgroup
    by_cases hkey : key = "paths"
    · subst hkey
      rw [if_pos rfl] at hbelow
      obtain ⟨rfl, rfl⟩ : Presence.required = presence ∧ Shape.part .paths = shape :=
        Prod.mk.inj (Option.some.inj hselect)
      obtain ⟨hoptional, -⟩ | hfits := hsuits _ _ hselect
      · cases hoptional
      · exact .inr (check_reorderedPaths hbelow hchild hfits)
    · rw [if_neg hkey] at hbelow
      exact hbelow ▸ hsuits _ _ hselect

/-! ## Descriptions -/

theorem viewReference_of_reordered {first second : Json} (h : ReorderedItem first second)
    (hdistinct : first.Distinct) :
    viewReference DescribedPath.ofTree first = viewReference DescribedPath.ofTree second := by
  have hitem : DescribedPath.ofTree first = DescribedPath.ofTree second := by
    simp only [DescribedPath.ofTree, parametersAt, itemsAt, presentAt, h.get?_eq hdistinct]
  rw [viewReference, viewReference, h.reference?_eq hdistinct, hitem]

theorem membersAt_of_reordered (h : ReorderedTree first second) (hdistinct : first.Distinct) :
    ∃ middle, (membersAt first "paths").Perm middle ∧ List.Forall₂ (fun member other =>
      member.1 = other.1 ∧ ReorderedItem member.2 other.2) middle (membersAt second "paths") := by
  have hpaths := h.paths hdistinct
  rw [membersAt, membersAt]
  generalize first.get? "paths" = found at hpaths ⊢
  generalize second.get? "paths" = other at hpaths ⊢
  cases hpaths with
  | none => exact ⟨[], .refl _, .nil⟩
  | some hrelated =>
      obtain ⟨members, middle, others, rfl, rfl, hperm, hmembers⟩ := hrelated
      exact ⟨middle, hperm, hmembers⟩

/-- In another order a description has the same paths in another order, and the rest is the same. -/
theorem paths_of_reordered (h : ReorderedTree first second) (hdistinct : first.Distinct) :
    Description.ofTree second =
        { Description.ofTree first with paths := (Description.ofTree second).paths } ∧
      (Description.ofTree first).paths.Perm (Description.ofTree second).paths := by
  constructor
  · simp only [Description.ofTree, textAt, membersAt, Json.getText?,
      ← h.get?_eq hdistinct (show "openapi" ≠ "paths" by decide),
      ← h.get?_eq hdistinct (show "info" ≠ "paths" by decide),
      ← h.get?_eq hdistinct (show "components" ≠ "paths" by decide)]
  · -- the entries are permuted first and then taken one by one, each for its reordered form
    obtain ⟨middle, hperm, hrelated⟩ := membersAt_of_reordered h hdistinct
    have hvalues : ∀ member ∈ middle, member.2.Distinct := fun member hmember =>
      distinct_of_mem_membersAt hdistinct (hperm.mem_iff.mpr hmember)
    have hsame : ((middle.filter fun path => KeyClass.path.has path.1).map fun path =>
          (path.1, viewReference DescribedPath.ofTree path.2)) =
        ((membersAt second "paths").filter fun path => KeyClass.path.has path.1).map fun path =>
          (path.1, viewReference DescribedPath.ofTree path.2) := by
      have hboth := (List.forall₂_and_left middle _).mpr ⟨hvalues, hrelated⟩
      have hfiltered := List.rel_filter (p := fun path => KeyClass.path.has path.1)
        (q := fun path : String × Json => KeyClass.path.has path.1)
        (fun member other hentry => by simp [hentry.2.1]) hboth
      exact map_eq_of_forall₂ hfiltered fun member other hentry =>
        Prod.ext hentry.2.1 (viewReference_of_reordered hentry.2.2 hentry.1)
    exact ((hperm.filter _).map _).trans (.of_eq hsame)

/-! ## References -/

/-- Trees with the same references in any order, in which a pointer leads somewhere or nowhere alike. -/
structure SameLinks (first second : Json) : Prop where
  text?_eq : first.text? = second.text?
  references_perm : (references first).Perm (references second)
  descend?_eq : ∀ tokens, (first.descend? tokens).isSome = (second.descend? tokens).isSome

theorem SameLinks.refl (tree : Json) : SameLinks tree tree := ⟨rfl, .refl _, fun _ => rfl⟩

section

variable {below : String → Json → Json → Prop}

/-- What stands under a key has the same links in both orders. -/
theorem get?_sameLinks (h : Reordered below first second) (hdistinct : first.Distinct)
    (hbelow : ∀ key child other, below key child other → child.Distinct → SameLinks child other)
    (key : String) : Option.Rel SameLinks (first.get? key) (second.get? key) :=
  rel_imp (h.get?_rel hdistinct key) fun _ hfound _ hchild =>
    hbelow _ _ _ hchild (hdistinct.get? hfound)

theorem children_references_perm {members others : List (String × Json)}
    (hrelated : List.Forall₂ (fun member other =>
      member.1 = other.1 ∧ below member.1 member.2 other.2) members others)
    (hvalues : ∀ member ∈ members, member.2.Distinct)
    (hbelow : ∀ key child other, below key child other → child.Distinct → SameLinks child other) :
    (members.flatMap fun member => references member.2).Perm
      (others.flatMap fun member => references member.2) := by
  induction hrelated with
  | nil => exact .refl _
  | cons hentry hrest ih =>
      obtain ⟨hvalue, hlater⟩ := List.forall_mem_cons.mp hvalues
      exact (hbelow _ _ _ hentry.2 hvalue).references_perm.append (ih hlater)

theorem sameLinks_of_reordered (h : Reordered below first second) (hdistinct : first.Distinct)
    (hbelow : ∀ key child other, below key child other → child.Distinct → SameLinks child other) :
    SameLinks first second := by
  have hlinks := get?_sameLinks h hdistinct hbelow
  have hreference : first.reference? = second.reference? :=
    bind_eq_of_rel (hlinks "$ref") fun _ _ hchild => hchild.text?_eq
  obtain ⟨members, middle, others, rfl, rfl, hperm, hrelated⟩ := h
  refine ⟨rfl, ?_, fun tokens => ?_⟩
  · have hvalues : ∀ member ∈ middle, member.2.Distinct := fun member hmember =>
      (Json.distinct_obj.mp hdistinct).2 _ (hperm.mem_iff.mpr hmember)
    rw [references_eq, references_eq, hreference]
    refine List.Perm.append_left _ ?_
    simp only [Json.children, List.flatMap_map]
    exact (hperm.flatMap_right _).trans (children_references_perm hrelated hvalues hbelow)
  · cases tokens with
    | nil => rfl
    | cons token rest =>
        exact isSome_bind_of_rel (hlinks (String.ofList token)) fun _ _ hchild => hchild.descend?_eq rest

end

theorem sameLinks_of_reorderedTree (h : ReorderedTree first second) (hdistinct : first.Distinct) :
    SameLinks first second := by
  have hitem : ∀ child other, ReorderedItem child other → child.Distinct →
      SameLinks child other := fun child other hrelated hchild =>
    sameLinks_of_reordered hrelated hchild fun _ value _ heq _ => heq ▸ .refl value
  refine sameLinks_of_reordered h hdistinct fun key child other hbelow hchild => ?_
  by_cases hkey : key = "paths"
  · rw [if_pos hkey] at hbelow
    exact sameLinks_of_reordered hbelow hchild fun _ => hitem
  · rw [if_neg hkey] at hbelow
    exact hbelow ▸ .refl child

theorem referenceViolation_of_sameLinks (h : SameLinks first second) (reference : String) :
    referenceViolation first reference = referenceViolation second reference := by
  have hpointer : ∀ pointer, (first.pointer? pointer).isSome = (second.pointer? pointer).isSome := by
    intro pointer
    unfold Json.pointer?
    split
    · rfl
    · exact h.descend?_eq _
    · rfl
  unfold referenceViolation
  split
  · rw [hpointer]
  · rfl

/-! ## Strict checks -/

theorem repeated_eq_nil_iff {texts : List String} :
    repeated texts = [] ↔ ∀ text, texts.count text ≤ 1 := by
  simp only [List.eq_nil_iff_forall_not_mem, mem_repeated, Nat.not_lt]

/-- Where strict checks find nothing they find nothing in another order. -/
theorem violations_of_reordered (h : ReorderedTree first second) (hdistinct : first.Distinct)
    (hnone : violations first (.ofTree first) = []) : violations second (.ofTree second) = [] := by
  obtain ⟨hrest, hpaths⟩ := paths_of_reordered h hdistinct
  have hlinks := sameLinks_of_reorderedTree h hdistinct
  have hversion : (Description.ofTree second).openapi = (Description.ofTree first).openapi := by
    rw [hrest]
  have hpath : (Description.ofTree second).pathViolations =
      (Description.ofTree first).pathViolations := by
    rw [hrest]
    rfl
  have hids : (Description.ofTree first).operationIds.Perm (Description.ofTree second).operationIds :=
    hpaths.flatMap_right _
  rw [violations, List.append_eq_nil_iff, List.append_eq_nil_iff, List.append_eq_nil_iff] at hnone ⊢
  obtain ⟨⟨⟨hsupported, hreferences⟩, hfound⟩, hrepeated⟩ := hnone
  -- each kind of violation asks for what the order leaves the same
  refine ⟨⟨⟨hversion ▸ hsupported, ?_⟩, ?_⟩, ?_⟩
  · rw [List.filterMap_eq_nil_iff] at hreferences ⊢
    intro reference hreference
    rw [← referenceViolation_of_sameLinks hlinks]
    exact hreferences reference (hlinks.references_perm.mem_iff.mpr hreference)
  · rw [List.flatMap_eq_nil_iff] at hfound ⊢
    intro path hmem
    rw [hpath]
    exact hfound path (hpaths.mem_iff.mpr hmem)
  · rw [List.map_eq_nil_iff, repeated_eq_nil_iff] at hrepeated ⊢
    intro id
    rw [← hids.count_eq]
    exact hrepeated id

end OpenApi

end RouteScaffold
