import RouteScaffold.Proofs.Document.Accepts
import RouteScaffold.Proofs.OpenApi.Declared

/-!
# Descriptions that are read as documents

A tree that has the shape of a description need not be read as a document: the two models differ at a
few places, and these decide it (`accepts_iff_normal`).  The check passes over what stands by
reference and over paths that do not start with a slash; the reading does not, and in the tables of the
components it knows no references, so that what stands there has to have the form of a part itself.
The check takes null for a missing key at the components and at the operations of a path, and the place
of a location for its name; the reading does neither.  Everything else that the check accepts is read.

What is read is told by the forms of the parts, so that the check and the forms are compared part by part
(`isParameter_iff`, `isPathItem_iff`, `isComponents_iff`).
-/

namespace RouteScaffold.OpenApi

open Document (IsComponents IsDocument IsFlag IsInfo IsOperation IsParameter IsParameterList IsPathItem IsRequestBody
  IsTable IsText OrLink OrNull Under)
open Json (Distinct)

/-! ## Where the models differ -/

/-- A parameter that tells its location by a name. -/
def NamesLocation (tree : Json) : Prop := ∃ text, tree.getText? "in" = some text

/-- The parameters under a tree's key for them that are no references name their locations. -/
def NamesLocations (tree : Json) : Prop :=
  ∀ item ∈ itemsAt tree "parameters", item.reference? = none → NamesLocation item

/-- A path item without null in the place of an operation, of which all parameters name their
locations. -/
structure NormalPath (item : Json) : Prop where
  parameters : NamesLocations item
  present : ∀ method : Method, item.get? method.name ≠ some .null
  operations : ∀ (method : Method) operation, item.get? method.name = some operation →
    NamesLocations operation

/-- Components of which the shared parameters name their locations.  What the check passes over, since
it stands by reference, has the form of a parameter or a body itself. -/
structure NormalComponents (components : Json) : Prop where
  parameters : ∀ member ∈ membersAt components "parameters", member.2.reference? = none →
    NamesLocation member.2
  parameterReferences : ∀ member ∈ membersAt components "parameters", member.2.reference? ≠ none →
    IsParameter member.2
  bodyReferences : ∀ member ∈ membersAt components "requestBodies", member.2.reference? ≠ none →
    IsRequestBody member.2

/-- A description in which the two models do not differ: the paths that the check sees and the
components are normal, and what the check passes over among the paths has the form of a path item. -/
structure Normal (tree : Json) : Prop where
  seen : ∀ member ∈ membersAt tree "paths", IsSeen member → NormalPath member.2
  unseen : ∀ member ∈ membersAt tree "paths", ¬ IsSeen member → IsPathItem member.2
  present : tree.get? "components" ≠ some .null
  components : ∀ components, tree.get? "components" = some components → NormalComponents components

/-! ## Keys of an object -/

section

variable {members : List (String × Json)} {key : String} {P Q : Json → Prop}

/-- With distinct keys only one thing stands under a key. -/
theorem under_iff_get? (hdistinct : Distinct (.obj members)) :
    Under members key P ↔ ∀ child, (Json.obj members).get? key = some child → P child := by
  have hkeys := (Json.distinct_obj.mp hdistinct).1
  constructor
  · intro h child hchild
    exact h child (mem_of_lookup hchild)
  · intro h child hmem
    exact h child (lookup_of_mem hkeys hmem)

theorem under_congr (h : ∀ child, (key, child) ∈ members → (P child ↔ Q child)) :
    Under members key P ↔ Under members key Q :=
  forall₂_congr h

/-- What is in the table under a key is in an object there. -/
theorem exists_entries_of_mem {tree : Json} {member : String × Json}
    (h : member ∈ membersAt tree key) :
    ∃ entries, tree.get? key = some (.obj entries) ∧ member ∈ entries := by
  unfold membersAt at h
  cases hfound : tree.get? key with
  | none => simp [hfound, Json.members] at h
  | some found =>
      rw [hfound] at h
      cases found with
      | obj entries => exact ⟨entries, rfl, h⟩
      | _ => simp [Json.members] at h

theorem distinct_of_mem_membersAt {tree : Json} (hdistinct : tree.Distinct) {member : String × Json}
    (h : member ∈ membersAt tree key) : member.2.Distinct := by
  obtain ⟨entries, hentries, hmember⟩ := exists_entries_of_mem h
  exact (Json.distinct_obj.mp (hdistinct.get? hentries)).2 member hmember

/-- There is a table of some form under a key when each of its entries has the form. -/
theorem under_isTable_iff {form : Json → Prop} (hdistinct : Distinct (.obj members))
    (h : Under members key fun child => ∃ entries, child = .obj entries) :
    Under members key (IsTable form) ↔ ∀ member ∈ membersAt (.obj members) key, form member.2 := by
  rw [under_iff_get? hdistinct] at h ⊢
  rw [membersAt]
  cases hfound : (Json.obj members).get? key with
  | none => simp [Json.members]
  | some found =>
      obtain ⟨entries, rfl⟩ := h found hfound
      simp [IsTable, Json.members]

/-- The check lets null stand for a part that is left out, and null does not have the form of a record. -/
theorem under_isRecord_iff {slots : List Document.Slot} {part : Part} {title : String} {groups : List Group}
    (hlayout : layout part = .record title groups) (hdistinct : Distinct (.obj members))
    (h : Under members key fun child => child = .null ∨ Fits (.part part) child)
    (hpart : ∀ child : Json, child.Distinct → Fits (.part part) child →
      (Document.IsRecord slots child ↔ P child)) :
    Under members key (Document.IsRecord slots) ↔ (Json.obj members).get? key ≠ some .null ∧
      ∀ child, (Json.obj members).get? key = some child → P child := by
  rw [under_iff_get? hdistinct] at h ⊢
  cases hfound : (Json.obj members).get? key with
  | none => simp
  | some found =>
      rcases h found hfound with rfl | hfits
      · simp [Document.not_isRecord_null]
      · have hne : found ≠ .null := by
          rintro rfl
          obtain ⟨fields, hfields, -⟩ := fitsGroups_of_record hlayout hfits
          cases hfields
        simp [hpart found (hdistinct.get? hfound) hfits, hne]

end

/-! ## Parameters -/

/-- The forms of a parameter, with their names. -/
theorem name_of_findPart {found : Json} {selected : Part}
    (h : findPart parameterParts found = .ok selected) :
    ∃ name, tagName? parameterParts found = some name ∧
      ((name, selected) = ("query", .queryParameter) ∨ (name, selected) = ("header", .headerParameter) ∨
        (name, selected) = ("path", .pathParameter) ∨
          (name, selected) = ("cookie", .cookieParameter)) := by
  unfold findPart at h
  split at h
  · rename_i name hname
    split at h
    · rename_i part hlookup
      cases h
      refine ⟨name, hname, ?_⟩
      have hmem : (name, selected) ∈ [("query", Part.queryParameter), ("header", .headerParameter),
          ("path", .pathParameter), ("cookie", .cookieParameter)] := mem_of_lookup hlookup
      simpa using hmem
    · cases h
  · cases h

/-- What all forms of a parameter ask for. -/
theorem asks_parameter {found : Json} {selected : Part}
    (h : findPart parameterParts found = .ok selected) :
    Asks selected "name" .required .text ∧ Asks selected "required" .defaulted .flag ∧
      Asks selected "description" .optional .text := by
  have hdata : ∀ fields format, groupsOf selected = [.fields fields, parameterData, format] →
      Asks selected "name" .required .text ∧ Asks selected "required" .defaulted .flag ∧
        Asks selected "description" .optional .text := by
    intro fields format hgroups
    have hmem : parameterData ∈ groupsOf selected := by simp [hgroups]
    exact ⟨⟨_, hmem, rfl⟩, ⟨_, hmem, rfl⟩, ⟨_, hmem, rfl⟩⟩
  obtain ⟨name, -, hforms⟩ := name_of_findPart h
  rcases hforms with hform | hform | hform | hform
  all_goals
    obtain ⟨-, rfl⟩ := Prod.mk.inj hform
    exact hdata _ _ rfl

/-- A location that the check accepts is one for the reading when it is a name. -/
theorem isLocation_iff {found : Json} {selected : Part}
    (h : findPart parameterParts found = .ok selected) :
    Document.IsLocation found ↔ ∃ text, found = .str text := by
  obtain ⟨name, hname, hforms⟩ := name_of_findPart h
  constructor
  · rintro ⟨location, -, rfl | rfl⟩
    · exact ⟨location, rfl⟩
    · simp [tagName?, tagPlace?] at hname
  · rintro ⟨text, rfl⟩
    obtain rfl : text = name := Option.some.inj hname
    refine ⟨text, ?_, .inl rfl⟩
    rcases hforms with hform | hform | hform | hform
    all_goals
      obtain ⟨rfl, -⟩ := Prod.mk.inj hform
      decide

/-- A parameter that the check accepts has the form of one when it names its location. -/
theorem isParameter_iff {tree : Json} (hdistinct : tree.Distinct) (h : Fits (.part .parameter) tree) :
    IsParameter tree ↔ NamesLocation tree := by
  obtain ⟨members, found, selected, rfl, hfound, hpart, hgroups⟩ := fitsGroups_of_tagged rfl h
  obtain ⟨hname, hrequired, hdescription⟩ := asks_parameter hpart
  have hin : (Json.obj members).get? "in" = some found := hfound
  have hlocation : Under members "in" Document.IsLocation ↔ NamesLocation (.obj members) := by
    rw [under_iff_get? hdistinct, hin, NamesLocation, Json.getText?, hin]
    have hiff := isLocation_iff hpart
    constructor
    · intro hall
      obtain ⟨text, rfl⟩ := hiff.mp (hall found rfl)
      exact ⟨text, rfl⟩
    · rintro ⟨text, htext⟩ child hchild
      obtain rfl := Option.some.inj hchild
      cases found with
      | str other => exact hiff.mpr ⟨other, rfl⟩
      | _ => cases htext
  have hnameText : Under members "name" IsText := fun child hmem =>
    fits_text (hgroups.under_of_ne hname hmem (by decide))
  have hflag : Under members "required" IsFlag := fun child hmem =>
    fits_flag (hgroups.under_of_ne hrequired hmem (by decide))
  have htext : Under members "description" (OrNull IsText) := fun child hmem =>
    (hgroups.under hdescription hmem).imp And.right fits_text
  have hkeys : "name" ∈ members.map (·.1) ∧ "in" ∈ members.map (·.1) :=
    ⟨hgroups.has_key hname, List.mem_map.mpr ⟨_, mem_of_lookup hfound, rfl⟩⟩
  -- all other fields are checked as they are read
  rw [IsParameter, Document.isRecord_obj, ← hlocation]
  simp only [Document.parameterSlots, List.forall_mem_cons]
  simp [hnameText, hflag, htext, hkeys]

/-- The shape of the parameters of a path or an operation. -/
def parameterList : Shape := .list (.orReference (.part .parameter))

theorem isParameterList_iff {members : List (String × Json)} (hdistinct : Distinct (.obj members))
    (h : Under members "parameters" (Fits parameterList)) :
    Under members "parameters" IsParameterList ↔ NamesLocations (.obj members) := by
  rw [under_iff_get? hdistinct] at h ⊢
  rw [NamesLocations, itemsAt]
  cases hfound : (Json.obj members).get? "parameters" with
  | none => simp
  | some found =>
      obtain ⟨items, rfl, hitems⟩ := fits_list (h found hfound)
      have hitemsDistinct := Json.distinct_arr.mp (hdistinct.get? hfound)
      have hitem : ∀ item ∈ items, OrLink IsParameter item ↔ (item.reference? = none → NamesLocation item) :=
        fun item hmem => forall_congr' fun hnone =>
          isParameter_iff (hitemsDistinct item hmem) (fits_orReference (hitems item hmem) hnone)
      simpa [IsParameterList, Document.IsList] using forall₂_congr hitem

/-! ## Request bodies and operations -/

theorem isRequestBody_of_fits {tree : Json} (h : Fits (.part .requestBody) tree) : IsRequestBody tree := by
  obtain ⟨members, rfl, hgroups⟩ := fitsGroups_of_record rfl h
  have hrequired : Asks .requestBody "required" .defaulted .flag := ⟨_, List.mem_cons_self, rfl⟩
  have hcontent : Asks .requestBody "content" .defaulted (.table (.part .mediaType)) :=
    ⟨_, List.mem_cons_self, rfl⟩
  have hflag : Under members "required" IsFlag := fun child hmem =>
    fits_flag (hgroups.under_of_ne hrequired hmem (by decide))
  have htable : Under members "content" (IsTable (Document.IsRecord Document.mediaTypeSlots)) := by
    intro child hmem
    obtain ⟨entries, rfl, hentries⟩ := fits_table (hgroups.under_of_ne hcontent hmem (by decide))
    refine ⟨entries, rfl, fun entry hentry => ?_⟩
    obtain ⟨fields, hfields, -⟩ := fitsGroups_of_record rfl (hentries entry hentry)
    rw [hfields, Document.isRecord_obj]
    simp [Document.mediaTypeSlots]
  rw [IsRequestBody, Document.isRecord_obj]
  simp [Document.requestBodySlots, hflag, htable]

/-- An operation that the check accepts has the form of one when its parameters name their locations. -/
theorem isOperation_iff {tree : Json} (hdistinct : tree.Distinct) (h : Fits (.part .operation) tree) :
    IsOperation tree ↔ NamesLocations tree := by
  obtain ⟨members, rfl, hgroups⟩ := fitsGroups_of_record rfl h
  have hparameters : Asks .operation "parameters" .defaulted parameterList :=
    ⟨_, List.mem_cons_self, rfl⟩
  have hbody : Asks .operation "requestBody" .optional (.orReference (.part .requestBody)) :=
    ⟨_, List.mem_cons_self, rfl⟩
  have hlist : Under members "parameters" (Fits parameterList) := fun child hmem =>
    hgroups.under_of_ne hparameters hmem (by decide)
  -- the check does not accept null in the place of parameters
  have hpresent : Under members "parameters" (OrNull IsParameterList) ↔
      Under members "parameters" IsParameterList := by
    refine under_congr fun child hmem => or_iff_right ?_
    rintro rfl
    obtain ⟨items, hitems, -⟩ := fits_list (hlist _ hmem)
    cases hitems
  have hbodyForm : Under members "requestBody" (OrNull (OrLink IsRequestBody)) := fun child hmem =>
    (hgroups.under hbody hmem).imp And.right fun hfits hnone =>
      isRequestBody_of_fits (fits_orReference hfits hnone)
  rw [IsOperation, Document.isRecord_obj, ← isParameterList_iff hdistinct hlist, ← hpresent]
  simp [Document.operationSlots, hbodyForm]

/-! ## Paths -/

/-- A path item that the check accepts has the form of one when no operation of it is null and all its
parameters name their locations. -/
theorem isPathItem_iff {tree : Json} (hdistinct : tree.Distinct) (h : Fits (.part .pathItem) tree) :
    IsPathItem tree ↔ NormalPath tree := by
  obtain ⟨members, rfl, hgroups⟩ := fitsGroups_of_record rfl h
  have hparameters : Asks .pathItem "parameters" .defaulted parameterList :=
    ⟨_, List.mem_cons_self, rfl⟩
  have hmethod : ∀ method : Method, Asks .pathItem method.name .optional (.part .operation) := by
    intro method
    cases method <;> exact ⟨_, List.mem_cons_self, rfl⟩
  have hlist : Under members "parameters" (Fits parameterList) := fun child hmem =>
    hgroups.under_of_ne hparameters hmem (by decide)
  have hoperations : ∀ method : Method, Under members method.name IsOperation ↔
      (Json.obj members).get? method.name ≠ some .null ∧
        ∀ operation, (Json.obj members).get? method.name = some operation → NamesLocations operation :=
    fun method => under_isRecord_iff rfl hdistinct
      (fun child hmem => (hgroups.under (hmethod method) hmem).imp And.right id)
      fun child hchild hfits => isOperation_iff hchild hfits
  have hform : IsPathItem (.obj members) ↔ Under members "parameters" IsParameterList ∧
      ∀ method : Method, Under members method.name IsOperation := by
    simp [IsPathItem]
  rw [hform, isParameterList_iff hdistinct hlist, forall_congr' hoperations]
  constructor
  · rintro ⟨hnames, hall⟩
    exact ⟨hnames, fun method => (hall method).1, fun method => (hall method).2⟩
  · intro hnormal
    exact ⟨hnormal.parameters, fun method => ⟨hnormal.present method, hnormal.operations method⟩⟩

/-- A path that is seen is one that the check looks at. -/
theorem fits_of_isSeen {members : List (String × Json)} (h : FitsGroups .paths members)
    {member : String × Json} (hmember : member ∈ members) (hseen : IsSeen member) :
    Fits (.part .pathItem) member.2 := by
  have hgroup : FitsGroup (.keys .path (.orReference (.part .pathItem))) members :=
    h _ List.mem_cons_self
  exact fits_orReference (hgroup.keys hmember ((path_has_iff member.1).mpr hseen.1)) hseen.2

theorem paths_iff {members : List (String × Json)} (hdistinct : Distinct (.obj members))
    (h : Under members "paths" (Fits (.part .paths))) :
    Under members "paths" (IsTable IsPathItem) ↔
      (∀ member ∈ membersAt (.obj members) "paths", IsSeen member → NormalPath member.2) ∧
        ∀ member ∈ membersAt (.obj members) "paths", ¬ IsSeen member → IsPathItem member.2 := by
  have hobject : Under members "paths" fun child => ∃ entries, child = .obj entries := by
    intro child hmem
    obtain ⟨entries, rfl, -⟩ := fitsGroups_of_record rfl (h child hmem)
    exact ⟨entries, rfl⟩
  -- the check speaks of the paths that are seen, and says nothing of the other members
  have hseenIff : ∀ member ∈ membersAt (.obj members) "paths", IsSeen member →
      (IsPathItem member.2 ↔ NormalPath member.2) := by
    intro member hmember hseen
    obtain ⟨entries, hentries, hmem⟩ := exists_entries_of_mem hmember
    obtain ⟨others, hothers, hgroups⟩ := fitsGroups_of_record rfl (h _ (mem_of_lookup hentries))
    obtain rfl := Json.obj.inj hothers
    exact isPathItem_iff (distinct_of_mem_membersAt hdistinct hmember)
      (fits_of_isSeen hgroups hmem hseen)
  rw [under_isTable_iff hdistinct hobject]
  constructor
  · intro hforms
    exact ⟨fun member hmember hseen => (hseenIff member hmember hseen).mp (hforms member hmember),
      fun member hmember _ => hforms member hmember⟩
  · rintro ⟨hseen, hunseen⟩ member hmember
    by_cases hsees : IsSeen member
    · exact (hseenIff member hmember hsees).mpr (hseen member hmember hsees)
    · exact hunseen member hmember hsees

/-! ## Components -/

/-- In place of a shared part a reference may stand.  The check follows it, and the reading takes it for the
part itself. -/
theorem shared_iff {part : Part} {form P : Json → Prop} {members : List (String × Json)} {key : String}
    (hdistinct : Distinct (.obj members))
    (h : Under members key (Fits (.table (.orReference (.part part)))))
    (hpart : ∀ child : Json, child.Distinct → Fits (.part part) child → (form child ↔ P child)) :
    Under members key (IsTable form) ↔
      ∀ member ∈ membersAt (.obj members) key,
        (member.2.reference? = none → P member.2) ∧ (member.2.reference? ≠ none → form member.2) := by
  have hobject : Under members key fun child => ∃ entries, child = .obj entries := by
    intro child hmem
    obtain ⟨entries, rfl, -⟩ := fits_table (h child hmem)
    exact ⟨entries, rfl⟩
  rw [under_isTable_iff hdistinct hobject]
  refine forall₂_congr fun member hmember => ?_
  obtain ⟨entries, hentries, hmem⟩ := exists_entries_of_mem hmember
  obtain ⟨others, hothers, hfits⟩ := fits_table (h _ (mem_of_lookup hentries))
  obtain rfl := Json.obj.inj hothers
  by_cases hnone : member.2.reference? = none
  · rw [hpart member.2 (distinct_of_mem_membersAt hdistinct hmember)
      (fits_orReference (hfits member hmem) hnone)]
    simp [hnone]
  · simp [hnone]

/-- Components that the check accepts have the form of some when they are normal. -/
theorem isComponents_iff {tree : Json} (hdistinct : tree.Distinct) (h : Fits (.part .components) tree) :
    IsComponents tree ↔ NormalComponents tree := by
  obtain ⟨members, rfl, hgroups⟩ := fitsGroups_of_record rfl h
  have hschemas : Asks .components "schemas" .defaulted (.table (.orReference (.part .schema))) :=
    ⟨_, List.mem_cons_self, rfl⟩
  have hparameters : Asks .components "parameters" .defaulted
      (.table (.orReference (.part .parameter))) := ⟨_, List.mem_cons_self, rfl⟩
  have hbodies : Asks .components "requestBodies" .defaulted
      (.table (.orReference (.part .requestBody))) := ⟨_, List.mem_cons_self, rfl⟩
  have hschemasForm : Under members "schemas" (IsTable fun _ => True) := by
    intro child hmem
    obtain ⟨entries, rfl, -⟩ := fits_table (hgroups.under_of_ne hschemas hmem (by decide))
    exact ⟨entries, rfl, fun _ _ => trivial⟩
  have hparametersForm := shared_iff hdistinct
    (fun child hmem => hgroups.under_of_ne hparameters hmem (by decide))
    fun child hchild hfits => isParameter_iff hchild hfits
  have hbodiesForm := shared_iff (P := fun _ => True) hdistinct
    (fun child hmem => hgroups.under_of_ne hbodies hmem (by decide))
    fun child _ hfits => iff_true_intro (isRequestBody_of_fits hfits)
  have hform : IsComponents (.obj members) ↔
      Under members "parameters" (IsTable IsParameter) ∧
        Under members "requestBodies" (IsTable IsRequestBody) := by
    rw [IsComponents, Document.isRecord_obj]
    simp [Document.componentsSlots, hschemasForm]
  rw [hform, hparametersForm, hbodiesForm]
  constructor
  · rintro ⟨hshared, hrequest⟩
    exact ⟨fun member hmem => (hshared member hmem).1, fun member hmem => (hshared member hmem).2,
      fun member hmem => (hrequest member hmem).2⟩
  · intro hnormal
    exact ⟨fun member hmem =>
      ⟨hnormal.parameters member hmem, hnormal.parameterReferences member hmem⟩,
      fun member hmem => ⟨fun _ => trivial, hnormal.bodyReferences member hmem⟩⟩

/-! ## Descriptions -/

theorem isInfo_of_fits {tree : Json} (h : Fits (.part .info) tree) : IsInfo tree := by
  obtain ⟨members, rfl, hgroups⟩ := fitsGroups_of_record rfl h
  have htitle : Asks .info "title" .required .text := ⟨_, List.mem_cons_self, rfl⟩
  have hversion : Asks .info "version" .required .text := ⟨_, List.mem_cons_self, rfl⟩
  have htext : ∀ {key : String}, Asks .info key .required .text → Under members key IsText :=
    fun hasks child hmem => fits_text (hgroups.under_of_ne hasks hmem (by decide))
  have hkeys : "title" ∈ members.map (·.1) ∧ "version" ∈ members.map (·.1) :=
    ⟨hgroups.has_key htitle, hgroups.has_key hversion⟩
  rw [IsInfo, Document.isRecord_obj]
  simp only [Document.infoSlots, List.forall_mem_cons]
  simp [htext htitle, htext hversion, hkeys]

/-- A tree that the check accepts as a description is read as a document exactly when it is normal. -/
theorem accepts_iff_normal {tree : Json} {description : Description} (hdistinct : tree.Distinct)
    (h : describe tree = .ok description) :
    (∃ document, Document.read tree = .ok document) ↔ Normal tree := by
  obtain ⟨_, hcheck, -⟩ := map_eq_ok h
  have hfits : Fits (.part .openApi) tree := ⟨false, hcheck⟩
  obtain ⟨members, rfl, hgroups⟩ := fitsGroups_of_record rfl hfits
  have hinfo : Asks .openApi "info" .required (.part .info) := ⟨_, List.mem_cons_self, rfl⟩
  have hpaths : Asks .openApi "paths" .required (.part .paths) := ⟨_, List.mem_cons_self, rfl⟩
  have hcomponents : Asks .openApi "components" .optional (.part .components) :=
    ⟨_, List.mem_cons_self, rfl⟩
  have hinfoForm : Under members "info" IsInfo := fun child hmem =>
    isInfo_of_fits (hgroups.under_of_ne hinfo hmem (by decide))
  have hpathsForm := paths_iff hdistinct fun child hmem =>
    hgroups.under_of_ne hpaths hmem (by decide)
  have hcomponentsForm : Under members "components" IsComponents ↔
      (Json.obj members).get? "components" ≠ some .null ∧
        ∀ child, (Json.obj members).get? "components" = some child → NormalComponents child :=
    under_isRecord_iff rfl hdistinct
      (fun child hmem => (hgroups.under hcomponents hmem).imp And.right id)
      fun child hchild hfits => isComponents_iff hchild hfits
  have hform : IsDocument (.obj members) ↔ Under members "paths" (IsTable IsPathItem) ∧
      Under members "components" IsComponents := by
    have hkey : "info" ∈ members.map (·.1) := hgroups.has_key hinfo
    rw [IsDocument, Document.isRecord_obj]
    simp only [Document.documentSlots, List.forall_mem_cons]
    simp [hinfoForm, hkey]
  have hread : (∃ document, Document.read (.obj members) = .ok document) ↔ IsDocument (.obj members) :=
    Document.accepts_document (.obj members)
  rw [hread, hform, hpathsForm, hcomponentsForm]
  constructor
  · rintro ⟨⟨hseen, hunseen⟩, hpresent, hall⟩
    exact ⟨hseen, hunseen, hpresent, hall⟩
  · intro hnormal
    exact ⟨⟨hnormal.seen, hnormal.unseen⟩, hnormal.present, hnormal.components⟩

/-- Paths that the check passes over have the form of a path item here. -/
theorem accepts_iff_normal_loose :
    looseJson.Distinct ∧ describe looseJson = .ok (Description.ofTree looseJson) ∧
      Normal looseJson :=
  ⟨distinct_looseJson, describe_looseJson,
    (accepts_iff_normal distinct_looseJson describe_looseJson).mp ⟨looseDocument, read_looseJson⟩⟩

/-! ## A shared parameter by reference -/

/-- A tree with a shared parameter that is a reference to another one. -/
def aliasJson : Json :=
  .obj [("openapi", .str "3.0.0"), ("info", .obj [("title", .str ""), ("version", .str "")]),
    ("paths", .obj []), ("components", .obj [("parameters",
      .obj [("p", .obj [("$ref", .str "#/components/parameters/q")])])])]

theorem describe_aliasJson : describe aliasJson = .ok (Description.ofTree aliasJson) := by
  have hcheck : checkDescription aliasJson = .ok () := by cbv
  exact describe_of_check hcheck

/-- The check accepts the reference, and the reading misses the name of the parameter. -/
theorem not_read_alias :
    aliasJson.Distinct ∧ describe aliasJson = .ok (Description.ofTree aliasJson) ∧
      Document.read aliasJson = .error (.missingField "name") :=
  ⟨by simp [aliasJson], describe_aliasJson, rfl⟩

end RouteScaffold.OpenApi
