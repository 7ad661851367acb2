import ModuleSurface.Proofs.Drafts

/-! # Reading drafts

Each part of an element is read back from a value that stands for its draft, in whatever store the
value stands. So the entries that stand for the draft of an element spell it, with the places of maps
for its handles.

* **`Store.SpellsBody`** — entries spell the body of an element.
* **`Store.Pairs`** — places of maps that stand for drafts, one for each handle.
* **`Store.exists_spelled`** — entries that stand for the draft of an element spell it. -/

namespace ModuleSurface

/-- An optional value that is not the one for nothing is kept: `(Value.ofOption v).nonNull? = v`. -/
theorem Value.nonNull?_ofOption {v : Option Value} (h : v ≠ some .null) :
    (Value.ofOption v).nonNull? = v := by
  cases v with
  | none => rfl
  | some v =>
    have hv : v ≠ .null := fun hnull => h (congrArg some hnull)
    simp [Value.nonNull?, Value.isNull, hv]

/-- As many names as types are the names of the parameters:
`signature.names = signature.parameterNames`. -/
theorem Signature.names_eq {signature : Signature}
    (h : signature.parameterNames.length = signature.parameterTypes.length) :
    signature.names = signature.parameterNames := by
  refine List.ext_getElem (by simp [h]) fun i hi hi' => ?_
  simp [Signature.names, Signature.parameterName, List.getElem?_eq_getElem hi']

/-- A part of a parameter that is there is passed on: `Store.parameter (.ok a) = .ok a`. -/
@[simp] theorem Store.parameter_ok {α : Type} (a : α) :
    Store.parameter (.ok a) = .ok a := rfl

/-! ## Parts -/

namespace Store

variable {store : Store} {v : Value}

/-- A sound type is read by `readType` from what stands for its draft. -/
theorem readType_of_holds {type : Option ValueType} (hsound : ∀ t, type = some t → t.Sound)
    (h : store.Holds (ValueType.draft type) v) : store.readType v = .ok type := by
  cases type with
  | none =>
    obtain rfl := holds_value_iff.mp h
    rfl
  | some t =>
    obtain ⟨kind, classReference, signatureReference⟩ := t
    obtain ⟨hclass, hsignature⟩ := hsound _ rfl
    simp only at hclass hsignature
    by_cases hreference : ValueType.isReference ⟨kind, classReference, signatureReference⟩ = true
    · rw [ValueType.draft, if_pos hreference] at h
      obtain ⟨ref, rfl, -, hentries⟩ := holds_ofEntries_iff.mp h
      simp [readType, hentries, Entries.field, readTypeKind, Value.nonNull?_ofOption hclass,
        Value.nonNull?_ofOption hsignature, pure_eq_ok]
    · rw [ValueType.draft, if_neg hreference] at h
      obtain rfl := holds_value_iff.mp h
      obtain ⟨rfl, rfl⟩ : classReference = none ∧ signatureReference = none := by
        simpa [ValueType.isReference] using hreference
      simp [readType, readTypeKind, ValueType.plain, pure_eq_ok]

/-- The names of flags are read as the flags. -/
theorem readFlagNames_names (flags : Flags) :
    readFlagNames (flags.names.map Value.text) .none = .ok flags := by
  obtain ⟨compiled, inlined, abstract⟩ := flags
  cases compiled <;> cases inlined <;> cases abstract <;> rfl

/-- Flags are read by `readFlags` from what stands for their draft. -/
theorem readFlags_of_holds {flags : Flags} (h : store.Holds flags.draft v) :
    store.readFlags v = .ok flags := by
  obtain ⟨ref, rfl, -, hitems⟩ := holds_ofItems_iff.mp h
  rw [readFlags, hitems, readFlagNames_names]

/-- A sound constant is read by `readConstant` from what stands for its draft, whatever the name of
its global. -/
theorem readConstant_of_holds {constant : Constant} (hsound : constant.Sound)
    (h : store.Holds constant.draft v) (name : Value) :
    store.readConstant name v = .ok (some constant) := by
  obtain ⟨ref, rfl, -, hentries⟩ := holds_ofEntries_iff.mp h
  obtain ⟨kind, value⟩ := constant
  have hpayload : readPayload kind (.scalar value) = .ok value := by
    cases kind with
    | integer =>
      obtain ⟨n, rfl⟩ : ∃ n, value = .int n := hsound
      rfl
    | float =>
      obtain ⟨x, rfl⟩ : ∃ x, value = .float x := hsound
      rfl
  simp [readConstant, hentries, Value.isNull, hpayload, pure_eq_ok]

/-- The fields of a parameter are there, and its sound type is read. -/
theorem readParameter_of_holds {given : Value × Option ValueType}
    (hsound : ∀ t, given.2 = some t → t.Sound)
    (h : store.Holds (Signature.parameterDraft given) v) :
    store.parameterField "name" v = .ok given.1 ∧
      ∃ type, store.parameterField "type" v = .ok type ∧ store.readType type = .ok given.2 := by
  obtain ⟨ref, rfl, -, hfields⟩ := holds_map_iff.mp h
  obtain ⟨name, _, hentries, hname, hrest⟩ := HoldsEntries.cons_iff.mp hfields
  obtain ⟨type, _, rfl, htype, hnil⟩ := HoldsEntries.cons_iff.mp hrest
  obtain rfl := HoldsEntries.nil_iff.mp hnil
  obtain rfl := holds_value_iff.mp hname
  exact ⟨by simp [parameterField, hentries], type, by simp [parameterField, hentries],
    readType_of_holds hsound htype⟩

/-- A sound signature is read by `readSignature` from what stands for its draft. -/
theorem readSignature_of_holds {signature : Signature} (hsound : signature.Sound)
    (h : store.Holds signature.draft v) : store.readSignature v = .ok signature := by
  obtain ⟨ref, rfl, -, hfields⟩ := holds_map_iff.mp h
  obtain ⟨_, _, hentries, hlist, hrest⟩ := HoldsEntries.cons_iff.mp hfields
  obtain ⟨result, _, rfl, hresult, hnil⟩ := HoldsEntries.cons_iff.mp hrest
  obtain rfl := HoldsEntries.nil_iff.mp hnil
  obtain ⟨list, rfl, -, hmaps⟩ := holds_list_iff.mp hlist
  have hnames : signature.names = signature.parameterNames := Signature.names_eq hsound.names
  have hzip : (signature.names.zip signature.parameterTypes).map (·.1) = signature.parameterNames ∧
      (signature.names.zip signature.parameterTypes).map (·.2) = signature.parameterTypes := by
    rw [hnames]
    exact ⟨List.map_fst_zip hsound.names.le, List.map_snd_zip hsound.names.ge⟩
  -- every parameter is read twice, once for its name and once for its type
  have hfields' : List.Forall₂ (fun p given => store.parameterField "name" p = .ok given.1 ∧
      ∃ type, store.parameterField "type" p = .ok type ∧ store.readType type = .ok given.2)
      (store.items list) (signature.names.zip signature.parameterTypes) := by
    refine List.Forall₂.flip (forall₂_imp_of_mem (List.forall₂_map_left_iff.mp hmaps) ?_)
    intro given hgiven p hp
    refine readParameter_of_holds (fun t ht => hsound.parameters t ?_) hp
    exact ht ▸ (List.of_mem_zip hgiven).2
  have htypes : ((store.items list).mapM fun p => do
      store.readType (← parameter (store.parameterField "type" p)))
        = .ok signature.parameterTypes := by
    rw [← hzip.2]
    refine mapM_of_forall₂ (List.forall₂_map_right_iff.mpr (hfields'.imp ?_))
    rintro p given ⟨-, type, hfield, hread⟩
    rw [hfield]
    exact hread
  have hreadNames : ((store.items list).mapM fun p => parameter (store.parameterField "name" p))
      = .ok signature.parameterNames := by
    conv_rhs => rw [← hzip.1]
    refine mapM_of_forall₂ (List.forall₂_map_right_iff.mpr (hfields'.imp ?_))
    rintro p given ⟨hname, -⟩
    rw [hname]
    rfl
  have hresult' := readType_of_holds hsound.result hresult
  simp [readSignature, truthy, hentries, iterate, htypes, hreadNames, hresult']

end Store

/-! ## Bodies -/

namespace Store

/-- **Entries spell the body** of an element: it is read from them, and its links are spelled in
them. -/
structure SpellsBody (store : Store) (entries : Entries) (body : Body) : Prop where
  bare (name : Value) : store.readBody body.kind name entries = .ok body.bare
  links : store.SpellsLinks entries body

/-- The fields that bodies have. -/
def bodyFields : List String :=
  ["constant", "type", "value", "signature", "instances", "base", "static_members",
    "instance_members"]

/-- The spelling of a body depends on the fields of bodies only. -/
theorem SpellsBody.congr {store : Store} {body : Body} {entries other : Entries}
    (hspells : store.SpellsBody entries body)
    (h : ∀ field ∈ bodyFields, other.field? field = entries.field? field) :
    store.SpellsBody other body := by
  simp only [bodyFields, List.forall_mem_cons] at h
  obtain ⟨hconstant, htype, hvalue, hsignature, hinstances, hbase, hstatics, hmembers, -⟩ := h
  refine ⟨fun name => ?_, ?_⟩
  · rw [← hspells.bare name]
    cases body.kind <;>
      simp only [readBody, Entries.field, hconstant, htype, hvalue, hsignature]
  · have hlinks := hspells.links
    cases body with
    | functionPrototype instances | classPrototype instances =>
      simpa only [SpellsLinks, Entries.field, hinstances] using hlinks
    | classType links | interfaceType links =>
      simpa only [SpellsLinks, Entries.field, hbase, hstatics, hmembers] using hlinks
    | _ => trivial

/-- **Entries spell an element** by its kind, its name, its flags, its body and its members. -/
theorem spells_of_fields {store : Store} {element : Element} {entries : Entries}
    (hkind : entries.field? "kind" = some (.text element.kind.name))
    (hname : entries.field? "name" = some element.name)
    (htruthy : store.truthy element.name = true)
    (hflags : store.readFlags (entries.field "flags") = .ok element.flags)
    (hbody : store.SpellsBody entries element.body)
    (hmembers : store.SpellsMembers (entries.field "members") element.members) :
    store.Spells element entries where
  head inherited := by
    have hkept : element.body.bare.kind = element.body.kind := Body.kind_bare _
    have hbare := hbody.bare element.name
    rw [← hkept] at hbare
    refine readHead_eq_ok_iff.mpr ⟨?_, by rw [hname]; rfl, htruthy, hflags, rfl, hbare⟩
    simp [Entries.kind?, Entries.field, hkind, Value.ofOption, Value.text?, Element.kind, hkept]
  members := hmembers
  links := hbody.links

end Store


/-! ## What is referred to -/

/-- A draft that only maps stand for. -/
def Draft.IsMap (draft : Draft) : Prop :=
  (∃ ref, draft = .value (.map ref)) ∨ ∃ entries, draft = .map entries

namespace Store

variable {store : Store} {below : Handle → Draft}

/-- What stands for a draft of a map is a map. -/
theorem Holds.exists_map {draft : Draft} {v : Value} (hmap : draft.IsMap)
    (h : store.Holds draft v) : ∃ ref, v = .map ref := by
  rcases hmap with ⟨ref, rfl⟩ | ⟨entries, rfl⟩
  · exact ⟨ref, holds_value_iff.mp h⟩
  · obtain ⟨ref, rfl, -⟩ := holds_map_iff.mp h
    exact ⟨ref, rfl⟩

/-- **Places of maps** that stand for the drafts of handles. The maps of the drafts are among
some. -/
structure Pairs (store : Store) (below : Handle → Draft) (handles refs : List Nat)
    (maps : Multiset Nat) : Prop where
  holds : List.Forall₂ (fun h ref => store.Holds (below h) (.map ref)) handles refs
  maps_le : store.mapsOfItems (handles.map below) (refs.map .map) ≤ maps

/-- The maps of items behind others are those of both. -/
theorem mapsOfItems_append {first second : List Draft} {values₁ values₂ : List Value}
    (h : first.length = values₁.length) :
    store.mapsOfItems (first ++ second) (values₁ ++ values₂)
      = store.mapsOfItems first values₁ + store.mapsOfItems second values₂ := by
  induction first generalizing values₁ with
  | nil =>
    obtain rfl := List.length_eq_zero_iff.mp h.symm
    simp [mapsOfItems]
  | cons draft first ih =>
    obtain _ | ⟨v, values₁⟩ := values₁
    · simp at h
    · simp only [List.cons_append, mapsOfItems, ih (Nat.succ_injective h), add_assoc]

namespace Pairs

variable {handles refs handles' refs' : List Nat} {maps maps' : Multiset Nat}

/-- No maps are paired with no handles. -/
theorem nil (maps : Multiset Nat) : store.Pairs below [] [] maps :=
  ⟨.nil, Multiset.zero_le maps⟩

/-- Pairs are pairs among more maps. -/
theorem mono (h : store.Pairs below handles refs maps) (hle : maps ≤ maps') :
    store.Pairs below handles refs maps' :=
  ⟨h.holds, h.maps_le.trans hle⟩

/-- Pairs behind others are pairs, among the maps of both. -/
theorem append (h : store.Pairs below handles refs maps)
    (h' : store.Pairs below handles' refs' maps') :
    store.Pairs below (handles ++ handles') (refs ++ refs') (maps + maps') where
  holds := List.rel_append h.holds h'.holds
  maps_le := by
    rw [List.map_append, List.map_append, mapsOfItems_append (by simp [h.holds.length_eq])]
    exact add_le_add h.maps_le h'.maps_le

end Pairs

/-- Values that stand for the drafts of handles are places of maps. -/
theorem exists_pairs {handles : List Handle} (hmaps : ∀ h ∈ handles, (below h).IsMap)
    {values : List Value} (h : List.Forall₂ store.Holds (handles.map below) values) :
    ∃ refs : List Nat, values = refs.map Value.map ∧
      store.Pairs below handles refs (store.mapsOfItems (handles.map below) values) := by
  have hrefs : ∃ refs : List Nat, values = refs.map Value.map := by
    rw [List.forall₂_map_left_iff] at h
    induction h with
    | nil => exact ⟨[], rfl⟩
    | @cons a v handles values hfirst _ ih =>
      obtain ⟨ref, rfl⟩ := hfirst.exists_map (hmaps a List.mem_cons_self)
      obtain ⟨refs, rfl⟩ := ih fun b hb => hmaps b (List.mem_cons_of_mem a hb)
      exact ⟨ref :: refs, rfl⟩
  obtain ⟨refs, rfl⟩ := hrefs
  exact ⟨refs, rfl, List.forall₂_map_right_iff.mp (List.forall₂_map_left_iff.mp h), le_rfl⟩

/-- **A value that stands for a member map** spells it. -/
theorem exists_members {members : Members} (hmaps : ∀ h ∈ members.map (·.2), (below h).IsMap)
    {v : Value} (h : store.Holds (members.draft below) v) : ∃ members' : Members,
      store.SpellsMembers v (some members') ∧ members'.shape = members.shape ∧
      store.Pairs below (members.map (·.2)) (members'.map (·.2))
        (store.mapsOf (members.draft below) v) := by
  obtain ⟨ref, rfl, -, hentries⟩ := holds_map_iff.mp h
  obtain ⟨hkeys, hvalues⟩ := holdsEntries_iff.mp hentries
  have hdrafts : (members.map fun entry => (entry.1, below entry.2)).map (·.2)
      = (members.map (·.2)).map below := by
    simp
  rw [hdrafts] at hvalues
  obtain ⟨refs, hrefs, hpairs⟩ := exists_pairs hmaps hvalues
  have hlength : members.length = refs.length := by simpa using hpairs.holds.length_eq
  have hsnd : ((members.map (·.1)).zip refs).map (·.2) = refs :=
    List.map_snd_zip (by simp [hlength])
  have hfst : ((members.map (·.1)).zip refs).map (·.1) = members.map (·.1) :=
    List.map_fst_zip (by simp [hlength])
  refine ⟨(members.map (·.1)).zip refs, ⟨ref, rfl, ?_⟩, ?_, ?_⟩
  · -- entries are made of their keys and their values
    have hsplit : store.entries ref = ((store.entries ref).map (·.1)).zip
        ((store.entries ref).map (·.2)) := List.zip_of_prod rfl rfl
    have hnames : (members.map fun entry => (entry.1, below entry.2)).map (·.1)
        = members.map (·.1) := by
      simp
    rw [hsplit, ← hkeys, hnames, hrefs, List.zip_map_right]
    rfl
  · have hshape (others : Members) : others.shape = (others.map (·.1)).map fun key => (key, 0) := by
      simp [Members.shape, Members.rename]
    rw [hshape, hshape, hfst]
  · rw [hsnd]
    refine hpairs.mono ?_
    rw [Members.draft, mapsOf, mapsOfEntries_eq, hdrafts]
    exact Multiset.le_add_left _ _

/-- An optional member map that is held is spelled. -/
theorem exists_optionalMembers {name : String} {members : Option Members}
    (hmaps : ∀ h ∈ (members.getD []).map (·.2), (below h).IsMap) {entries : Entries}
    (h : store.HoldsEntries (Draft.optional name (members.map (Members.draft below))) entries) :
    ∃ (v : Option Value) (members' : Option Members), entries = Entries.optional name v ∧
      store.SpellsMembers (Value.ofOption v) members' ∧
      members'.map Members.shape = members.map Members.shape ∧
      store.Pairs below ((members.getD []).map (·.2)) ((members'.getD []).map (·.2))
        (store.mapsOfEntries (Draft.optional name (members.map (Members.draft below))) entries) := by
  obtain ⟨v, rfl, hv⟩ := HoldsEntries.optional_iff.mp h
  cases members with
  | none =>
    cases hv
    exact ⟨none, none, rfl, rfl, rfl, .nil _⟩
  | some members =>
    cases hv with
    | some hv =>
      obtain ⟨members', hspells, hshape, hpairs⟩ := exists_members hmaps hv
      refine ⟨some _, some members', rfl, hspells, congrArg some hshape, hpairs.mono ?_⟩
      simp [Draft.optional, Entries.optional, mapsOfEntries]

/-- An optional base that is held. -/
theorem exists_base {base : Option Handle} (hmaps : ∀ h ∈ base.toList, (below h).IsMap)
    {entries : Entries} (h : store.HoldsEntries (Draft.optional "base" (base.map below)) entries) :
    ∃ base' : Option Nat, entries = Entries.optional "base" (base'.map Value.map) ∧
      (base'.map fun _ => 0) = (base.map fun _ => 0) ∧
      store.Pairs below base.toList base'.toList
        (store.mapsOfEntries (Draft.optional "base" (base.map below)) entries) := by
  obtain ⟨v, rfl, hv⟩ := HoldsEntries.optional_iff.mp h
  cases base with
  | none =>
    cases hv
    exact ⟨none, rfl, rfl, .nil _⟩
  | some b =>
    cases hv with
    | some hv =>
      obtain ⟨ref, rfl⟩ := hv.exists_map (hmaps b List.mem_cons_self)
      refine ⟨some ref, rfl, rfl, .cons hv .nil, ?_⟩
      simp [Draft.optional, Entries.optional, mapsOfEntries, mapsOfItems]

/-- The instances of a prototype that are held. -/
theorem exists_instances {instances : List Handle} (hmaps : ∀ h ∈ instances, (below h).IsMap)
    {entries : Entries}
    (h : store.HoldsEntries [(.text "instances", .list (instances.map below))] entries) :
    ∃ (ref : Nat) (refs : List Nat), entries = [(.text "instances", .list ref)] ∧
      store.items ref = refs.map Value.map ∧ (refs.map fun _ => 0) = (instances.map fun _ => 0) ∧
      store.Pairs below instances refs
        (store.mapsOfEntries [(.text "instances", .list (instances.map below))] entries) := by
  obtain ⟨v, rest, rfl, hv, hrest⟩ := HoldsEntries.cons_iff.mp h
  obtain rfl := HoldsEntries.nil_iff.mp hrest
  obtain ⟨ref, rfl, -, hvalues⟩ := holds_list_iff.mp hv
  obtain ⟨refs, hrefs, hpairs⟩ := exists_pairs hmaps hvalues
  refine ⟨ref, refs, rfl, hrefs, ?_, hpairs.mono ?_⟩
  · simp [hpairs.holds.length_eq]
  · simp [mapsOfEntries, mapsOf]

/-- What a class refers to, when it is held. -/
theorem exists_classLinks {links : ClassLinks}
    (hmaps : ∀ h ∈ (Body.classType links).links, (below h).IsMap) {entries : Entries}
    (h : store.HoldsEntries ((Body.classType links).draft below) entries) :
    ∃ links' : ClassLinks, store.SpellsLinks entries (.classType links') ∧
      (links'.map fun _ => 0) = (links.map fun _ => 0) ∧
      store.Pairs below (Body.classType links).links (Body.classType links').links
        (store.mapsOfEntries ((Body.classType links).draft below) entries) ∧
      entries.field? "flags" = none ∧ entries.field? "members" = none := by
  simp only [Body.links, List.mem_append] at hmaps
  obtain ⟨_, entries₃, rfl, hfirst, hmembers⟩ := HoldsEntries.append_iff.mp h
  obtain ⟨entries₁, entries₂, rfl, hbase, hstatics⟩ := HoldsEntries.append_iff.mp hfirst
  -- the maps of the three fields add up, so their bounds can be added
  have hsum : store.mapsOfEntries ((Body.classType links).draft below)
      (entries₁ ++ entries₂ ++ entries₃) = _ := mapsOfEntries_append hfirst
  rw [mapsOfEntries_append hbase] at hsum
  obtain ⟨base, rfl, hbaseShape, hbasePairs⟩ := exists_base (fun a ha => hmaps a (.inl (.inl ha))) hbase
  obtain ⟨v, statics, rfl, hstaticsSpell, hstaticsShape, hstaticsPairs⟩ :=
    exists_optionalMembers (fun a ha => hmaps a (.inl (.inr ha))) hstatics
  obtain ⟨w, members, rfl, hmembersSpell, hmembersShape, hmembersPairs⟩ :=
    exists_optionalMembers (fun a ha => hmaps a (.inr ha)) hmembers
  refine ⟨⟨base, statics, members⟩, ⟨?_, ?_, ?_⟩, ?_, ?_, by simp, by simp⟩
  · simp [Entries.field]
  · simpa [Entries.field] using hstaticsSpell
  · simpa [Entries.field] using hmembersSpell
  · simp only [ClassLinks.map, ClassLinks.mk.injEq]
    exact ⟨hbaseShape, hstaticsShape, hmembersShape⟩
  · rw [hsum]
    exact (hbasePairs.append hstaticsPairs).append hmembersPairs

/-- **Entries that stand for the draft of a sound body** spell it. -/
theorem exists_body {body : Body} (hsound : body.Sound) (hmaps : ∀ h ∈ body.links, (below h).IsMap)
    {entries : Entries} (h : store.HoldsEntries (body.draft below) entries) :
    ∃ body' : Body, store.SpellsBody entries body' ∧ body'.shape = body.shape ∧
      store.Pairs below body.links body'.links (store.mapsOfEntries (body.draft below) entries) ∧
      entries.field? "flags" = none ∧ entries.field? "members" = none := by
  cases body with
  | global type constant =>
    obtain ⟨v, rest, rfl, htype, hrest⟩ := HoldsEntries.cons_iff.mp h
    obtain ⟨w, rfl, hw⟩ := HoldsEntries.optional_iff.mp hrest
    have hread : store.readType v = .ok type := readType_of_holds hsound.1 htype
    have hconstant (name : Value) : store.readConstant name (Value.ofOption w) = .ok constant := by
      cases constant with
      | none =>
        cases hw
        rfl
      | some constant =>
        cases hw with
        | some hw => exact readConstant_of_holds (hsound.2 constant rfl) hw name
    refine ⟨.global type constant, ⟨fun name => ?_, trivial⟩, rfl, .nil _, by simp, by simp⟩
    simp [readBody, Body.kind, Body.bare, Entries.field, hconstant, hread, pure_eq_ok]
  | enumValue value =>
    obtain ⟨n, rfl⟩ := hsound
    obtain ⟨v, rest, rfl, hv, hrest⟩ := HoldsEntries.cons_iff.mp h
    obtain rfl := HoldsEntries.nil_iff.mp hrest
    obtain rfl := holds_value_iff.mp hv
    refine ⟨.enumValue (.int n), ⟨fun name => ?_, trivial⟩, rfl, .nil _, by simp, by simp⟩
    simp [readBody, Body.kind, Body.bare, readEnumValue, pure_eq_ok]
  | function signature =>
    obtain ⟨v, rest, rfl, hv, hrest⟩ := HoldsEntries.cons_iff.mp h
    obtain rfl := HoldsEntries.nil_iff.mp hrest
    have hread := readSignature_of_holds hsound hv
    refine ⟨.function signature, ⟨fun name => ?_, trivial⟩, rfl, .nil _, by simp, by simp⟩
    simp [readBody, Body.kind, Body.bare, Entries.field, hread, pure_eq_ok]
  | functionPrototype instances =>
    obtain ⟨ref, refs, rfl, hitems, hshape, hpairs⟩ := exists_instances hmaps h
    exact ⟨.functionPrototype refs, ⟨fun name => rfl, ref, by simp [Entries.field], hitems⟩,
      congrArg Body.functionPrototype hshape, hpairs, by simp, by simp⟩
  | classPrototype instances =>
    obtain ⟨ref, refs, rfl, hitems, hshape, hpairs⟩ := exists_instances hmaps h
    exact ⟨.classPrototype refs, ⟨fun name => rfl, ref, by simp [Entries.field], hitems⟩,
      congrArg Body.classPrototype hshape, hpairs, by simp, by simp⟩
  | classType links =>
    obtain ⟨links', hspells, hshape, hpairs, hfields⟩ := exists_classLinks hmaps h
    exact ⟨.classType links', ⟨fun name => rfl, hspells⟩, congrArg Body.classType hshape, hpairs,
      hfields⟩
  | interfaceType links =>
    obtain ⟨links', hspells, hshape, hpairs, hfields⟩ := exists_classLinks hmaps h
    exact ⟨.interfaceType links', ⟨fun name => rfl, hspells⟩, congrArg Body.interfaceType hshape,
      hpairs, hfields⟩
  | enumeration =>
    obtain rfl := HoldsEntries.nil_iff.mp h
    exact ⟨.enumeration, ⟨fun name => rfl, trivial⟩, rfl, .nil _, rfl, rfl⟩
  | nameSpace =>
    obtain rfl := HoldsEntries.nil_iff.mp h
    exact ⟨.nameSpace, ⟨fun name => rfl, trivial⟩, rfl, .nil _, rfl, rfl⟩

/-- **Entries that stand for the draft of an element** spell it, wherever its name counts as true:
its handles are replaced by places of maps that stand for their drafts. -/
theorem exists_spelled {element : Element} (hsound : element.body.Sound)
    (hmaps : ∀ h ∈ element.successors, (below h).IsMap) {entries : Entries}
    (h : store.HoldsEntries (element.draft below) entries)
    (hname : store.truthy element.name = true) : ∃ element' : Element,
      store.Spells element' entries ∧ element'.shape = element.shape ∧
      store.Pairs below element.successors element'.successors
        (store.mapsOfEntries (element.draft below) entries) := by
  simp only [Element.successors, List.mem_append] at hmaps
  obtain ⟨_, entries₄, rfl, hfirst, hmembers⟩ := HoldsEntries.append_iff.mp h
  obtain ⟨entries₁, entries₃, rfl, hsecond, hbody⟩ := HoldsEntries.append_iff.mp hfirst
  have hsum : store.mapsOfEntries (element.draft below) (entries₁ ++ entries₃ ++ entries₄) = _ :=
    mapsOfEntries_append hfirst
  rw [mapsOfEntries_append hsecond] at hsum
  obtain ⟨_, _, rfl, hkind, hrest⟩ := HoldsEntries.cons_iff.mp hsecond
  obtain ⟨_, _, rfl, hgiven, hflags⟩ := HoldsEntries.cons_iff.mp hrest
  obtain rfl := holds_value_iff.mp hkind
  obtain rfl := holds_value_iff.mp hgiven
  obtain ⟨v, rfl, hv⟩ := HoldsEntries.optional_iff.mp hflags
  obtain ⟨body, hspells, hshape, hpairs, hnoFlags, hnoMembers⟩ :=
    exists_body hsound (fun a ha => hmaps a (.inr ha)) hbody
  obtain ⟨w, members, rfl, hmembersSpell, hmembersShape, hmembersPairs⟩ :=
    exists_optionalMembers (fun a ha => hmaps a (.inl ha)) hmembers
  -- without flags the draft has no field for them, and a missing field is read as no flags
  have hread : store.readFlags (Value.ofOption v) = .ok element.flags := by
    split at hv
    · rename_i hnames
      cases hv
      have hread := readFlagNames_names element.flags
      rw [hnames] at hread
      exact hread
    · cases hv with
      | some hv => exact readFlags_of_holds hv
  have hbodyKind : body.kind = element.kind := by
    simpa [Body.shape, Element.kind] using congrArg Body.kind hshape
  refine ⟨{ element with members, body }, spells_of_fields ?_ ?_ hname ?_ (hspells.congr ?_) ?_,
    ?_, ?_⟩
  · simp [Element.kind, hbodyKind]
  · simp
  · simpa [Entries.field, hnoFlags] using hread
  · simp [bodyFields]
  · simpa [Entries.field, hnoMembers] using hmembersSpell
  · simp only [Element.shape, Element.map, Element.mk.injEq, true_and]
    exact ⟨hmembersShape, hshape⟩
  · rw [hsum, add_comm]
    exact hmembersPairs.append (hpairs.mono (Multiset.le_add_left _ _))

/-- **A value that stands for the draft of a root** holds the addressing width and spells the
exports. -/
theorem exists_root {graph : Graph} (hmaps : ∀ h ∈ graph.exports.map (·.2), (below h).IsMap)
    {v : Value} (h : store.Holds (graph.rootDraft below) v) : ∃ (ref : Nat) (exports : Members),
      v = .map ref ∧ store.SpellsMembers ((store.entries ref).field "exports") (some exports) ∧
      exports.shape = graph.exports.shape ∧
      store.Pairs below (graph.exports.map (·.2)) (exports.map (·.2))
        (store.mapsOf (graph.rootDraft below) v) ∧
      store.truthy (((store.entries ref).field? "is_64bit").getD (.bool false)) = graph.is64Bit := by
  obtain ⟨ref, rfl, -, hfields⟩ := holds_map_iff.mp h
  obtain ⟨width, _, hentries, hwidth, hrest⟩ := HoldsEntries.cons_iff.mp hfields
  obtain ⟨v, _, rfl, hv, hnil⟩ := HoldsEntries.cons_iff.mp hrest
  obtain rfl := HoldsEntries.nil_iff.mp hnil
  obtain rfl := holds_value_iff.mp hwidth
  obtain ⟨exports, hspells, hshape, hpairs⟩ := exists_members hmaps hv
  refine ⟨ref, exports, rfl, by simpa [hentries, Entries.field] using hspells, hshape,
    hpairs.mono ?_, by simp [hentries, truthy, Scalar.truthy]⟩
  simp only [Graph.rootDraft, mapsOf, hentries, mapsOfEntries, add_zero, zero_add]
  exact Multiset.le_add_left _ _

/-- Where every handle has its place, the places of the maps are those:
`refs = handles.map place`. -/
theorem places_of_pairs {place : Handle → Nat} {handles refs : List Nat} {maps : Multiset Nat}
    (h : store.Pairs (fun h => .value (.map (place h))) handles refs maps) :
    refs = handles.map place := by
  have hplaces := h.holds.imp fun h ref (hv : store.Holds (.value (.map (place h))) (.map ref)) =>
    Value.map.inj (holds_value_iff.mp hv)
  rw [← List.forall₂_eq_eq_eq, List.forall₂_map_right_iff]
  exact hplaces.flip

/-- Entries that stand for a draft in which every handle has its place spell the element with the
places for its handles. -/
theorem spells_of_placed {place : Handle → Nat} {element : Element} (hsound : element.body.Sound)
    {entries : Entries}
    (h : store.HoldsEntries (element.draft fun h => .value (.map (place h))) entries)
    (hname : store.truthy element.name = true) : store.Spells (element.map place) entries := by
  obtain ⟨element', hspells, hshape, hpairs⟩ :=
    exists_spelled hsound (fun h _ => .inl ⟨place h, rfl⟩) h hname
  rwa [← Element.eq_map_of_shape hshape (places_of_pairs hpairs)]

end Store

end ModuleSurface
