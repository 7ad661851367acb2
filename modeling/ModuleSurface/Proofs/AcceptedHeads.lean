import ModuleSurface.Proofs.Layout

/-! # Which heads are accepted

A head is read where the tree of the element has a head of the grammar. What a part holds decides it
alone, so each part of a head is accepted or refused for itself.

* **`Store.readType_iff`** … **`Store.readSignature_iff`** — the parts of a head.
* **`Store.readHead_iff`** — a head is read, of a kind, exactly where the grammar has one. -/

namespace ModuleSurface

/-- Only a text is read by `text?`. -/
theorem Value.text?_eq_some_iff {v : Value} {s : String} : v.text? = some s ↔ v = .text s := by
  constructor
  · intro h
    unfold Value.text? at h
    split at h <;> simp_all
  · rintro rfl
    rfl

/-- A missing field is no text, so `field` and `field?` find the same texts. -/
theorem Entries.field_eq_text_iff {entries : Entries} {name s : String} :
    entries.field name = .text s ↔ entries.field? name = some (.text s) := by
  rw [field]
  cases entries.field? name <;> simp [Value.ofOption]

namespace Store

variable {store : Store} {tree : Tree} {v : Value} {maps : Multiset Nat}

/-- **A value shows a tree**, whatever the maps are. -/
def Shown (store : Store) (tree : Tree) (v : Value) : Prop := ∃ maps, store.Shows tree v maps

/-- What a tree shows with some maps is shown. -/
theorem Shows.shown (h : store.Shows tree v maps) : store.Shown tree v := ⟨maps, h⟩

/-- A value and the tree that shows it count as false together: `store.truthy v = tree.truthy`. -/
theorem Shown.truthy_eq (h : store.Shown tree v) : store.truthy v = tree.truthy := by
  obtain ⟨maps, h⟩ := h
  exact h.truthy_eq

/-- A scalar shows itself. -/
theorem shown_scalar (s : Scalar) : store.Shown (.scalar s) (.scalar s) := ⟨0, .scalar s⟩

/-- A scalar is shown by itself, and shows itself only: `v = .scalar s ↔ tree = .scalar s`. -/
theorem Shown.scalar_iff (h : store.Shown tree v) (s : Scalar) : v = .scalar s ↔ tree = .scalar s := by
  obtain ⟨maps, h⟩ := h
  cases h <;> simp

/-! ## Fields -/

/-- **The entries of a map show fields**: a field is there in both or in neither, and the one shows the
other. -/
def ShownFields (store : Store) (tree : Tree) (entries : Entries) : Prop :=
  ∀ name, Option.Rel store.Shown (tree.field? name) (entries.field? name)

/-- Entries that are shown one by one are shown as fields. -/
theorem ShowsFields.shown {trees : List (Scalar × Tree)} {entries : Entries}
    (h : ShowsFields store.Shows trees entries maps) : store.ShownFields (.map trees) entries := by
  obtain ⟨parts, hparts, -, -⟩ := h.fields
  intro name
  obtain ⟨ht, hv⟩ | ⟨t, v, ht, hv, h⟩ := rel_cases (hparts name)
  · rw [Tree.field?_map, ht, hv]
    exact .none
  · rw [Tree.field?_map, ht, hv]
    exact .some h.shown

/-- What is there on both sides, or replaced on both, is shown. -/
theorem shown_getD {tree : Option Tree} {v : Option Value} {other : Tree} {w : Value}
    (h : Option.Rel store.Shown tree v) (h' : store.Shown other w) :
    store.Shown (tree.getD other) (v.getD w) := by
  cases h with
  | none => exact h'
  | some h => exact h

namespace ShownFields

variable {entries : Entries} (h : store.ShownFields tree entries)
include h

/-- Where a missing field counts as nothing, `tree.field name` shows `entries.field name`. -/
theorem field (name : String) : store.Shown (tree.field name) (entries.field name) := by
  have hfield : entries.field name = (entries.field? name).getD .null := by
    rw [Entries.field]
    cases entries.field? name <;> rfl
  rw [hfield]
  exact shown_getD (h name) (shown_scalar .null)

/-- A text stands in a field of the one when it stands there in the other. -/
theorem text_iff (name s : String) :
    entries.field? name = some (.text s) ↔ tree.field? name = some (.text s) := by
  obtain ⟨ht, hv⟩ | ⟨t, v, ht, hv, hshown⟩ := rel_cases (h name)
  · simp [ht, hv]
  · rw [ht, hv, Option.some_inj, Option.some_inj]
    exact hshown.scalar_iff (.text s)

end ShownFields

/-! ## Parts of a head -/

/-- A kind of types is read where it is named by `PrimitiveKind.name`. -/
theorem readTypeKind_iff : (∃ kind, readTypeKind v = .ok kind) ↔
    ∃ kind : PrimitiveKind, v = .text kind.name := by
  constructor
  · rintro ⟨kind, h⟩
    unfold readTypeKind at h
    split at h
    · rename_i found hfound
      obtain ⟨s, hs, hkind⟩ := Option.bind_eq_some_iff.mp hfound
      exact ⟨found, by rw [PrimitiveKind.name_of_ofName? hkind, Value.text?_eq_some_iff.mp hs]⟩
    · cases h
  · rintro ⟨kind, rfl⟩
    exact ⟨kind, by simp [readTypeKind]⟩

/-- **Types**: `readType` succeeds where `Tree.IsType` holds. -/
theorem readType_iff (h : store.Shown tree v) :
    (∃ type, store.readType v = .ok type) ↔ tree.IsType := by
  obtain ⟨maps, h⟩ := h
  cases h with
  | scalar s =>
    cases s with
    | null => exact iff_of_true ⟨_, rfl⟩ .null
    | text s =>
      have hkind : (∃ type, store.readType (.text s) = .ok type)
          ↔ (∃ kind, readTypeKind (.text s) = .ok kind) ∧ True :=
        exists_bind_iff fun kind _ => iff_of_true ⟨_, rfl⟩ trivial
      rw [hkind, and_true, readTypeKind_iff]
      constructor
      · rintro ⟨kind, hs⟩
        cases hs
        exact .name kind
      · rintro (_ | kind)
        exact ⟨kind, rfl⟩
    | _ => exact iff_of_false (by rintro ⟨_, h⟩; cases h) (by rintro ⟨⟩)
  | list each => exact iff_of_false (by rintro ⟨_, h⟩; cases h) (by rintro ⟨⟩)
  | @map trees ref _ each =>
    have hkind : (∃ type, store.readType (.map ref) = .ok type)
        ↔ (∃ kind, readTypeKind ((store.entries ref).field "kind") = .ok kind) ∧ True :=
      exists_bind_iff fun kind _ => iff_of_true ⟨_, rfl⟩ trivial
    rw [hkind, and_true, readTypeKind_iff]
    simp only [Entries.field_eq_text_iff, each.shown.text_iff, Tree.field?_map]
    constructor
    · rintro ⟨kind, hnamed⟩
      exact .map kind hnamed
    · rintro (_ | _ | ⟨kind, hnamed⟩)
      exact ⟨kind, hnamed⟩

/-- The name of a flag is one of `"compiled"`, `"inlined"` and `"abstract"`. -/
theorem flag_iff (h : store.Shown tree v) : (∃ flag, v.text?.bind Flags.ofName? = some flag) ↔
    ∃ name ∈ ["compiled", "inlined", "abstract"], tree = .text name := by
  have hname (s : String) :
      (∃ flag, Flags.ofName? s = some flag) ↔ s ∈ ["compiled", "inlined", "abstract"] := by
    unfold Flags.ofName?
    split <;> simp_all
  simp only [← h.scalar_iff, Option.bind_eq_some_iff, Value.text?_eq_some_iff, ← hname]
  constructor
  · rintro ⟨flag, s, hs, hflag⟩
    exact ⟨s, ⟨flag, hflag⟩, hs⟩
  · rintro ⟨s, ⟨flag, hflag⟩, hs⟩
    exact ⟨flag, s, hs, hflag⟩

/-- The names of flags are read where each item of the list is one. -/
theorem readFlagNames_iff {items : List Tree} {values : List Value}
    (h : ShowsEach store.Shows items values maps) (flags : Flags) :
    (∃ result, readFlagNames values flags = .ok result) ↔
      ∀ item ∈ items, ∃ name ∈ ["compiled", "inlined", "abstract"], item = .text name := by
  induction h generalizing flags with
  | nil => exact iff_of_true ⟨_, rfl⟩ (by simp)
  | @cons tree v maps items values others hfirst _ ih =>
    rw [List.forall_mem_cons, ← flag_iff hfirst.shown, readFlagNames]
    cases hflag : v.text?.bind Flags.ofName? with
    | none => exact iff_of_false (by rintro ⟨_, h⟩; cases h) (by rintro ⟨⟨_, h⟩, _⟩; cases h)
    | some flag => exact (ih _).trans (iff_and_self.mpr fun _ => ⟨flag, rfl⟩)

/-- **Flags**: `readFlags` succeeds where `Tree.IsFlags` holds. -/
theorem readFlags_iff (h : store.Shown tree v) :
    (∃ flags, store.readFlags v = .ok flags) ↔ tree.IsFlags := by
  obtain ⟨maps, h⟩ := h
  cases h with
  | scalar s =>
    cases s with
    | null => exact iff_of_true ⟨_, rfl⟩ .null
    | _ => exact iff_of_false (by rintro ⟨_, h⟩; cases h) (by rintro ⟨⟩)
  | list each =>
    refine (readFlagNames_iff each .none).trans ⟨.list, ?_⟩
    rintro (_ | hitems)
    exact hitems
  | map each => exact iff_of_false (by rintro ⟨_, h⟩; cases h) (by rintro ⟨⟩)

/-- **Payloads**: `readPayload kind` succeeds where `Tree.Converts kind` holds. -/
theorem readPayload_iff (h : store.Shown tree v) (kind : ConstantKind) :
    (∃ value, readPayload kind v = .ok value) ↔ tree.Converts kind := by
  obtain ⟨maps, h⟩ := h
  cases h with
  | scalar s =>
    cases kind with
    | integer =>
      rw [readPayload, Value.toInt_scalar]
      cases hs : s.toInt with
      | ok n => exact iff_of_true ⟨_, rfl⟩ (.integer hs)
      | error cause =>
        refine iff_of_false (by rintro ⟨_, h⟩; cases h) ?_
        rintro ⟨hn⟩
        rw [hs] at hn
        cases hn
    | float =>
      rw [readPayload, Value.toDouble_scalar]
      cases hs : s.toDouble with
      | ok x => exact iff_of_true ⟨_, rfl⟩ (.float hs)
      | error cause =>
        refine iff_of_false (by rintro ⟨_, h⟩; cases h) ?_
        rintro (_ | hx)
        rw [hs] at hx
        cases hx
  | list each => cases kind <;> exact iff_of_false (by rintro ⟨_, h⟩; cases h) (by rintro ⟨⟩)
  | map each => cases kind <;> exact iff_of_false (by rintro ⟨_, h⟩; cases h) (by rintro ⟨⟩)

/-- The sort of a constant that is named. -/
theorem constantKind_iff (h : store.Shown tree v) (kind : ConstantKind) :
    v.text?.bind ConstantKind.ofName? = some kind ↔ tree = .text kind.name := by
  have hname (s : String) : ConstantKind.ofName? s = some kind ↔ s = kind.name := by
    constructor
    · intro hs
      unfold ConstantKind.ofName? at hs
      split at hs <;> cases hs <;> rfl
    · rintro rfl
      exact ConstantKind.ofName?_name kind
  simp only [← h.scalar_iff, Option.bind_eq_some_iff, Value.text?_eq_some_iff, hname,
    exists_eq_right]

/-- **Constants**: `readConstant` succeeds where `Tree.IsConstant` holds, whatever the element is
named. -/
theorem readConstant_iff (h : store.Shown tree v) (name : Value) :
    (∃ constant, store.readConstant name v = .ok constant) ↔ tree.IsConstant := by
  obtain ⟨maps, h⟩ := h
  cases h with
  | scalar s =>
    cases s with
    | null => exact iff_of_true ⟨_, rfl⟩ .null
    | _ => exact iff_of_false (by rintro ⟨_, h⟩; cases h) (by rintro ⟨⟩)
  | list each => exact iff_of_false (by rintro ⟨_, h⟩; cases h) (by rintro ⟨⟩)
  | @map trees ref _ each =>
    have hsort := constantKind_iff
      (shown_getD (each.shown "kind") (shown_scalar (.text ConstantKind.integer.name)))
    rw [Tree.field?_map] at hsort
    unfold readConstant
    rw [if_neg (by simp [Value.isNull])]
    simp only
    cases hkind : ((store.entries ref).field? "kind" |>.getD (.text ConstantKind.integer.name)).text?.bind
        ConstantKind.ofName? with
    | none =>
      refine iff_of_false (by rintro ⟨_, h⟩; cases h) ?_
      rintro (_ | ⟨kind, sort, _, _⟩)
      rw [← hsort, hkind] at sort
      cases sort
    | some kind =>
      have hnamed := (hsort kind).mp hkind
      simp only
      obtain ⟨ht, hv⟩ | ⟨t, v, ht, hv, hshown⟩ := rel_cases (each.shown "value")
      · rw [hv]
        refine iff_of_false (by rintro ⟨_, h⟩; cases h) ?_
        rintro (_ | ⟨_, _, given, _⟩)
        rw [Tree.field?_map, given] at ht
        cases ht
      · rw [hv]
        have hpayload := readPayload_iff hshown kind
        simp only
        cases hread : readPayload kind v with
        | ok value =>
          exact iff_of_true ⟨_, rfl⟩ (.map kind hnamed ht (hpayload.mp ⟨value, hread⟩))
        | error cause =>
          refine iff_of_false ?_ ?_
          · rintro ⟨_, h⟩
            simp only at h
            split at h <;> cases h
          · rintro (_ | ⟨other, sort, given, number⟩)
            -- neither the sort nor the value is another one
            rw [(hsort other).mpr sort] at hkind
            cases hkind
            rw [Tree.field?_map, given] at ht
            cases ht
            obtain ⟨value, hvalue⟩ := hpayload.mpr number
            rw [hread] at hvalue
            cases hvalue

/-- **The payload of an enum value**, which may be missing. -/
theorem readEnumValue_iff {tree : Option Tree} {v : Option Value}
    (h : Option.Rel store.Shown tree v) (name : Value) :
    (∃ value, readEnumValue name v = .ok value) ↔
      ∀ given, tree = some given → given.Converts .integer := by
  have hread : (∃ value, readEnumValue name v = .ok value)
      ↔ ∃ value, readPayload .integer (v.getD (.int 0)) = .ok value := by
    unfold readEnumValue readPayload
    cases hn : (v.getD (.int 0)).toInt with
    | ok n => exact iff_of_true ⟨_, rfl⟩ ⟨_, rfl⟩
    | error cause =>
      refine iff_of_false ?_ (by rintro ⟨_, h⟩; cases h)
      rintro ⟨_, h⟩
      simp only at h
      split at h <;> cases h
  rw [hread]
  obtain ⟨rfl, rfl⟩ | ⟨t, w, rfl, rfl, hshown⟩ := rel_cases h
  · exact iff_of_true ⟨_, rfl⟩ (by rintro _ ⟨⟩)
  · rw [Option.getD_some, readPayload_iff hshown]
    simp

/-! ### Signatures -/

/-- **A field of a parameter** is found where the tree has it. -/
theorem parameterField_iff (h : store.Shown tree v) (name : String) (found : Value → Prop)
    (valid : Tree → Prop) (hvalid : ∀ t w, store.Shown t w → (found w ↔ valid t)) :
    (∃ w, parameter (store.parameterField name v) = .ok w ∧ found w) ↔
      ∃ t, tree.field? name = some t ∧ valid t := by
  obtain ⟨maps, h⟩ := h
  cases h with
  | scalar s =>
    refine iff_of_false ?_ (by rintro ⟨_, h, _⟩; cases h)
    rintro ⟨_, h, _⟩
    cases s <;> cases h
  | list each => exact iff_of_false (by rintro ⟨_, h, _⟩; cases h) (by rintro ⟨_, h, _⟩; cases h)
  | @map trees ref _ each =>
    rw [parameterField]
    obtain ⟨ht, hv⟩ | ⟨t, w, ht, hv, hshown⟩ := rel_cases (each.shown name)
    · rw [ht, hv]
      exact iff_of_false (by rintro ⟨_, h, _⟩; cases h) (by rintro ⟨_, h, _⟩; cases h)
    · rw [ht, hv]
      simp only [parameter, Except.ok.injEq, exists_eq_left', Option.some_inj, hvalid t w hshown]

/-- Reading the type of a parameter. -/
def readParameterType (store : Store) (p : Value) : Except DecodeError (Option ValueType) := do
  store.readType (← parameter (store.parameterField "type" p))

/-- Reading the name of a parameter. -/
def readParameterName (store : Store) (p : Value) : Except DecodeError Value :=
  parameter (store.parameterField "name" p)

/-- **Parameters are read**: the types of all of them, and the names of all of them. -/
def ReadsParameters (store : Store) (parameters : List Value) : Prop :=
  (∃ types, parameters.mapM store.readParameterType = .ok types) ∧
    ∃ names, parameters.mapM store.readParameterName = .ok names

/-- Parameters are read where each of them has a type and a name. -/
theorem readsParameters_iff {parameters : List Value} : store.ReadsParameters parameters ↔
    ∀ p ∈ parameters, (∃ type, store.readParameterType p = .ok type) ∧
      ∃ name, store.readParameterName p = .ok name := by
  rw [ReadsParameters, exists_mapM_iff, exists_mapM_iff, ← forall₂_and]

/-- **A parameter** is read where it has a type and a name. -/
theorem readParameter_iff (h : store.Shown tree v) : ((∃ type, store.readParameterType v = .ok type) ∧
    ∃ name, store.readParameterName v = .ok name) ↔ tree.IsParameter := by
  have htype : (∃ type, store.readParameterType v = .ok type) ↔
      ∃ type, tree.field? "type" = some type ∧ type.IsType := by
    rw [← parameterField_iff h "type" (fun w => ∃ type, store.readType w = .ok type) Tree.IsType
      fun _ _ => readType_iff]
    simp only [readParameterType, bind_eq_ok_iff]
    tauto
  have hname : (∃ name, store.readParameterName v = .ok name) ↔
      ∃ name, tree.field? "name" = some name := by
    have hfound := parameterField_iff h "name" (fun _ => True) (fun _ => True) fun _ _ _ => Iff.rfl
    simpa [readParameterName] using hfound
  rw [htype, hname]
  constructor
  · rintro ⟨ht, hn⟩
    exact ⟨ht, hn⟩
  · intro hparameter
    exact ⟨hparameter.type, hparameter.name⟩

/-- The parameters of a list are read where each of its items is one. -/
theorem readsParameters_list {items : List Tree} {values : List Value}
    (h : ShowsEach store.Shows items values maps) :
    store.ReadsParameters values ↔ ∀ item ∈ items, item.IsParameter := by
  rw [readsParameters_iff]
  induction h with
  | nil => simp
  | cons hfirst _ ih =>
    rw [List.forall_mem_cons, List.forall_mem_cons, readParameter_iff hfirst.shown, ih]

/-- No scalar is a parameter. -/
theorem readsParameters_scalars (store : Store) (scalars : List Scalar) :
    store.ReadsParameters (scalars.map .scalar) ↔ scalars = [] := by
  rw [readsParameters_iff]
  cases scalars with
  | nil => simp
  | cons s scalars =>
    refine iff_of_false (fun hall => ?_) (by simp)
    obtain ⟨⟨_, htype⟩, -⟩ := hall (.scalar s) (by simp)
    cases s <;> cases htype

/-- The parameters that a field holds, if it is there. -/
def givenParameters (store : Store) : Option Value → Except DecodeError (List Value)
  | some given => parameter (store.iterate given)
  | none => .ok []

/-- **Parameters**, which may be missing. -/
theorem givenParameters_iff {tree : Option Tree} {v : Option Value}
    (h : Option.Rel store.Shown tree v) :
    (∃ parameters, store.givenParameters v = .ok parameters ∧ store.ReadsParameters parameters) ↔
      ∀ given, tree = some given → given.IsParameters := by
  obtain ⟨rfl, rfl⟩ | ⟨t, w, rfl, rfl, ⟨maps, hshows⟩⟩ := rel_cases h
  · exact iff_of_true ⟨[], rfl, readsParameters_iff.mpr (by simp)⟩ (by rintro _ ⟨⟩)
  have hgiven (values : List Value) (hvalues : store.iterate w = .ok values) :
      (∃ parameters, store.givenParameters (some w) = .ok parameters ∧
        store.ReadsParameters parameters) ↔ store.ReadsParameters values := by
    rw [givenParameters, hvalues]
    simp [parameter]
  -- what is not a list goes through scalars, and none of these is a parameter
  have hscalars (scalars : List Scalar) (hvalues : store.iterate w = .ok (scalars.map .scalar)) :
      (∃ parameters, store.givenParameters (some w) = .ok parameters ∧
        store.ReadsParameters parameters) ↔ scalars = [] :=
    (hgiven _ hvalues).trans (readsParameters_scalars store scalars)
  simp only [Option.some_inj, forall_eq']
  cases hshows with
  | scalar s =>
    cases s with
    | text s =>
      rw [hscalars (s.toList.map fun c => .text (String.singleton c)) (by rw [List.map_map]; rfl),
        List.map_eq_nil_iff, String.toList_eq_nil_iff, Tree.isParameters_text_iff]
    | bytes b =>
      rw [hscalars (b.map fun byte => .int byte.toNat) (by rw [List.map_map]; rfl),
        List.map_eq_nil_iff, Tree.isParameters_bytes_iff]
    | _ => exact iff_of_false (by rintro ⟨_, h, _⟩; cases h) (by rintro ⟨⟩)
  | list each => rw [hgiven _ rfl, readsParameters_list each, Tree.isParameters_list_iff]
  | @map trees ref _ each =>
    rw [hscalars ((store.entries ref).map (·.1)) (by rw [List.map_map]; rfl), List.map_eq_nil_iff,
      ← List.isEmpty_iff, each.isEmpty_eq, List.isEmpty_iff, Tree.isParameters_map_iff]

/-- Reading a signature from its fields. -/
def readFields (store : Store) (entries : Entries) : Except DecodeError Signature := do
  let parameters ← store.givenParameters (entries.field? "parameters")
  let types ← parameters.mapM store.readParameterType
  let names ← parameters.mapM store.readParameterName
  let result ← store.readType ((entries.field? "return_type").getD (.text "void"))
  return ⟨types, names, result⟩

/-- A map is read as a signature from its fields; without fields it counts as false, and they have
the same defaults. -/
theorem readSignature_map (store : Store) (ref : Nat) :
    store.readSignature (.map ref) = store.readFields (store.entries ref) := by
  by_cases hempty : store.entries ref = []
  · have hfalse : store.truthy (.map ref) = false := by
      rw [truthy, hempty]
      rfl
    rw [readSignature, hfalse, hempty]
    rfl
  · have htrue : store.truthy (.map ref) = true := by
      rw [truthy, Bool.not_eq_true', List.isEmpty_eq_false_iff]
      exact hempty
    rw [readSignature, if_neg (by simp [htrue])]
    simp only [readFields, givenParameters]
    cases (store.entries ref).field? "parameters" <;> rfl

/-- **Signatures**: `readSignature` succeeds where `Tree.IsSignature` holds. -/
theorem readSignature_iff (h : store.Shown tree v) :
    (∃ signature, store.readSignature v = .ok signature) ↔ tree.IsSignature := by
  by_cases htrue : store.truthy v = true
  · have hfalsy : tree.truthy ≠ false := by rw [← h.truthy_eq, htrue]; decide
    obtain ⟨maps, hshows⟩ := h
    cases hshows with
    | scalar s =>
      refine iff_of_false ?_ (by rintro (h | _); exact hfalsy h)
      rintro ⟨_, h⟩
      simp [readSignature, htrue, refuse] at h
    | list each =>
      refine iff_of_false ?_ (by rintro (h | _); exact hfalsy h)
      rintro ⟨_, h⟩
      simp [readSignature, htrue, refuse] at h
    | @map trees ref _ each =>
      have hresult := readType_iff (shown_getD (each.shown "return_type") (shown_scalar (.text "void")))
      have hread : (∃ signature, store.readSignature (.map ref) = .ok signature) ↔
          (∃ parameters, store.givenParameters ((store.entries ref).field? "parameters")
            = .ok parameters ∧ store.ReadsParameters parameters) ∧
          ∃ result, store.readType (((store.entries ref).field? "return_type").getD (.text "void"))
            = .ok result := by
        have heq := store.readSignature_map ref
        simp only [heq, readFields, bind_eq_ok_iff, ReadsParameters]
        constructor
        · rintro ⟨_, parameters, hgiven, types, htypes, names, hnames, result, hresult, -⟩
          exact ⟨⟨parameters, hgiven, ⟨types, htypes⟩, names, hnames⟩, result, hresult⟩
        · rintro ⟨⟨parameters, hgiven, ⟨types, htypes⟩, names, hnames⟩, result, hresult⟩
          exact ⟨_, parameters, hgiven, types, htypes, names, hnames, result, hresult, rfl⟩
      have hvoid : ((Tree.field? "return_type" (.map trees)).getD (.text "void")).IsType ↔
          ∀ given, Tree.under? "return_type" trees = some given → given.IsType := by
        rw [Tree.field?_map]
        cases Tree.under? "return_type" trees with
        | none => exact iff_of_true (.name .void) (by rintro _ ⟨⟩)
        | some given => simp
      rw [hread, givenParameters_iff (each.shown "parameters"), hresult, hvoid]
      constructor
      · rintro ⟨hparameters, hresult⟩
        exact .map hparameters hresult
      · rintro (h | ⟨hparameters, hresult⟩)
        · exact absurd h hfalsy
        · exact ⟨hparameters, hresult⟩
  · refine iff_of_true ?_ (.falsy (by rw [← h.truthy_eq]; simpa using htrue))
    exact ⟨{}, by simp [readSignature, htrue]⟩

/-! ## Heads -/

section Heads

variable {entries : Entries} (h : store.ShownFields tree entries)
include h

/-- **Bodies**: `readBody kind` succeeds where `Tree.HasBody kind` holds. -/
theorem readBody_iff (kind : ElementKind) (name : Value) :
    (∃ body, store.readBody kind name entries = .ok body) ↔ tree.HasBody kind := by
  cases kind with
  | global =>
    rw [Tree.HasBody, ← readConstant_iff (h.field "constant") name]
    refine exists_bind_iff fun constant _ => ?_
    obtain ⟨ht, hv⟩ | ⟨t, v, ht, hv, hshown⟩ := rel_cases (h "type")
    · rw [ht, hv]
      exact iff_of_false (by rintro ⟨_, h⟩; cases h) (by rintro ⟨_, h, _⟩; cases h)
    · simp only [ht, hv, Option.some_inj, exists_eq_left', ← readType_iff hshown]
      refine (exists_bind_iff fun type _ => ?_).trans (and_iff_left trivial)
      exact iff_of_true ⟨_, rfl⟩ trivial
  | enumValue =>
    rw [Tree.HasBody, ← readEnumValue_iff (h "value") name]
    refine (exists_bind_iff fun value _ => ?_).trans (and_iff_left trivial)
    exact iff_of_true ⟨_, rfl⟩ trivial
  | function =>
    rw [Tree.HasBody, ← readSignature_iff (h.field "signature")]
    refine (exists_bind_iff fun signature _ => ?_).trans (and_iff_left trivial)
    exact iff_of_true ⟨_, rfl⟩ trivial
  | _ => exact iff_of_true ⟨_, rfl⟩ trivial

/-- The kind that is named in the entries is that of the tree:
`tree.field? "kind" = some (.text kind.name)`. -/
theorem kind?_iff (kind : ElementKind) :
    entries.kind? = some kind ↔ tree.field? "kind" = some (.text kind.name) := by
  rw [← h.text_iff, ← Entries.field_eq_text_iff, Entries.kind?]
  simp only [Option.bind_eq_some_iff, Value.text?_eq_some_iff]
  constructor
  · rintro ⟨s, hs, hkind⟩
    rw [hs, ElementKind.name_of_ofName? hkind]
  · intro hs
    exact ⟨kind.name, hs, ElementKind.ofName?_name kind⟩

/-- **A head is read**, of a kind, exactly where the grammar has one:
`Tree.IsHead inherited tree kind`. -/
theorem readHead_iff {given : Option Value} {inherited : Tree}
    (hinherited : store.Shown inherited (Value.ofOption given)) (kind : ElementKind) :
    (∃ head, store.readHead entries given = .ok head ∧ head.kind = kind) ↔
      Tree.IsHead inherited tree kind := by
  have hname : store.truthy ((entries.field? "name").getD (Value.ofOption given))
      = (tree.nameOr inherited).truthy := (shown_getD (h "name") hinherited).truthy_eq
  have hread : (∃ head, store.readHead entries given = .ok head ∧ head.kind = kind) ↔
      entries.kind? = some kind ∧
      store.truthy ((entries.field? "name").getD (Value.ofOption given)) = true ∧
      (∃ flags, store.readFlags (entries.field "flags") = .ok flags) ∧
      ∃ body, store.readBody kind ((entries.field? "name").getD (Value.ofOption given)) entries
        = .ok body := by
    simp only [readHead_eq_ok_iff]
    constructor
    · rintro ⟨head, hreads, rfl⟩
      rw [← hreads.name]
      exact ⟨hreads.kind, hreads.named, ⟨_, hreads.flags⟩, ⟨_, hreads.body⟩⟩
    · rintro ⟨hkind, hnamed, ⟨flags, hflags⟩, body, hbody⟩
      obtain rfl : body.kind = kind := (sound_of_readBody hbody).2.1
      exact ⟨{ name := _, flags, body }, ⟨hkind, rfl, hnamed, hflags, rfl, hbody⟩, rfl⟩
  rw [hread, kind?_iff h, hname, readFlags_iff (h.field "flags"), readBody_iff h]
  constructor
  · rintro ⟨hkind, hname, hflags, hbody⟩
    exact { named := hkind, name := hname, flags := hflags, body := hbody }
  · intro hhead
    exact ⟨hhead.named, hhead.name, hhead.flags, hhead.body⟩

end Heads

end Store

end ModuleSurface
