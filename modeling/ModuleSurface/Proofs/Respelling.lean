import ModuleSurface.Proofs.AcceptedHeads
import ModuleSurface.Proofs.SameData

/-! # Other spellings of a head

A serialized element says some things in more than one way: a plain type is a word or a map, flags
come in any order, and what is left out has a default. Two maps respell each other where they differ
only in this. Which fields have a default, and which value it is, differs from field to field: nothing
in the place of a name, of a type or of a number is not the same as leaving it out.

* **`Store.RespellsType`** … **`Store.RespellsHead`** — other spellings of the parts of a head.
* **`Together`** — two steps that succeed or fail together.
* **`Element.Alike`** — elements that are the same but for where their data is kept.
* **`Store.Corresponds.readHead`** — other spellings of a head are read alike. -/

namespace ModuleSurface

/-! ## Results -/

/-- **Two steps succeed or fail together**, and the results are related. Causes of failures are not,
since the first of several faults need not be the same. -/
inductive Together {ε α β : Type} (R : α → β → Prop) : Except ε α → Except ε β → Prop
  | ok {a : α} {b : β} (related : R a b) : Together R (.ok a) (.ok b)
  | error (cause cause' : ε) : Together R (.error cause) (.error cause')

namespace Together

variable {ε α β γ δ : Type} {R : α → β → Prop} {Q : γ → δ → Prop}

/-- What goes on from related results. -/
theorem bind {x : Except ε α} {y : Except ε β} {f : α → Except ε γ} {g : β → Except ε δ}
    (h : Together R x y) (hf : ∀ a b, R a b → Together Q (f a) (g b)) :
    Together Q (x >>= f) (y >>= g) := by
  cases h with
  | ok related => exact hf _ _ related
  | error cause cause' => exact .error cause cause'

/-- A step for every item of related lists. -/
theorem mapM {f : α → Except ε γ} {g : β → Except ε δ} {items : List α} {others : List β}
    (h : List.Forall₂ R items others) (hf : ∀ a b, R a b → Together Q (f a) (g b)) :
    Together (List.Forall₂ Q) (items.mapM f) (others.mapM g) := by
  induction h with
  | nil => exact .ok .nil
  | cons hfirst _ ih =>
    rw [List.mapM_cons, List.mapM_cons]
    refine (hf _ _ hfirst).bind ?_
    intro b d hfirst
    refine ih.bind ?_
    intro results others hrest
    exact .ok (.cons hfirst hrest)

/-- Results that are related, with the steps that they are the results of. -/
theorem with_results {x : Except ε α} {y : Except ε β} (h : Together R x y) :
    Together (fun a b => R a b ∧ x = .ok a ∧ y = .ok b) x y := by
  cases h with
  | ok related => exact .ok ⟨related, rfl, rfl⟩
  | error cause cause' => exact .error cause cause'

end Together

/-! ## Elements -/

section Alike

variable (same : Value → Value → Prop)

/-- **Two types are alike**: of one kind, with references that are the same data. -/
structure ValueType.Alike (type type' : ValueType) : Prop where
  kind : type'.kind = type.kind
  classReference : Option.Rel same type.classReference type'.classReference
  signatureReference : Option.Rel same type.signatureReference type'.signatureReference

/-- **Two signatures are alike**: in their types, their names and their results. -/
structure Signature.Alike (signature signature' : Signature) : Prop where
  types : List.Forall₂ (Option.Rel (ValueType.Alike same)) signature.parameterTypes
    signature'.parameterTypes
  names : List.Forall₂ same signature.parameterNames signature'.parameterNames
  result : Option.Rel (ValueType.Alike same) signature.returnType signature'.returnType

/-- **Two member maps are alike**: keys that are alike lead to the same handles, in one order. -/
def Members.Alike (members members' : Members) : Prop :=
  List.Forall₂ (fun entry entry' => entry.1.Alike entry'.1 ∧ entry'.2 = entry.2) members members'

/-- **What two classes refer to is alike.** -/
structure ClassLinks.Alike (links links' : ClassLinks) : Prop where
  base : links'.base = links.base
  staticMembers : Option.Rel Members.Alike links.staticMembers links'.staticMembers
  instanceMembers : Option.Rel Members.Alike links.instanceMembers links'.instanceMembers

/-- **Two bodies are alike.** Numbers and handles are the same. -/
inductive Body.Alike : Body → Body → Prop
  | global {type type' : Option ValueType} (constant : Option Constant)
      (types : Option.Rel (ValueType.Alike same) type type') :
      Alike (.global type constant) (.global type' constant)
  | enumeration : Alike .enumeration .enumeration
  | enumValue (value : Scalar) : Alike (.enumValue value) (.enumValue value)
  | functionPrototype (instances : List Handle) :
      Alike (.functionPrototype instances) (.functionPrototype instances)
  | function {signature signature' : Signature} (signatures : signature.Alike same signature') :
      Alike (.function signature) (.function signature')
  | classPrototype (instances : List Handle) :
      Alike (.classPrototype instances) (.classPrototype instances)
  | classType {links links' : ClassLinks} (alike : links.Alike links') :
      Alike (.classType links) (.classType links')
  | interfaceType {links links' : ClassLinks} (alike : links.Alike links') :
      Alike (.interfaceType links) (.interfaceType links')
  | nameSpace : Alike .nameSpace .nameSpace

/-- **Two elements are alike**: names that are the same data, the same flags, members and bodies that
are alike. -/
structure Element.Alike (element element' : Element) : Prop where
  name : same element.name element'.name
  flags : element'.flags = element.flags
  members : Option.Rel Members.Alike element.members element'.members
  body : element.body.Alike same element'.body

variable {same}

/-- Bodies that are alike are of one kind: `body'.kind = body.kind`. -/
theorem Body.Alike.kind_eq {body body' : Body} (h : body.Alike same body') :
    body'.kind = body.kind := by
  cases h <;> rfl

end Alike

/-! ## Other spellings -/

/-- The name of a map: its own, or the one that it inherits. -/
def Entries.nameOr (entries : Entries) (inherited : Option Value) : Value :=
  (entries.field? "name").getD (Value.ofOption inherited)

namespace Store

section Spellings

variable (store store' : Store) (same : Value → Value → Prop)

/-- **The kind of a type and its references**, of a word that is the kind alone or of a map. -/
inductive SpellsType (store : Store) : Value → Value → Value → Value → Prop
  | word (s : String) : SpellsType store (.text s) (.text s) .null .null
  | map (ref : Nat) : SpellsType store (.map ref) ((store.entries ref).field "kind")
      ((store.entries ref).field "class") ((store.entries ref).field "signature")

/-- **Other spellings of a type**: a word or a map with the same kind and references. -/
inductive RespellsType (v v' : Value) : Prop
  | other (related : same v v') (plain : v.map? = none)
  | fields {kind reference signature kind' reference' signature' : Value}
      (spells : store.SpellsType v kind reference signature)
      (spells' : store'.SpellsType v' kind' reference' signature') (kinds : same kind kind')
      (references : same reference reference') (signatures : same signature signature')

/-- **Other spellings of flags**: the same names in any order, each as often as one likes. -/
inductive RespellsFlags : Value → Value → Prop
  | other {v v' : Value} (related : same v v') (plain : ∀ ref, v ≠ .list ref) : RespellsFlags v v'
  | names {ref ref' : Nat} (all : ∀ v ∈ store.items ref, ∃ v' ∈ store'.items ref', same v v')
      (all' : ∀ v' ∈ store'.items ref', ∃ v ∈ store.items ref, same v v') :
      RespellsFlags (.list ref) (.list ref')

/-- **Other spellings of a constant.** The sort of an integer may be left out. -/
inductive RespellsConstant : Value → Value → Prop
  | other {v v' : Value} (related : same v v') (plain : v.map? = none) : RespellsConstant v v'
  | map {ref ref' : Nat}
      (sorts : same (((store.entries ref).field? "kind").getD (.text ConstantKind.integer.name))
        (((store'.entries ref').field? "kind").getD (.text ConstantKind.integer.name)))
      (payloads : Option.Rel same ((store.entries ref).field? "value")
        ((store'.entries ref').field? "value")) :
      RespellsConstant (.map ref) (.map ref')

/-- **Other spellings of a parameter**: a map with its type in another spelling, and its name. -/
inductive RespellsParameter : Value → Value → Prop
  | other {p p' : Value} (related : same p p') (plain : p.map? = none) : RespellsParameter p p'
  | map {ref ref' : Nat}
      (types : Option.Rel (RespellsType store store' same) ((store.entries ref).field? "type")
        ((store'.entries ref').field? "type"))
      (names : Option.Rel same ((store.entries ref).field? "name")
        ((store'.entries ref').field? "name")) :
      RespellsParameter (.map ref) (.map ref')

/-- The parameters of a list or a pair; there are none where the field is left out. -/
def parameters? (store : Store) : Option Value → Option (List Value)
  | none => some []
  | some (.list ref) | some (.pair ref) => some (store.items ref)
  | some _ => none

/-- **Other spellings of parameters.** An empty list of them may be left out. -/
inductive RespellsParameters : Option Value → Option Value → Prop
  | other {v v' : Value} (related : same v v') (plain : store.parameters? (some v) = none) :
      RespellsParameters (some v) (some v')
  | items {given given' : Option Value} {items items' : List Value}
      (parameters : store.parameters? given = some items)
      (parameters' : store'.parameters? given' = some items')
      (each : List.Forall₂ (RespellsParameter store store' same) items items') :
      RespellsParameters given given'

/-- **The fields of a value** that may be left out: those of a map, and none of what counts as
false. -/
inductive SpellsFields (store : Store) : Value → Entries → Prop
  | falsy {v : Value} (false : store.truthy v = false) : SpellsFields store v []
  | map (ref : Nat) : SpellsFields store (.map ref) (store.entries ref)

/-- **Other spellings of a signature.** An empty one may be left out, and so may be that there is no
result. -/
inductive RespellsSignature (v v' : Value) : Prop
  | other (related : same v v') (plain : v.map? = none)
  | fields {entries entries' : Entries} (spells : store.SpellsFields v entries)
      (spells' : store'.SpellsFields v' entries')
      (parameters : RespellsParameters store store' same (entries.field? "parameters")
        (entries'.field? "parameters"))
      (results : RespellsType store store' same
        ((entries.field? "return_type").getD (.text "void"))
        ((entries'.field? "return_type").getD (.text "void")))

/-- **Other spellings of the body** of an element of a kind, as far as its map says it itself. A global
without a constant may say so, the payload of an enum value that is zero may be left out, and fields
of another kind do not matter. -/
def RespellsBody (entries entries' : Entries) : ElementKind → Prop
  | .global =>
    RespellsConstant store store' same (entries.field "constant") (entries'.field "constant") ∧
      Option.Rel (RespellsType store store' same) (entries.field? "type") (entries'.field? "type")
  | .enumValue =>
    same ((entries.field? "value").getD (.int 0)) ((entries'.field? "value").getD (.int 0))
  | .function =>
    RespellsSignature store store' same (entries.field "signature") (entries'.field "signature")
  | _ => True

/-- **Other spellings of a head**, where maps inherit names. A name that is the inherited one may be
left out, and an element without flags may say so. -/
structure RespellsHead (entries entries' : Entries) (inherited inherited' : Option Value) : Prop where
  kind : same (entries.field "kind") (entries'.field "kind")
  name : same (entries.nameOr inherited) (entries'.nameOr inherited')
  flags : RespellsFlags store store' same (entries.field "flags") (entries'.field "flags")
  body (kind : ElementKind) : entries.kind? = some kind →
    RespellsBody store store' same entries entries' kind

end Spellings

/-! ## Reading other spellings -/

variable {store store' : Store} {same : Value → Value → Prop} {v v' : Value}

namespace Corresponds

variable (h : Corresponds store store' same)

include h

/-- The null is the same data in both stores. -/
theorem null : same .null .null := h.scalar (.refl .null)

/-- What is there stands for nothing on both sides or on none, so `nonNull?` answers alike. -/
theorem nonNull? (hsame : same v v') : Option.Rel same v.nonNull? v'.nonNull? := by
  by_cases hnull : v = .null
  · have hnull' := (h.shape hsame).null_iff.mpr hnull
    rw [hnull, hnull']
    exact .none
  · have hnull' := mt (h.shape hsame).null_iff.mp hnull
    simp only [Value.nonNull?, Value.isNull, beq_iff_eq, hnull, hnull', if_false]
    exact .some hsame

/-! ### Types -/

/-- The same data names the same kind of types, or none. -/
theorem readTypeKind (hsame : same v v') :
    Together (· = ·) (Store.readTypeKind v) (Store.readTypeKind v') := by
  unfold Store.readTypeKind
  rw [(h.shape hsame).text?_eq]
  cases v.text?.bind PrimitiveKind.ofName? with
  | none => exact .error _ _
  | some kind => exact .ok rfl

omit h in
/-- A type is read from its kind and its references, whether it is a word or a map. -/
theorem readType_of_spells {kind reference signature : Value}
    (hspells : store.SpellsType v kind reference signature) : store.readType v = (do
      let kind ← Store.readTypeKind kind
      return some ⟨kind, reference.nonNull?, signature.nonNull?⟩) := by
  cases hspells <;> rfl

/-- **Other spellings of a type are read alike** by `readType`. -/
theorem readType (hspelling : RespellsType store store' same v v') :
    Together (Option.Rel (ValueType.Alike same)) (store.readType v) (store'.readType v') := by
  have hfields {v v' kind reference signature kind' reference' signature' : Value}
      (spells : store.SpellsType v kind reference signature)
      (spells' : store'.SpellsType v' kind' reference' signature') (kinds : same kind kind')
      (references : same reference reference') (signatures : same signature signature') :
      Together (Option.Rel (ValueType.Alike same)) (store.readType v) (store'.readType v') := by
    rw [readType_of_spells spells, readType_of_spells spells']
    refine (h.readTypeKind kinds).bind ?_
    rintro kind _ rfl
    exact .ok (.some ⟨rfl, h.nonNull? references, h.nonNull? signatures⟩)
  cases hspelling with
  | fields spells spells' kinds references signatures =>
    exact hfields spells spells' kinds references signatures
  | other related plain =>
    cases h.shape related with
    | @scalar s _ alike =>
      cases alike with
      | refl =>
        cases s with
        | null => exact .ok .none
        | text s => exact hfields (.word s) (.word s) related h.null h.null
        | _ => exact .error _ _
      | moment => exact .error _ _
    | map => cases plain
    | _ => exact .error _ _

/-! ### Flags -/

omit h in
/-- The flags of a list of names are those of any of the names, and there are none if one of the names
is unknown. -/
theorem readFlagNames_cases (items : List Value) (flags : Flags) :
    ((∃ v ∈ items, v.text?.bind Flags.ofName? = none) ∧
        ∃ cause, Store.readFlagNames items flags = .error cause) ∨
      (∀ v ∈ items, v.text?.bind Flags.ofName? ≠ none) ∧
        ∃ result, Store.readFlagNames items flags = .ok result ∧
          ∀ has : Flags → Bool, (∀ a b, has (a.union b) = (has a || has b)) →
            (has result = true ↔ has flags = true ∨
              ∃ v ∈ items, ∃ flag, v.text?.bind Flags.ofName? = some flag ∧ has flag = true) := by
  induction items generalizing flags with
  | nil => exact .inr ⟨by simp, flags, rfl, by simp⟩
  | cons v items ih =>
    rw [Store.readFlagNames]
    cases hflag : v.text?.bind Flags.ofName? with
    | none => exact .inl ⟨⟨v, List.mem_cons_self, hflag⟩, _, rfl⟩
    | some flag =>
      rcases ih (flags.union flag) with ⟨⟨w, hw, hnone⟩, hread⟩ | ⟨hall, result, hread, hhas⟩
      · exact .inl ⟨⟨w, List.mem_cons_of_mem v hw, hnone⟩, hread⟩
      · have hknown : v.text?.bind Flags.ofName? ≠ none := by
          rw [hflag]
          exact Option.some_ne_none flag
        refine .inr ⟨List.forall_mem_cons.mpr ⟨hknown, hall⟩, result, hread, ?_⟩
        intro has hunion
        rw [hhas has hunion, hunion, Bool.or_eq_true, or_assoc]
        simp [hflag]

/-- **Other spellings of flags are read alike** by `readFlags`. -/
theorem readFlags (hspelling : RespellsFlags store store' same v v') :
    Together (· = ·) (store.readFlags v) (store'.readFlags v') := by
  cases hspelling with
  | other related plain =>
    cases h.shape related with
    | @scalar s _ alike =>
      cases alike with
      | refl =>
        cases s with
        | null => exact .ok rfl
        | _ => exact .error _ _
      | moment => exact .error _ _
    | list => exact absurd rfl (plain _)
    | _ => exact .error _ _
  | @names ref ref' all all' =>
    have hflag {v v' : Value} (hsame : same v v') :
        v'.text?.bind Flags.ofName? = v.text?.bind Flags.ofName? := by
      rw [(h.shape hsame).text?_eq]
    rw [Store.readFlags, Store.readFlags]
    rcases readFlagNames_cases (store.items ref) .none with
      ⟨⟨v, hv, hnone⟩, cause, hread⟩ | ⟨hknown, result, hread, hhas⟩
    · -- an unknown name is among the others, too
      obtain ⟨v', hv', hsame⟩ := all v hv
      rcases readFlagNames_cases (store'.items ref') .none with ⟨-, cause', hread'⟩ | ⟨hknown', -⟩
      · rw [hread, hread']
        exact .error _ _
      · exact absurd ((hflag hsame).trans hnone) (hknown' v' hv')
    · rcases readFlagNames_cases (store'.items ref') .none with
        ⟨⟨v', hv', hnone⟩, -⟩ | ⟨-, result', hread', hhas'⟩
      · obtain ⟨v, hv, hsame⟩ := all' v' hv'
        exact absurd ((hflag hsame).symm.trans hnone) (hknown v hv)
      · -- every flag comes from a name that is among the others, too
        have hequal (has : Flags → Bool) (hunion : ∀ a b, has (a.union b) = (has a || has b)) :
            has result = has result' := by
          rw [Bool.eq_iff_iff, hhas has hunion, hhas' has hunion]
          constructor
          · rintro (hnone | ⟨v, hv, flag, hname, hhas⟩)
            · exact .inl hnone
            · obtain ⟨v', hv', hsame⟩ := all v hv
              exact .inr ⟨v', hv', flag, (hflag hsame).trans hname, hhas⟩
          · rintro (hnone | ⟨v', hv', flag, hname, hhas⟩)
            · exact .inl hnone
            · obtain ⟨v, hv, hsame⟩ := all' v' hv'
              exact .inr ⟨v, hv, flag, (hflag hsame).symm.trans hname, hhas⟩
        have hcompiled := hequal Flags.compiled fun _ _ => rfl
        have hinlined := hequal Flags.inlined fun _ _ => rfl
        have habstract := hequal Flags.abstract fun _ _ => rfl
        rw [hread, hread']
        refine .ok ?_
        cases result
        cases result'
        simp_all

/-! ### Payloads -/

/-- The same data has the same payload: `Store.readPayload kind v' = Store.readPayload kind v`. -/
theorem readPayload_eq (hsame : same v v') (kind : ConstantKind) :
    Store.readPayload kind v' = Store.readPayload kind v := by
  unfold Store.readPayload
  rw [(h.shape hsame).toInt_eq, (h.shape hsame).toDouble_eq]

/-- **Other spellings of a constant are read alike** by `readConstant`, whatever the names of their
globals. -/
theorem readConstant (hspelling : RespellsConstant store store' same v v') (name name' : Value) :
    Together (· = ·) (store.readConstant name v) (store'.readConstant name' v') := by
  cases hspelling with
  | other related plain =>
    cases h.shape related with
    | @scalar s _ alike =>
      cases alike with
      | refl =>
        cases s with
        | null => exact .ok rfl
        | _ => exact .error _ _
      | moment => exact .error _ _
    | map => cases plain
    | _ => exact .error _ _
  | @map ref ref' sorts payloads =>
    have hthere (r : Nat) : ¬ (Value.map r).isNull = true := Bool.false_ne_true
    unfold Store.readConstant
    rw [if_neg (hthere ref), if_neg (hthere ref')]
    simp only
    rw [(h.shape sorts).text?_eq]
    split
    · exact .error _ _
    · obtain ⟨hmissing, hmissing'⟩ | ⟨payload, payload', hgiven, hgiven', hsame⟩ := rel_cases payloads
      · rw [hmissing, hmissing']
        exact .error _ _
      · rw [hgiven, hgiven']
        simp only [h.readPayload_eq hsame]
        split
        · exact .ok rfl
        · split
          · exact .error _ _
          · exact .error _ _

/-- **Other spellings of the payload** of an enum value are read alike. -/
theorem readEnumValue {given given' : Option Value}
    (hsame : same (given.getD (.int 0)) (given'.getD (.int 0))) (name name' : Value) :
    Together (· = ·) (Store.readEnumValue name given) (Store.readEnumValue name' given') := by
  unfold Store.readEnumValue
  rw [(h.shape hsame).toInt_eq]
  split
  · exact .ok rfl
  · split
    · exact .error _ _
    · exact .error _ _

/-! ### Signatures -/

/-- The same data gives the same fields of it, or none. -/
theorem readParameterName {p p' : Value} (hspelling : RespellsParameter store store' same p p') :
    Together same (store.readParameterName p) (store'.readParameterName p') := by
  cases hspelling with
  | other related plain =>
    cases h.shape related with
    | @scalar s _ alike =>
      cases alike with
      | refl => cases s <;> exact .error _ _
      | moment => exact .error _ _
    | map => cases plain
    | _ => exact .error _ _
  | map types names =>
    rw [Store.readParameterName, Store.readParameterName, parameterField, parameterField]
    obtain ⟨hmissing, hmissing'⟩ | ⟨name, name', hgiven, hgiven', hsame⟩ := rel_cases names
    · rw [hmissing, hmissing']
      exact .error _ _
    · rw [hgiven, hgiven']
      exact .ok hsame

/-- The types of parameters are read alike. -/
theorem readParameterType {p p' : Value} (hspelling : RespellsParameter store store' same p p') :
    Together (Option.Rel (ValueType.Alike same)) (store.readParameterType p)
      (store'.readParameterType p') := by
  cases hspelling with
  | other related plain =>
    cases h.shape related with
    | @scalar s _ alike =>
      cases alike with
      | refl => cases s <;> exact .error _ _
      | moment => exact .error _ _
    | map => cases plain
    | _ => exact .error _ _
  | map types names =>
    rw [Store.readParameterType, Store.readParameterType, parameterField, parameterField]
    obtain ⟨hmissing, hmissing'⟩ | ⟨type, type', hgiven, hgiven', hspelling⟩ := rel_cases types
    · rw [hmissing, hmissing']
      exact .error _ _
    · rw [hgiven, hgiven']
      exact h.readType hspelling

/-- **Other spellings of parameters** are gone through alike. What is no list and no pair is gone
through in scalars, if at all. -/
theorem givenParameters {given given' : Option Value}
    (hspelling : RespellsParameters store store' same given given') :
    Together (List.Forall₂ (RespellsParameter store store' same)) (store.givenParameters given)
      (store'.givenParameters given') := by
  have hscalar {s s' : Scalar} (halike : s.Alike s') :
      RespellsParameter store store' same (.scalar s) (.scalar s') :=
    .other (h.scalar halike) rfl
  have hitems {store : Store} {given : Option Value} {items : List Value}
      (hparameters : store.parameters? given = some items) :
      store.givenParameters given = .ok items := by
    unfold parameters? at hparameters
    split at hparameters <;> cases hparameters <;> rfl
  cases hspelling with
  | items parameters parameters' each =>
    rw [hitems parameters, hitems parameters']
    exact .ok each
  | other related plain =>
    cases h.shape related with
    | @scalar s _ alike =>
      cases alike with
      | refl =>
        cases s with
        | text s =>
          refine .ok (List.forall₂_same.mpr ?_)
          intro p hp
          obtain ⟨c, -, rfl⟩ := List.mem_map.mp hp
          exact hscalar (.refl _)
        | bytes b =>
          refine .ok (List.forall₂_same.mpr ?_)
          intro p hp
          obtain ⟨byte, -, rfl⟩ := List.mem_map.mp hp
          exact hscalar (.refl _)
        | _ => exact .error _ _
      | moment => exact .error _ _
    | list | pair => cases plain
    | map entries =>
      refine .ok (List.forall₂_map_left_iff.mpr (List.forall₂_map_right_iff.mpr ?_))
      exact entries.imp fun entry entry' hentry => hscalar hentry.1
    | set members =>
      refine .ok (List.forall₂_map_left_iff.mpr (List.forall₂_map_right_iff.mpr ?_))
      exact members.imp fun entry entry' halike => hscalar halike

omit h in
/-- A signature is read from its fields, of which what counts as false has none:
`store.readSignature v = store.readFields entries`. -/
theorem readSignature_of_spells {entries : Entries} (hspells : store.SpellsFields v entries) :
    store.readSignature v = store.readFields entries := by
  cases hspells with
  | falsy hfalse =>
    unfold Store.readSignature
    rw [hfalse]
    rfl
  | map ref => exact store.readSignature_map ref

/-- **Other spellings of a signature are read alike** by `readSignature`. -/
theorem readSignature (hspelling : RespellsSignature store store' same v v') :
    Together (Signature.Alike same) (store.readSignature v) (store'.readSignature v') := by
  cases hspelling with
  | fields spells spells' parameters results =>
    rw [readSignature_of_spells spells, readSignature_of_spells spells']
    refine (h.givenParameters parameters).bind ?_
    intro items items' hitems
    refine (Together.mapM hitems fun p p' => h.readParameterType).bind ?_
    intro types types' htypes
    refine (Together.mapM hitems fun p p' => h.readParameterName).bind ?_
    intro names names' hnames
    refine (h.readType results).bind ?_
    intro result result' hresult
    exact .ok ⟨htypes, hnames, hresult⟩
  | other related plain =>
    unfold Store.readSignature
    rw [(h.shape related).truthy_eq]
    by_cases htrue : store.truthy v = true
    · rw [if_neg (by simp [htrue]), if_neg (by simp [htrue])]
      cases h.shape related with
      | map => cases plain
      | _ => exact .error _ _
    · rw [if_pos (by simpa using htrue), if_pos (by simpa using htrue)]
      exact .ok ⟨.nil, .nil, .some ⟨rfl, .none, .none⟩⟩

/-! ### Heads -/

variable {entries entries' : Entries}

/-- **Other spellings of a body are read alike** by `readBody`. -/
theorem readBody {kind : ElementKind}
    (hspelling : RespellsBody store store' same entries entries' kind) (name name' : Value) :
    Together (Body.Alike same) (store.readBody kind name entries)
      (store'.readBody kind name' entries') := by
  cases kind with
  | global =>
    obtain ⟨hconstant, htype⟩ := hspelling
    refine (h.readConstant hconstant name name').bind ?_
    rintro constant _ rfl
    obtain ⟨hmissing, hmissing'⟩ | ⟨type, type', hgiven, hgiven', hspelling⟩ := rel_cases htype
    · rw [hmissing, hmissing']
      exact .error _ _
    · rw [hgiven, hgiven']
      refine (h.readType hspelling).bind ?_
      intro type type' halike
      exact .ok (.global constant halike)
  | enumValue =>
    refine (h.readEnumValue hspelling name name').bind ?_
    rintro value _ rfl
    exact .ok (.enumValue value)
  | function =>
    refine (h.readSignature hspelling).bind ?_
    intro signature signature' halike
    exact .ok (.function halike)
  | enumeration => exact .ok .enumeration
  | functionPrototype => exact .ok (.functionPrototype [])
  | classPrototype => exact .ok (.classPrototype [])
  | classType => exact .ok (.classType ⟨rfl, .none, .none⟩)
  | interfaceType => exact .ok (.interfaceType ⟨rfl, .none, .none⟩)
  | nameSpace => exact .ok .nameSpace

/-- **Other spellings of a head are read alike** by `readHead`. -/
theorem readHead {inherited inherited' : Option Value}
    (hspelling : RespellsHead store store' same entries entries' inherited inherited') :
    Together (Element.Alike same) (store.readHead entries inherited)
      (store'.readHead entries' inherited') := by
  have hname : store'.truthy ((entries'.field? "name").getD (Value.ofOption inherited'))
      = store.truthy ((entries.field? "name").getD (Value.ofOption inherited)) :=
    (h.shape hspelling.name).truthy_eq
  unfold Store.readHead
  simp only [(h.shape hspelling.kind).text?_eq]
  cases hkind : (entries.field "kind").text?.bind ElementKind.ofName? with
  | none => exact .error _ _
  | some kind =>
    simp only [hname]
    split
    · exact .error _ _
    · refine (h.readFlags hspelling.flags).bind ?_
      rintro flags _ rfl
      refine (h.readBody (hspelling.body kind hkind) _ _).bind ?_
      intro body body' hbody
      exact .ok ⟨hspelling.name, rfl, .none, hbody⟩

end Corresponds

end Store

end ModuleSurface
