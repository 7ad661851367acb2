import ModuleSurface.Proofs.NestedReading
import ModuleSurface.Proofs.RespelledDocuments

/-! # Reading other spellings of a document

Two documents that respell each other are read in step: whenever one of them comes to a map, the other
one comes to the map at the same place, and either both know it already, under one handle, or both
make it an element. So both are read or none is, and the elements are alike handle by handle.

* **`Document.Aligned`** — what has been read of the two is alike.
* **`Reading.Lockstep`** — steps of reading that keep this.
* **`Document.Respells.ofDocument`** — other spellings of a document are read alike. -/

namespace ModuleSurface

/-- **Two graphs are alike**: what they keep corresponds, and so do their exports, their addressing
widths and their elements, handle by handle. -/
structure Graph.Alike (same : Value → Value → Prop) (graph graph' : Graph) : Prop where
  corresponds : graph.store.Corresponds graph'.store same
  exports : Members.Alike graph.exports graph'.exports
  is64Bit : graph'.is64Bit = graph.is64Bit
  size : graph'.size = graph.size
  element (h : Handle) : (graph.element h).Alike same (graph'.element h)

/-- **What has been read of two documents is alike**: the elements handle by handle, and maps at the
same place are known under one handle or both unknown. -/
structure Document.Aligned (document document' : Document) (same : Value → Value → Prop)
    (progress progress' : Progress) : Prop where
  size : progress'.elements.size = progress.elements.size
  element (h : Handle) : (progress.element h).Alike same (progress'.element h)
  known {r r' : Nat} {inherited inherited' : Option Value} :
    document.SamePlace document' (.map r, inherited) (.map r', inherited') →
      progress'.known.lookup r' = progress.known.lookup r

namespace Reading

/-! ## Steps in step -/

variable {α β γ δ : Type} {aligned : Progress → Progress → Prop} {R : α → β → Prop}
  {Q : γ → δ → Prop}

/-- **Two steps of reading are taken together**: from what is aligned they succeed or fail together,
and what they give is related and aligned again. -/
def Lockstep (aligned : Progress → Progress → Prop) (R : α → β → Prop) (x : Reading α)
    (y : Reading β) : Prop :=
  ∀ before before', aligned before before' →
    Together (fun read read' => R read.1 read'.1 ∧ aligned read.2 read'.2) (x before) (y before')

namespace Lockstep

/-- Steps that do nothing go on in step where their results are related. -/
theorem pure {a : α} {b : β} (h : R a b) :
    Lockstep aligned R (Pure.pure a : Reading α) (Pure.pure b) := by
  intro before before' haligned
  exact .ok ⟨h, haligned⟩

/-- Steps that fail go on in step, whatever they fail for. -/
theorem throw (cause cause' : DecodeError) :
    Lockstep aligned R (MonadExcept.throw cause : Reading α)
      (MonadExcept.throw cause' : Reading β) := by
  intro before before' _
  exact .error cause cause'

/-- A step after a step goes on in step when both do. -/
theorem bind {x : Reading α} {y : Reading β} {f : α → Reading γ} {g : β → Reading δ}
    (h : Lockstep aligned R x y) (hf : ∀ a b, R a b → Lockstep aligned Q (f a) (g b)) :
    Lockstep aligned Q (x >>= f) (y >>= g) := by
  intro before before' haligned
  rw [readBind_apply, readBind_apply]
  refine (h before before' haligned).bind ?_
  rintro ⟨a, middle⟩ ⟨b, middle'⟩ ⟨hrelated, hmiddle⟩
  exact hf a b hrelated middle middle' hmiddle

/-- A step that needs nothing of what has been read. -/
theorem lift {x : Except DecodeError α} {y : Except DecodeError β} (h : Together R x y) :
    Lockstep aligned R (liftM x : Reading α) (liftM y : Reading β) := by
  intro before before' haligned
  rw [lift_apply, lift_apply]
  refine h.bind ?_
  intro a b hrelated
  exact .ok ⟨hrelated, haligned⟩

end Lockstep

/-- Two readers are taken together on calls, one after the other. -/
def InStep (aligned : Progress → Progress → Prop) (reader reader' : ElementReader)
    (calls calls' : List (Value × Option Value)) : Prop :=
  ∀ pair ∈ calls.zip calls', Lockstep aligned (· = ·) (reader pair.1.1 pair.1.2)
    (reader' pair.2.1 pair.2.2)

namespace InStep

variable {reader reader' : ElementReader} {calls calls' : List (Value × Option Value)}

/-- Readers are in step on calls when they are on the first one and on the others. -/
theorem cons_iff {call call' : Value × Option Value} :
    InStep aligned reader reader' (call :: calls) (call' :: calls') ↔
      Lockstep aligned (· = ·) (reader call.1 call.2) (reader' call'.1 call'.2) ∧
        InStep aligned reader reader' calls calls' := by
  rw [InStep, List.zip_cons_cons, List.forall_mem_cons]
  rfl

/-- Readers are in step on calls behind others when they are on both. -/
theorem append_iff {others others' : List (Value × Option Value)}
    (hlength : calls.length = calls'.length) :
    InStep aligned reader reader' (calls ++ others) (calls' ++ others') ↔
      InStep aligned reader reader' calls calls' ∧ InStep aligned reader reader' others others' := by
  rw [InStep, List.zip_append hlength, List.forall_mem_append]
  rfl

end InStep

end Reading

namespace Document.Respells

open Reading (Lockstep InStep)

variable {document document' : Document} {same : Value → Value → Prop}

/-! ## Alignment -/

section Alignment

variable {before before' : Progress} {head head' : Element}

/-- What is read of one document when nothing has been read of either. -/
theorem aligned_empty (h : document.Respells document' same) :
    document.Aligned document' same {} {} where
  size := rfl
  element _ := ⟨h.corresponds.null, rfl, .none, .nameSpace⟩
  known _ := rfl

/-- **Two maps at the same place are made elements.** -/
theorem aligned_allocated (hunshared : document.Unshared) (hunshared' : document'.Unshared)
    (haligned : document.Aligned document' same before before') {r r' : Nat}
    {inherited inherited' : Option Value}
    (hplace : document.SamePlace document' (.map r, inherited) (.map r', inherited'))
    (halike : head.Alike same head') :
    document.Aligned document' same (before.allocated r head) (before'.allocated r' head') where
  size := by
    rw [Progress.allocated, Progress.allocated, Array.size_push, Array.size_push, haligned.size]
  element h := by
    rw [Progress.element_allocated, Progress.element_allocated, haligned.size]
    split
    · exact halike
    · exact haligned.element h
  known {s s' given given'} hother := by
    -- places are matched one to one, so both maps are looked up or both others are
    have hiff : s' = r' ↔ s = r := by
      constructor
      · rintro rfl
        cases hplace.symm.unique hunshared' hother.symm rfl rfl
        rfl
      · rintro rfl
        cases hplace.unique hunshared hother rfl rfl
        rfl
    rw [Progress.allocated, Progress.allocated, List.lookup_cons, List.lookup_cons, haligned.size]
    by_cases hs : s = r
    · rw [beq_iff_eq.mpr hs, beq_iff_eq.mpr (hiff.mpr hs)]
    · rw [beq_false_of_ne hs, beq_false_of_ne (mt hiff.mp hs)]
      exact haligned.known hother

/-- Elements are replaced that are alike. -/
theorem aligned_replaced (haligned : document.Aligned document' same before before') (h : Handle)
    (halike : head.Alike same head') :
    document.Aligned document' same (before.replaced h head) (before'.replaced h head') where
  size := by
    rw [Progress.replaced, Progress.replaced, Array.size_setIfInBounds, Array.size_setIfInBounds,
      haligned.size]
  element a := by
    by_cases hsize : h < before.elements.size
    · rw [Progress.element_replaced hsize, Progress.element_replaced (haligned.size ▸ hsize)]
      split
      · exact halike
      · exact haligned.element a
    · -- out of bounds nothing is replaced
      have hkept (progress : Progress) (element : Element) (hout : ¬ h < progress.elements.size) :
          progress.replaced h element = progress := by
        rw [Progress.replaced, Array.setIfInBounds, dif_neg hout]
      rw [hkept before head hsize, hkept before' head' (haligned.size ▸ hsize)]
      exact haligned.element a
  known := haligned.known

/-- Making two maps at the same place elements keeps what is aligned, and gives one handle. -/
theorem allocate (hunshared : document.Unshared) (hunshared' : document'.Unshared) {r r' : Nat}
    {inherited inherited' : Option Value}
    (hplace : document.SamePlace document' (.map r, inherited) (.map r', inherited'))
    (halike : head.Alike same head') :
    Lockstep (document.Aligned document' same) (· = ·) (Reading.allocate r head)
      (Reading.allocate r' head') := by
  intro before before' haligned
  exact .ok ⟨haligned.size.symm, aligned_allocated hunshared hunshared' haligned hplace halike⟩

/-- Replacing an element by elements that are alike keeps what is aligned. -/
theorem replace (h : Handle) (halike : head.Alike same head') :
    Lockstep (document.Aligned document' same) (· = ·) (Reading.replace h head)
      (Reading.replace h head') := by
  intro before before' haligned
  exact .ok ⟨rfl, aligned_replaced haligned h halike⟩

end Alignment

/-! ## What is read of a map -/

variable {reader reader' : ElementReader}

/-- The kind of an element that has been read is the same on both sides. -/
theorem checkSort (sort : InstanceSort) {h h' : Handle} (heq : h = h') :
    Lockstep (document.Aligned document' same) (· = ·) (Reading.checkSort sort h)
      (Reading.checkSort sort h') := by
  subst heq
  have helement : Lockstep (document.Aligned document' same) (Element.Alike same)
      (Reading.element h) (Reading.element h) := by
    intro before before' haligned
    exact .ok ⟨haligned.element h, haligned⟩
  refine helement.bind ?_
  intro element element' halike
  have hkind : element'.kind = element.kind := halike.body.kind_eq
  rw [hkind]
  split
  · exact .pure rfl
  · exact .throw _ _

/-- **Entries** under keys that are alike are read in step. -/
theorem readEntries {entries entries' : Entries}
    (hkeys : List.Forall₂ (fun entry entry' : Scalar × Value => entry.1.Alike entry'.1) entries
      entries')
    (hcalls : InStep (document.Aligned document' same) reader reader'
      (entries.map fun entry => (entry.2, some (.scalar entry.1)))
      (entries'.map fun entry => (entry.2, some (.scalar entry.1)))) :
    Lockstep (document.Aligned document' same) Members.Alike (Store.readEntries reader entries)
      (Store.readEntries reader' entries') := by
  induction hkeys with
  | nil => exact .pure .nil
  | cons hkey _ ih =>
    obtain ⟨hfirst, hrest⟩ := InStep.cons_iff.mp hcalls
    refine hfirst.bind ?_
    intro h h' heq
    refine (ih hrest).bind ?_
    intro members members' halike
    exact .pure (.cons ⟨hkey, heq.symm⟩ halike)

section Parts

variable {store store' : Store} (hc : store.Corresponds store' same) {v v' : Value}

include hc

/-- Other spellings of members call as often. -/
theorem length_memberCalls (hspelling : store.RespellsMembers store' same v v') :
    (store.memberCalls v).length = (store'.memberCalls v').length := by
  cases hspelling with
  | other related plain =>
    cases hc.shape related with
    | map => cases plain
    | _ => rfl
  | map keys => simpa [Store.memberCalls] using keys.length_eq

/-- **Other spellings of members** are read in step, calling on `memberCalls` of both. -/
theorem readMembers (hspelling : store.RespellsMembers store' same v v')
    (hcalls : InStep (document.Aligned document' same) reader reader' (store.memberCalls v)
      (store'.memberCalls v')) :
    Lockstep (document.Aligned document' same) (Option.Rel Members.Alike)
      (store.readMembers reader v) (store'.readMembers reader' v') := by
  cases hspelling with
  | map keys =>
    refine (readEntries keys hcalls).bind ?_
    intro members members' halike
    exact .pure (.some halike)
  | other related plain =>
    cases hc.shape related with
    | @scalar s _ alike =>
      cases alike with
      | refl =>
        cases s with
        | null => exact .pure .none
        | _ => exact .throw _ _
      | moment => exact .throw _ _
    | map => cases plain
    | _ => exact .throw _ _

omit hc in
/-- The instances of lists of one length are read in step. -/
theorem readInstanceList (sort : InstanceSort) {inherited inherited' : Option Value}
    {items items' : List Value} (hlength : items.length = items'.length)
    (hcalls : InStep (document.Aligned document' same) reader reader'
      (items.map fun item => (item, inherited)) (items'.map fun item => (item, inherited'))) :
    Lockstep (document.Aligned document' same) (· = ·)
      (Store.readInstanceList reader sort inherited items)
      (Store.readInstanceList reader' sort inherited' items') := by
  induction items generalizing items' with
  | nil =>
    rw [List.length_eq_zero_iff.mp hlength.symm]
    exact .pure rfl
  | cons v items ih =>
    obtain _ | ⟨v', items'⟩ := items'
    · cases hlength
    obtain ⟨hfirst, hrest⟩ := InStep.cons_iff.mp hcalls
    have hinstance : Lockstep (document.Aligned document' same) (· = ·)
        (Store.readInstance reader sort inherited v)
        (Store.readInstance reader' sort inherited' v') := by
      refine hfirst.bind ?_
      intro h h' heq
      exact checkSort sort heq
    refine hinstance.bind ?_
    intro h h' heq
    refine (ih (Nat.succ_injective hlength) hrest).bind ?_
    rintro instances _ rfl
    subst heq
    exact .pure rfl

omit hc in
/-- What spells items is read as its items, one after the other, and calls on each of them. -/
theorem readInstances_of_spells {items : List Value} (hspells : store.SpellsItems v items)
    (reader : ElementReader) (sort : InstanceSort) (name : Value) :
    store.readInstances reader sort name v = Store.readInstanceList reader sort (some name) items ∧
      store.instanceCalls name v = items.map fun item => (item, some name) := by
  have hfalsy {v : Value} (hfalse : store.truthy v = false) :
      store.readInstances reader sort name v = Store.readInstanceList reader sort (some name) [] ∧
        store.instanceCalls name v = [] := by
    unfold Store.readInstances Store.instanceCalls
    rw [hfalse]
    exact ⟨rfl, rfl⟩
  cases hspells with
  | falsy hfalse => exact hfalsy hfalse
  | list ref =>
    by_cases htrue : store.truthy (.list ref) = true
    · unfold Store.readInstances Store.instanceCalls
      rw [htrue]
      exact ⟨rfl, rfl⟩
    · -- an empty list counts as false
      have hempty : store.items ref = [] := by simpa [Store.truthy] using htrue
      rw [hempty]
      exact hfalsy (by simpa using htrue)

/-- **Other spellings of instances** are read in step, calling on `instanceCalls` of both. -/
theorem readInstances (hspelling : store.RespellsInstances store' same v v') (sort : InstanceSort)
    {name name' : Value}
    (hcalls : InStep (document.Aligned document' same) reader reader'
      (store.instanceCalls name v) (store'.instanceCalls name' v')) :
    Lockstep (document.Aligned document' same) (· = ·) (store.readInstances reader sort name v)
      (store'.readInstances reader' sort name' v') := by
  have hitems {items items' : List Value} (spells : store.SpellsItems v items)
      (spells' : store'.SpellsItems v' items') (hlength : items.length = items'.length) :
      Lockstep (document.Aligned document' same) (· = ·) (store.readInstances reader sort name v)
        (store'.readInstances reader' sort name' v') := by
    obtain ⟨hread, hcalled⟩ := readInstances_of_spells spells reader sort name
    obtain ⟨hread', hcalled'⟩ := readInstances_of_spells spells' reader' sort name'
    rw [hread, hread']
    rw [hcalled, hcalled'] at hcalls
    exact readInstanceList sort hlength hcalls
  cases hspelling with
  | items spells spells' length => exact hitems spells spells' length
  | other related plain =>
    have htruthy := (hc.shape related).truthy_eq
    by_cases htrue : store.truthy v = true
    · unfold Store.readInstances
      rw [htruthy, htrue]
      cases hc.shape related with
      | list => exact absurd rfl (plain _)
      | _ => exact .throw _ _
    · have hfalse : store.truthy v = false := by simpa using htrue
      exact hitems (.falsy hfalse) (.falsy (htruthy.trans hfalse)) rfl

omit hc in
/-- A base calls as often on both sides:
`(Store.baseCalls v).length = (Store.baseCalls v').length`. -/
theorem length_baseCalls (hnull : v' = .null ↔ v = .null) :
    (Store.baseCalls v).length = (Store.baseCalls v').length := by
  unfold Store.baseCalls Value.nonNull? Value.isNull
  by_cases hv : v = .null
  · simp [hv, hnull.mpr hv]
  · simp [hv, mt hnull.mp hv]

omit hc in
/-- **A base**, which is there on both sides or on none. -/
theorem readBase (hnull : v' = .null ↔ v = .null)
    (hcalls : InStep (document.Aligned document' same) reader reader' (Store.baseCalls v)
      (Store.baseCalls v')) :
    Lockstep (document.Aligned document' same) (· = ·) (Store.readBase reader v)
      (Store.readBase reader' v') := by
  by_cases hv : v = .null
  · rw [hv, hnull.mpr hv]
    exact .pure rfl
  · have hgiven {v : Value} (hv : v ≠ .null) : v.nonNull? = some v := by
      simp [Value.nonNull?, Value.isNull, hv]
    have hv' := mt hnull.mp hv
    unfold Store.baseCalls at hcalls
    unfold Store.readBase
    rw [hgiven hv, hgiven hv'] at hcalls ⊢
    have hinstance : Lockstep (document.Aligned document' same) (· = ·)
        (Store.readInstance reader .classLike none v)
        (Store.readInstance reader' .classLike none v') := by
      refine (InStep.cons_iff.mp hcalls).1.bind ?_
      intro h h' heq
      exact checkSort .classLike heq
    refine hinstance.bind ?_
    rintro base _ rfl
    exact .pure rfl

/-- **Other spellings of what a body refers to** are read in step, calling on `linkCalls` of both.
-/
theorem readLinks {entries entries' : Entries} {body body' : Body}
    (hspelling : store.RespellsLinks store' same entries entries' body.kind)
    (halike : body.Alike same body') {name name' : Value}
    (hcalls : InStep (document.Aligned document' same) reader reader'
      (store.linkCalls name entries body.kind) (store'.linkCalls name' entries' body.kind)) :
    Lockstep (document.Aligned document' same) (Body.Alike same)
      (store.readLinks reader name entries body) (store'.readLinks reader' name' entries' body') := by
  have hclass (hspelling : store.RespellsLinks store' same entries entries' .classType)
      (hcalls : InStep (document.Aligned document' same) reader reader'
        (store.linkCalls name entries .classType) (store'.linkCalls name' entries' .classType)) :
      Lockstep (document.Aligned document' same) ClassLinks.Alike
        (store.readClassLinks reader entries) (store'.readClassLinks reader' entries') := by
    obtain ⟨hbase, hstatics, hmembers⟩ := hspelling
    have hbases := length_baseCalls hbase
    have hfirst : (Store.baseCalls (entries.field "base")
        ++ store.memberCalls (entries.field "static_members")).length
        = (Store.baseCalls (entries'.field "base")
          ++ store'.memberCalls (entries'.field "static_members")).length := by
      rw [List.length_append, List.length_append, hbases, length_memberCalls hc hstatics]
    obtain ⟨hcalls, hcallsMembers⟩ := (InStep.append_iff hfirst).mp hcalls
    obtain ⟨hcallsBase, hcallsStatics⟩ := (InStep.append_iff hbases).mp hcalls
    rw [Store.readClassLinks_eq, Store.readClassLinks_eq]
    refine (readBase hbase hcallsBase).bind ?_
    intro base base' heq
    refine (readMembers hc hstatics hcallsStatics).bind ?_
    intro statics statics' hstatics
    refine (readMembers hc hmembers hcallsMembers).bind ?_
    intro members members' hmembers
    exact .pure ⟨heq.symm, hstatics, hmembers⟩
  cases halike with
  | functionPrototype =>
    refine (readInstances hc hspelling .function hcalls).bind ?_
    rintro instances _ rfl
    exact .pure (.functionPrototype instances)
  | classPrototype =>
    refine (readInstances hc hspelling .classLike hcalls).bind ?_
    rintro instances _ rfl
    exact .pure (.classPrototype instances)
  | classType =>
    refine (hclass hspelling hcalls).bind ?_
    intro links links' halike
    exact .pure (.classType halike)
  | interfaceType =>
    refine (hclass hspelling hcalls).bind ?_
    intro links links' halike
    exact .pure (.interfaceType halike)
  | global constant types => exact .pure (.global constant types)
  | enumeration => exact .pure .enumeration
  | enumValue value => exact .pure (.enumValue value)
  | function signatures => exact .pure (.function signatures)
  | nameSpace => exact .pure .nameSpace

end Parts

/-! ## Elements and documents -/

variable (h : document.Respells document' same) (hunshared : document.Unshared)
  (hunshared' : document'.Unshared)

include h hunshared hunshared'

/-- **Two maps at the same place are made elements** by readers that go on in step. -/
theorem construct {r r' : Nat} {inherited inherited' : Option Value}
    (hplace : document.SamePlace document' (.map r, inherited) (.map r', inherited'))
    (hreader : ∀ call call', document.SamePlace document' call call' →
      Lockstep (document.Aligned document' same) (· = ·) (reader call.1 call.2)
        (reader' call'.1 call'.2))
    (hmap : document.store.RespellsMap document'.store same r r' inherited inherited')
    {head head' : Element}
    (hread : document.store.readHead (document.store.entries r) inherited = .ok head)
    (hread' : document'.store.readHead (document'.store.entries r') inherited' = .ok head')
    (halike : head.Alike same head') :
    Lockstep (document.Aligned document' same) (· = ·) (document.store.construct reader r head)
      (document'.store.construct reader' r' head') := by
  have hc := h.corresponds
  have hcalls : InStep (document.Aligned document' same) reader reader'
      (document.store.callsFrom r inherited) (document'.store.callsFrom r' inherited') := by
    intro pair hpair
    exact hreader pair.1 pair.2 (.inside hplace hpair)
  -- the calls are those of the members and those of the kind of the element
  have hkind := Store.kind_of_readHead hread
  have hkind' := Store.kind_of_readHead hread'
  have hsame : head'.kind = head.kind := halike.body.kind_eq
  rw [Store.callsFrom, Store.callsFrom] at hcalls
  simp only [hkind, hkind'] at hcalls
  obtain ⟨hmembers, hlinks⟩ := (InStep.append_iff (length_memberCalls hc hmap.members)).mp hcalls
  have hnameOr {store : Store} {entries : Entries} {inherited : Option Value} {head : Element}
      (hread : store.readHead entries inherited = .ok head) :
      entries.nameOr inherited = head.name := (Store.name_of_readHead hread).symm
  rw [hnameOr hread, hnameOr hread', hsame] at hlinks
  refine (allocate hunshared hunshared' hplace halike).bind ?_
  rintro a _ rfl
  refine (readMembers hc hmap.members hmembers).bind ?_
  intro members members' hmembers
  have hhalf : Element.Alike same { head with members } { head' with members := members' } :=
    ⟨halike.name, halike.flags, hmembers, halike.body⟩
  refine (replace a hhalf).bind ?_
  intro _ _ _
  refine (readLinks hc (hmap.links _ hkind) halike.body hlinks).bind ?_
  intro body body' hbody
  have hwhole : Element.Alike same { head with members, body }
      { head' with members := members', body := body' } :=
    ⟨halike.name, halike.flags, hmembers, hbody⟩
  refine (replace a hwhole).bind ?_
  intro _ _ _
  exact .pure rfl

/-- **What is at the same place is read in step**, whatever the depth: `Lockstep` holds of
`readWithin`. -/
theorem readWithin (bound : Nat) {call call' : Value × Option Value}
    (hplace : document.SamePlace document' call call') :
    Lockstep (document.Aligned document' same) (· = ·)
      (document.store.readWithin (fun _ _ => throw .nestedTooDeep) bound call.1 call.2)
      (document'.store.readWithin (fun _ _ => throw .nestedTooDeep) bound call'.1 call'.2) := by
  induction bound generalizing call call' with
  | zero => exact .throw _ _
  | succ bound ih =>
    rw [Store.readWithin, Store.readWithin]
    cases h.places hplace with
    | @other call call' related plain =>
      obtain ⟨v, inherited⟩ := call
      obtain ⟨v', inherited'⟩ := call'
      cases h.corresponds.shape related with
      | map => cases plain
      | _ => exact .throw _ _
    | @map r r' inherited inherited' maps =>
      have hknown : Lockstep (document.Aligned document' same) (· = ·) (Reading.known? r)
          (Reading.known? r') := by
        intro before before' haligned
        exact .ok ⟨(haligned.known hplace).symm, haligned⟩
      refine hknown.bind ?_
      rintro found _ rfl
      cases found with
      | some a => exact .pure rfl
      | none =>
        -- the heads are read together, and then the maps are made elements
        refine (Lockstep.lift (h.corresponds.readHead maps.head).with_results).bind ?_
        rintro head head' ⟨halike, hread, hread'⟩
        exact construct h hunshared hunshared' hplace (fun call call' => ih) maps hread hread' halike

omit h hunshared hunshared' in
/-- What spells the fields of exports is read entry after entry, and calls on each of them. -/
theorem readExportsBy_of_spells {store : Store} {v : Value} {entries : Entries}
    (hspells : store.SpellsFields v entries) (reader : ElementReader) :
    store.readExportsBy reader v = Store.readEntries reader entries ∧
      store.exportCalls v = entries.map fun entry => (entry.2, some (.scalar entry.1)) := by
  have hfalsy {v : Value} (hfalse : store.truthy v = false) :
      store.readExportsBy reader v = Store.readEntries reader [] ∧ store.exportCalls v = [] := by
    unfold Store.readExportsBy Store.exportCalls
    rw [hfalse]
    exact ⟨rfl, rfl⟩
  cases hspells with
  | falsy hfalse => exact hfalsy hfalse
  | map ref =>
    by_cases htrue : store.truthy (.map ref) = true
    · unfold Store.readExportsBy Store.exportCalls
      rw [htrue]
      exact ⟨rfl, rfl⟩
    · -- an empty map counts as false
      have hempty : store.entries ref = [] := by simpa [Store.truthy] using htrue
      rw [hempty]
      exact hfalsy (by simpa using htrue)

omit hunshared hunshared' in
/-- **Other spellings of exports are read in step.** -/
theorem readExportsBy {v v' : Value}
    (hspelling : document.store.RespellsExports document'.store same v v')
    (hcalls : InStep (document.Aligned document' same) reader reader'
      (document.store.exportCalls v) (document'.store.exportCalls v')) :
    Lockstep (document.Aligned document' same) Members.Alike
      (document.store.readExportsBy reader v) (document'.store.readExportsBy reader' v') := by
  have hfields {entries entries' : Entries} (spells : document.store.SpellsFields v entries)
      (spells' : document'.store.SpellsFields v' entries')
      (hkeys : List.Forall₂ (fun entry entry' : Scalar × Value => entry.1.Alike entry'.1) entries
        entries') :
      Lockstep (document.Aligned document' same) Members.Alike
        (document.store.readExportsBy reader v) (document'.store.readExportsBy reader' v') := by
    obtain ⟨hread, hcalled⟩ := readExportsBy_of_spells spells reader
    obtain ⟨hread', hcalled'⟩ := readExportsBy_of_spells spells' reader'
    rw [hread, hread']
    rw [hcalled, hcalled'] at hcalls
    exact readEntries hkeys hcalls
  cases hspelling with
  | fields spells spells' keys => exact hfields spells spells' keys
  | other related plain =>
    have htruthy := (h.corresponds.shape related).truthy_eq
    by_cases htrue : document.store.truthy v = true
    · unfold Store.readExportsBy
      rw [htruthy, htrue]
      cases h.corresponds.shape related with
      | map => cases plain
      | _ => exact .throw _ _
    · have hfalse : document.store.truthy v = false := by simpa using htrue
      exact hfields (.falsy hfalse) (.falsy (htruthy.trans hfalse)) .nil

/-- **Other spellings of a document are read alike**: both are export graphs or none is, and the
graphs are alike, handle by handle, as `Graph.Alike` has it. -/
theorem ofDocument : Together (Graph.Alike same) (Graph.ofDocument document)
    (Graph.ofDocument document') := by
  -- both are read within one bound, which is enough for either
  obtain ⟨bound, hbound, hbound'⟩ : ∃ bound, document.reachedMaps.card ≤ bound ∧
      document'.reachedMaps.card ≤ bound :=
    ⟨max document.reachedMaps.card document'.reachedMaps.card, Nat.le_max_left _ _,
      Nat.le_max_right _ _⟩
  rw [← Graph.ofDocumentBy_readWithin hbound fun _ _ => throw .nestedTooDeep,
    ← Graph.ofDocumentBy_readWithin hbound' fun _ _ => throw .nestedTooDeep]
  have hcalls : InStep (document.Aligned document' same)
      (document.store.readWithin (fun _ _ => throw .nestedTooDeep) (bound + 1))
      (document'.store.readWithin (fun _ _ => throw .nestedTooDeep) (bound + 1)) document.calls
      document'.calls := by
    intro pair hpair
    exact readWithin h hunshared hunshared' (bound + 1) (.exported hpair)
  obtain ⟨store, root⟩ := document
  obtain ⟨store', root'⟩ := document'
  have hroot : store.RespellsRoot store' same root root' := h.root
  cases hroot with
  | other related plain =>
    cases h.corresponds.shape related with
    | map => cases plain
    | _ => exact .error _ _
  | @map ref ref' exports width =>
    have hread := readExportsBy h exports hcalls {} {} (aligned_empty h)
    refine hread.bind ?_
    rintro ⟨members, progress⟩ ⟨members', progress'⟩ ⟨hmembers, haligned⟩
    exact .ok ⟨h.corresponds, hmembers, (h.corresponds.shape width).truthy_eq, haligned.size,
      haligned.element⟩

end Document.Respells

end ModuleSurface
