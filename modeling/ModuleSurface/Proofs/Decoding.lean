import ModuleSurface.Proofs.Outcome
import ModuleSurface.Proofs.Walk

/-! # What reading a document guarantees

Every element that is read from a document is sound: its name counts as true, its payloads are
numbers of their sort, its references stand for something, what it refers to has been read, and
prototypes and bases refer to elements of their sort. Reading only adds elements, and an element
keeps its kind from its allocation on, so what is known of an element stays known.

* **`Element.Sound`** — what is guaranteed of an element among the elements read.
* **`Store.readElement_keeps`** — reading an element keeps all elements sound.
* **`Graph.sound_of_ofDocument`** — all elements of a graph that was read are sound. -/

namespace ModuleSurface

/-! ## Sound parts -/

/-- A type whose references stand for something. -/
def ValueType.Sound (type : ValueType) : Prop :=
  type.classReference ≠ some .null ∧ type.signatureReference ≠ some .null

/-- **A constant whose payload is a number of its sort.** -/
def Constant.Sound (constant : Constant) : Prop :=
  match constant.kind with
  | .integer => ∃ n, constant.value = .int n
  | .float => ∃ x, constant.value = .float x

/-- A signature with sound types and a name for each parameter. -/
structure Signature.Sound (signature : Signature) : Prop where
  parameters : ∀ type, some type ∈ signature.parameterTypes → type.Sound
  result : ∀ type, signature.returnType = some type → type.Sound
  names : signature.parameterNames.length = signature.parameterTypes.length

/-- **A body with sound payloads.** -/
def Body.Sound : Body → Prop
  | .global type constant =>
    (∀ t, type = some t → t.Sound) ∧ ∀ c, constant = some c → c.Sound
  | .enumValue value => ∃ n, value = .int n
  | .function signature => signature.Sound
  | _ => True

/-- **A body whose instances and base are of their sort**, given the kinds of the elements. -/
def Body.Sorted (kind : Handle → ElementKind) : Body → Prop
  | .functionPrototype instances => ∀ i ∈ instances, InstanceSort.function.admits (kind i) = true
  | .classPrototype instances => ∀ i ∈ instances, InstanceSort.classLike.admits (kind i) = true
  | .classType links | .interfaceType links =>
    ∀ b, links.base = some b → InstanceSort.classLike.admits (kind b) = true
  | _ => True

/-- The body without what it refers to. -/
def Body.bare : Body → Body
  | .functionPrototype _ => .functionPrototype []
  | .classPrototype _ => .classPrototype []
  | .classType _ => .classType {}
  | .interfaceType _ => .interfaceType {}
  | body => body

/-- A bare body refers to nothing: it has no `links`. -/
theorem Body.links_of_bare {body : Body} (h : body.bare = body) : body.links = [] := by
  rw [← h]
  cases body <;> rfl

/-- A bare body is sorted, whatever kinds the elements have. -/
theorem Body.sorted_of_bare {body : Body} (h : body.bare = body) (kind : Handle → ElementKind) :
    body.Sorted kind := by
  rw [← h]
  cases body <;> simp [Body.bare, Body.Sorted]

namespace Progress

/-- The element of a handle among those that have been read. -/
def element (progress : Progress) (h : Handle) : Element := progress.elements.getD h default

/-- **More has been read**: the elements are still there, with their kinds. -/
structure Extends (before after : Progress) : Prop where
  size : before.elements.size ≤ after.elements.size
  kind (h : Handle) : h < before.elements.size → (after.element h).kind = (before.element h).kind

/-- Progress extends itself. -/
theorem Extends.refl (progress : Progress) : progress.Extends progress := ⟨le_rfl, fun _ _ => rfl⟩

/-- What extends an extension extends what it started from. -/
theorem Extends.trans {first second third : Progress} (h : first.Extends second)
    (h' : second.Extends third) : first.Extends third :=
  ⟨h.size.trans h'.size, fun a ha => (h'.kind a (ha.trans_le h.size)).trans (h.kind a ha)⟩

end Progress

/-- **An element that is sound among the elements read.** -/
structure Element.Sound (store : Store) (progress : Progress) (element : Element) : Prop where
  name : store.truthy element.name = true
  body : element.body.Sound
  sorted : element.body.Sorted fun h => (progress.element h).kind
  inside : ∀ h ∈ element.successors, h < progress.elements.size

/-- The kind that the entries of a map give. -/
def Entries.kind? (entries : Entries) : Option ElementKind :=
  (entries.field "kind").text?.bind ElementKind.ofName?

namespace Store

variable {store : Store}

/-! ## Reading sound parts -/

/-- A value that `nonNull?` answers is not null. -/
theorem nonNull?_ne_null (v : Value) : v.nonNull? ≠ some .null := by
  unfold Value.nonNull?
  by_cases hnull : v = .null
  · simp [hnull]
  · rw [if_neg (by simpa [Value.isNull] using hnull)]
    simpa using hnull

/-- A type that `readType` answers is sound. -/
theorem sound_of_readType {v : Value} {type : ValueType}
    (h : store.readType v = .ok (some type)) : type.Sound := by
  unfold readType at h
  split at h
  · cases h
  · obtain ⟨kind, _, h⟩ := bind_eq_ok_iff.mp h
    cases h
    exact ⟨by simp [ValueType.plain], by simp [ValueType.plain]⟩
  · obtain ⟨kind, _, h⟩ := bind_eq_ok_iff.mp h
    cases h
    exact ⟨nonNull?_ne_null _, nonNull?_ne_null _⟩
  · cases h

/-- A payload that `readPayload` answers is a number of its sort. -/
theorem sound_of_readPayload {kind : ConstantKind} {v : Value} {value : Scalar}
    (h : readPayload kind v = .ok value) : (Constant.mk kind value).Sound := by
  unfold readPayload at h
  cases kind with
  | integer =>
    cases hnumber : v.toInt with
    | ok n => rw [hnumber] at h; cases h; exact ⟨n, rfl⟩
    | error cause => rw [hnumber] at h; cases h
  | float =>
    cases hnumber : v.toDouble with
    | ok x => rw [hnumber] at h; cases h; exact ⟨x, rfl⟩
    | error cause => rw [hnumber] at h; cases h

/-- A constant that `readConstant` answers is sound. -/
theorem sound_of_readConstant {name v : Value} {constant : Constant}
    (h : store.readConstant name v = .ok (some constant)) : constant.Sound := by
  unfold readConstant at h
  split at h
  · cases h
  split at h
  · -- a map: its sort, its value and then the number
    simp only at h
    split at h
    · cases h
    split at h
    · cases h
    split at h
    · rename_i hpayload
      cases h
      exact sound_of_readPayload hpayload
    · split at h <;> cases h
  · cases h

/-- The payload of an enum value, as `readEnumValue` answers it, is an integer. -/
theorem sound_of_readEnumValue {name : Value} {v : Option Value} {value : Scalar}
    (h : readEnumValue name v = .ok value) : ∃ n, value = .int n := by
  unfold readEnumValue at h
  split at h
  · rename_i n _
    cases h
    exact ⟨n, rfl⟩
  · split at h <;> cases h

/-- A signature of parameters that are given is sound. -/
theorem sound_of_readParameters {parameters : List Value} {returned : Value} {signature : Signature}
    (h : (do
      let types ← parameters.mapM fun p => do
        store.readType (← parameter (store.parameterField "type" p))
      let names ← parameters.mapM fun p => parameter (store.parameterField "name" p)
      let result ← store.readType returned
      return (⟨types, names, result⟩ : Signature)) = .ok signature) : signature.Sound := by
  obtain ⟨types, htypes, h⟩ := bind_eq_ok_iff.mp h
  obtain ⟨names, hnames, h⟩ := bind_eq_ok_iff.mp h
  obtain ⟨result, hresult, h⟩ := bind_eq_ok_iff.mp h
  cases h
  refine ⟨fun type htype => ?_, fun type htype => ?_, ?_⟩
  · obtain ⟨p, _, hread⟩ := exists_of_mem_mapM htypes htype
    obtain ⟨field, _, hread⟩ := bind_eq_ok_iff.mp hread
    exact sound_of_readType hread
  · subst htype
    exact sound_of_readType hresult
  · exact (forall₂_of_mapM hnames).length_eq.symm.trans (forall₂_of_mapM htypes).length_eq

/-- A signature that `readSignature` answers is sound: it has a name for each type. -/
theorem sound_of_readSignature {v : Value} {signature : Signature}
    (h : store.readSignature v = .ok signature) : signature.Sound := by
  unfold readSignature at h
  split at h
  · cases h
    exact ⟨by simp, by simp [ValueType.Sound, ValueType.plain], rfl⟩
  split at h
  · simp only at h
    split at h
    · obtain ⟨parameters, _, h⟩ := bind_eq_ok_iff.mp h
      exact sound_of_readParameters h
    · rw [ok_bind] at h
      exact sound_of_readParameters h
  · cases h

/-- The body of a head is sound, of the kind that was asked for, and bare. -/
theorem sound_of_readBody {kind : ElementKind} {name : Value} {entries : Entries} {body : Body}
    (h : store.readBody kind name entries = .ok body) :
    body.Sound ∧ body.kind = kind ∧ body.bare = body := by
  unfold readBody at h
  cases kind with
  | global =>
    obtain ⟨constant, hconstant, h⟩ := bind_eq_ok_iff.mp h
    split at h
    · cases h
    · obtain ⟨type, htype, h⟩ := bind_eq_ok_iff.mp h
      cases h
      refine ⟨⟨?_, ?_⟩, rfl, rfl⟩
      · rintro t rfl
        exact sound_of_readType htype
      · rintro c rfl
        exact sound_of_readConstant hconstant
  | enumValue =>
    obtain ⟨value, hvalue, h⟩ := bind_eq_ok_iff.mp h
    cases h
    exact ⟨sound_of_readEnumValue hvalue, rfl, rfl⟩
  | function =>
    obtain ⟨signature, hsignature, h⟩ := bind_eq_ok_iff.mp h
    cases h
    exact ⟨sound_of_readSignature hsignature, rfl, rfl⟩
  | enumeration | functionPrototype | classPrototype | classType | interfaceType | nameSpace =>
    cases h
    exact ⟨trivial, rfl, rfl⟩

/-- **What a head is read from**: each part of it from a field of the map, and no members. -/
structure ReadsHead (store : Store) (entries : Entries) (inherited : Option Value) (head : Element) :
    Prop where
  kind : entries.kind? = some head.kind
  name : head.name = (entries.field? "name").getD (Value.ofOption inherited)
  named : store.truthy head.name = true
  flags : store.readFlags (entries.field "flags") = .ok head.flags
  members : head.members = none
  body : store.readBody head.kind head.name entries = .ok head.body

section Heads

variable {entries : Entries} {inherited : Option Value} {head : Element}

/-- **Reading a head succeeds** where each part of it is read, as `ReadsHead` lists them. -/
theorem readHead_eq_ok_iff :
    store.readHead entries inherited = .ok head ↔ store.ReadsHead entries inherited head := by
  unfold readHead
  simp only
  constructor
  · intro h
    split at h
    · cases h
    rename_i kind hkind
    split at h
    · cases h
    rename_i hname
    obtain ⟨flags, hflags, h⟩ := bind_eq_ok_iff.mp h
    obtain ⟨body, hbody, h⟩ := bind_eq_ok_iff.mp h
    cases h
    obtain rfl : body.kind = kind := (sound_of_readBody hbody).2.1
    exact ⟨hkind, rfl, by simpa using hname, hflags, rfl, hbody⟩
  · intro h
    obtain ⟨name, flags, members, body⟩ := head
    obtain ⟨hkind, rfl, hnamed, hflags, rfl, hbody⟩ := h
    rw [Entries.kind?] at hkind
    simp only [hkind, hnamed, hflags, hbody, Bool.not_true, Bool.false_eq_true, if_false, ok_bind]
    rfl

/-- **A head that is read** has a name that counts as true, a sound body, and refers to nothing. -/
theorem sound_of_readHead (h : store.readHead entries inherited = .ok head) :
    store.truthy head.name = true ∧ head.body.Sound ∧ head.members = none ∧
      head.body.bare = head.body := by
  have hreads := readHead_eq_ok_iff.mp h
  obtain ⟨hsound, -, hbare⟩ := sound_of_readBody hreads.body
  exact ⟨hreads.named, hsound, hreads.members, hbare⟩

/-- The kind of a head is the one that is given: `entries.kind? = some head.kind`. -/
theorem kind_of_readHead (h : store.readHead entries inherited = .ok head) :
    entries.kind? = some head.kind := (readHead_eq_ok_iff.mp h).kind

/-- **The name of a head** is the one that is given, and the inherited one where none is given. -/
theorem name_of_readHead (h : store.readHead entries inherited = .ok head) :
    head.name = (entries.field? "name").getD (Value.ofOption inherited) :=
  (readHead_eq_ok_iff.mp h).name

end Heads

end Store

/-! ## Steps of reading -/

namespace Progress

variable {store : Store} {before after : Progress}

/-- **Everything read so far is sound**, and the known maps have become elements. -/
structure Sound (store : Store) (progress : Progress) : Prop where
  elements (h : Handle) : h < progress.elements.size → (progress.element h).Sound store progress
  known (ref : Nat) (h : Handle) :
    progress.known.lookup ref = some h → h < progress.elements.size

/-- **A step kept everything sound**, and only added. -/
structure Kept (store : Store) (before after : Progress) : Prop where
  sound : after.Sound store
  more : before.Extends after

/-- What is kept twice is kept. -/
theorem Kept.trans {middle : Progress} (h : Kept store before middle)
    (h' : Kept store middle after) : Kept store before after :=
  ⟨h'.sound, h.more.trans h'.more⟩

/-- A body stays sorted when more is read. -/
theorem Extends.sorted {body : Body} (h : before.Extends after)
    (hinside : ∀ a ∈ body.links, a < before.elements.size)
    (hsorted : body.Sorted fun a => (before.element a).kind) :
    body.Sorted fun a => (after.element a).kind := by
  cases body with
  | functionPrototype instances | classPrototype instances =>
    intro i hi
    simp only
    rw [h.kind i (hinside i hi)]
    exact hsorted i hi
  | classType links | interfaceType links =>
    intro b hb
    have hlt : b < before.elements.size := hinside b (by simp [Body.links, hb])
    simp only
    rw [h.kind b hlt]
    exact hsorted b hb
  | _ => trivial

end Progress

/-- An element stays sound when more is read. -/
theorem Element.Sound.mono {store : Store} {before after : Progress} {element : Element}
    (h : element.Sound store before) (hext : before.Extends after) :
    element.Sound store after where
  name := h.name
  body := h.body
  sorted := hext.sorted (fun a ha => h.inside a (List.mem_append_right _ ha)) h.sorted
  inside := fun a ha => (h.inside a ha).trans_le hext.size

namespace Progress

variable {store : Store} {before : Progress}

/-- A new element for a map. -/
def allocated (progress : Progress) (ref : Nat) (element : Element) : Progress :=
  ⟨progress.elements.push element, (ref, progress.elements.size) :: progress.known⟩

/-- An element in the place of an allocated one. -/
def replaced (progress : Progress) (h : Handle) (element : Element) : Progress :=
  { progress with elements := progress.elements.setIfInBounds h element }

/-- Only the map that is allocated gets known: `known.lookup other` stays as it is for the others.
-/
theorem lookup_allocated_eq_none_iff {progress : Progress} {ref other : Nat} {element : Element} :
    (progress.allocated ref element).known.lookup other = none ↔
      other ≠ ref ∧ progress.known.lookup other = none := by
  rw [allocated, List.lookup_cons]
  by_cases h : other = ref
  · simp [h]
  · simp [h, beq_false_of_ne h]

/-- The element that is allocated is the last one, and the others stay. -/
theorem element_allocated (progress : Progress) (ref : Nat) (element : Element) (h : Handle) :
    (progress.allocated ref element).element h
      = if h = progress.elements.size then element else progress.element h := by
  simp only [allocated, Progress.element, Array.getD_eq_getD_getElem?, Array.getElem?_push]
  split <;> simp

/-- The element that is replaced is there instead, and the others stay. -/
theorem element_replaced {progress : Progress} {h : Handle} (hsize : h < progress.elements.size)
    (element : Element) (a : Handle) :
    (progress.replaced h element).element a = if a = h then element else progress.element a := by
  simp only [replaced, Progress.element, Array.getD_eq_getD_getElem?,
    Array.getElem?_setIfInBounds]
  by_cases ha : h = a
  · subst ha
    simp [hsize]
  · simp [ha, Ne.symm ha]

/-- **Allocating** a head that refers to nothing. -/
theorem kept_allocated {ref : Nat} {head : Element} (hbefore : before.Sound store)
    (hname : store.truthy head.name = true) (hbody : head.body.Sound)
    (hmembers : head.members = none) (hbare : head.body.bare = head.body) :
    Kept store before (before.allocated ref head) := by
  have hext : before.Extends (before.allocated ref head) := by
    refine ⟨by simp [allocated], fun a ha => ?_⟩
    rw [element_allocated, if_neg (Nat.ne_of_lt ha)]
  refine ⟨⟨fun a ha => ?_, fun other a hlookup => ?_⟩, hext⟩
  -- the new element refers to nothing, so only its own parts are to be checked
  · rw [element_allocated]
    split
    · exact ⟨hname, hbody, Body.sorted_of_bare hbare _, by
        simp [Element.successors, hmembers, Body.links_of_bare hbare]⟩
    · rename_i hne
      rw [allocated, Array.size_push] at ha
      exact (hbefore.elements a (lt_of_le_of_ne (Nat.le_of_lt_succ ha) hne)).mono hext
  · rw [allocated, List.lookup_cons] at hlookup
    simp only [allocated, Array.size_push]
    split at hlookup
    · cases hlookup
      exact Nat.lt_succ_self _
    · exact Nat.lt_succ_of_lt (hbefore.known other a hlookup)

/-- **Replacing** an element by a sound one of its kind. -/
theorem kept_replaced {h : Handle} {element : Element} (hbefore : before.Sound store)
    (hsize : h < before.elements.size) (hkind : element.kind = (before.element h).kind)
    (helement : element.Sound store before) : Kept store before (before.replaced h element) := by
  have hext : before.Extends (before.replaced h element) := by
    refine ⟨by simp [replaced], fun a _ => ?_⟩
    rw [element_replaced hsize]
    split
    · rename_i heq
      rw [heq, hkind]
    · rfl
  refine ⟨⟨fun a ha => ?_, fun ref a hlookup => ?_⟩, hext⟩
  · rw [element_replaced hsize]
    split
    · exact helement.mono hext
    · exact (hbefore.elements a (by simpa [replaced] using ha)).mono hext
  · simpa [replaced] using hbefore.known ref a hlookup

end Progress

/-! ## Reading elements -/

namespace Store

open Progress (Kept)

variable {store : Store} {reader : ElementReader} {before after : Progress}

/-- **A reader that keeps everything sound** and gives the handle of an element that has been
read. -/
def Keeps (store : Store) (reader : ElementReader) : Prop :=
  ∀ (v : Value) (inherited : Option Value) (before after : Progress) (h : Handle),
    before.Sound store → reader v inherited before = .ok (h, after) →
      Kept store before after ∧ h < after.elements.size

/-- The values of a map, read one by one, keep everything sound, and each of them is an element. -/
theorem readEntries_keeps (hreader : Keeps store reader) {entries : Entries} {members : Members}
    (hbefore : before.Sound store) (hrun : readEntries reader entries before = .ok (members, after)) :
    Kept store before after ∧ ∀ m ∈ members, m.2 < after.elements.size := by
  induction entries generalizing before members with
  | nil =>
    cases hrun
    exact ⟨⟨hbefore, .refl _⟩, by simp⟩
  | cons entry entries ih =>
    obtain ⟨key, v⟩ := entry
    obtain ⟨h, middle, hhead, hrun⟩ := readBind_eq_ok_iff.mp hrun
    obtain ⟨others, last, hrest, hrun⟩ := readBind_eq_ok_iff.mp hrun
    cases hrun
    obtain ⟨hkept, hsize⟩ := hreader _ _ _ _ _ hbefore hhead
    obtain ⟨hkept', hothers⟩ := ih hkept.sound hrest
    refine ⟨hkept.trans hkept', fun m hm => ?_⟩
    rcases List.mem_cons.mp hm with rfl | hm
    · exact hsize.trans_le hkept'.more.size
    · exact hothers m hm

/-- A member map that is read keeps everything sound, and its members are elements. -/
theorem readMembers_keeps (hreader : Keeps store reader) {v : Value} {members : Option Members}
    (hbefore : before.Sound store)
    (hrun : store.readMembers reader v before = .ok (members, after)) :
    Kept store before after ∧ ∀ m ∈ members.getD [], m.2 < after.elements.size := by
  unfold readMembers at hrun
  split at hrun
  · cases hrun
    exact ⟨⟨hbefore, .refl _⟩, by simp⟩
  · obtain ⟨entries, last, hread, hrun⟩ := readBind_eq_ok_iff.mp hrun
    cases hrun
    exact readEntries_keeps hreader hbefore hread
  · cases hrun

/-- An instance that is read keeps everything sound, and is an element of its sort. -/
theorem readInstance_keeps (hreader : Keeps store reader) {sort : InstanceSort}
    {inherited : Option Value} {v : Value} {h : Handle} (hbefore : before.Sound store)
    (hrun : readInstance reader sort inherited v before = .ok (h, after)) :
    Kept store before after ∧ h < after.elements.size ∧
      sort.admits (after.element h).kind = true := by
  obtain ⟨i, middle, hread, hrun⟩ := readBind_eq_ok_iff.mp hrun
  obtain ⟨element, last, helement, hrun⟩ := readBind_eq_ok_iff.mp hrun
  obtain ⟨rfl, rfl⟩ : element = middle.element i ∧ last = middle := by
    cases helement
    exact ⟨rfl, rfl⟩
  obtain ⟨hkept, hsize⟩ := hreader _ _ _ _ _ hbefore hread
  by_cases hadmits : sort.admits (last.element i).kind = true
  · rw [if_pos hadmits] at hrun
    cases hrun
    exact ⟨hkept, hsize, hadmits⟩
  · rw [if_neg hadmits] at hrun
    cases hrun

/-- The instances of a list keep everything sound, and are elements of their sort. -/
theorem readInstanceList_keeps (hreader : Keeps store reader) {sort : InstanceSort}
    {inherited : Option Value} {items : List Value} {instances : List Handle}
    (hbefore : before.Sound store)
    (hrun : readInstanceList reader sort inherited items before = .ok (instances, after)) :
    Kept store before after ∧ ∀ i ∈ instances, i < after.elements.size ∧
      sort.admits (after.element i).kind = true := by
  induction items generalizing before instances with
  | nil =>
    cases hrun
    exact ⟨⟨hbefore, .refl _⟩, by simp⟩
  | cons v items ih =>
    obtain ⟨h, middle, hhead, hrun⟩ := readBind_eq_ok_iff.mp hrun
    obtain ⟨others, last, hrest, hrun⟩ := readBind_eq_ok_iff.mp hrun
    cases hrun
    obtain ⟨hkept, hsize, hadmits⟩ := readInstance_keeps hreader hbefore hhead
    obtain ⟨hkept', hothers⟩ := ih hkept.sound hrest
    refine ⟨hkept.trans hkept', fun i hi => ?_⟩
    rcases List.mem_cons.mp hi with rfl | hi
    · exact ⟨hsize.trans_le hkept'.more.size, by rw [hkept'.more.kind _ hsize]; exact hadmits⟩
    · exact hothers i hi

/-- Instances keep everything sound, in whatever form they are given. -/
theorem readInstances_keeps (hreader : Keeps store reader) {sort : InstanceSort} {name v : Value}
    {instances : List Handle} (hbefore : before.Sound store)
    (hrun : store.readInstances reader sort name v before = .ok (instances, after)) :
    Kept store before after ∧ ∀ i ∈ instances, i < after.elements.size ∧
      sort.admits (after.element i).kind = true := by
  unfold readInstances at hrun
  split at hrun
  · cases hrun
    exact ⟨⟨hbefore, .refl _⟩, by simp⟩
  split at hrun
  · exact readInstanceList_keeps hreader hbefore hrun
  · cases hrun

/-- Reading the base of a class. -/
def readBase (reader : ElementReader) (v : Value) : Reading (Option Handle) :=
  match v.nonNull? with
  | none => pure none
  | some v => do return some (← readInstance reader .classLike none v)

/-- The base of a class is read first, then its member maps. -/
theorem readClassLinks_eq (store : Store) (reader : ElementReader) (entries : Entries) :
    store.readClassLinks reader entries = (do
      let base ← readBase reader (entries.field "base")
      let staticMembers ← store.readMembers reader (entries.field "static_members")
      let instanceMembers ← store.readMembers reader (entries.field "instance_members")
      return { base, staticMembers, instanceMembers }) := by
  unfold readClassLinks readBase
  cases (entries.field "base").nonNull? with
  | none => rfl
  | some v => simp only [bind_assoc]

/-- A base that is read keeps everything sound, and is a class or an interface. -/
theorem readBase_keeps (hreader : Keeps store reader) {v : Value} {base : Option Handle}
    (hbefore : before.Sound store) (hrun : readBase reader v before = .ok (base, after)) :
    Kept store before after ∧ ∀ b, base = some b → b < after.elements.size ∧
      InstanceSort.classLike.admits (after.element b).kind = true := by
  unfold readBase at hrun
  cases hv : v.nonNull? with
  | none =>
    rw [hv] at hrun
    cases hrun
    exact ⟨⟨hbefore, .refl _⟩, by simp⟩
  | some given =>
    rw [hv] at hrun
    obtain ⟨b, last, hread, hrun⟩ := readBind_eq_ok_iff.mp hrun
    cases hrun
    obtain ⟨hkept, hsize, hadmits⟩ := readInstance_keeps hreader hbefore hread
    refine ⟨hkept, ?_⟩
    rintro _ ⟨rfl⟩
    exact ⟨hsize, hadmits⟩

/-- What a class refers to keeps everything sound, and is of the sorts that a class refers to. -/
theorem readClassLinks_keeps (hreader : Keeps store reader) {entries : Entries}
    {links : ClassLinks} (hbefore : before.Sound store)
    (hrun : store.readClassLinks reader entries before = .ok (links, after)) :
    Kept store before after ∧
      (∀ a ∈ (Body.classType links).links, a < after.elements.size) ∧
      (Body.classType links).Sorted fun a => (after.element a).kind := by
  rw [readClassLinks_eq] at hrun
  obtain ⟨base, first, hbase, hrun⟩ := readBind_eq_ok_iff.mp hrun
  obtain ⟨statics, second, hstatics, hrun⟩ := readBind_eq_ok_iff.mp hrun
  obtain ⟨members, third, hmembers, hrun⟩ := readBind_eq_ok_iff.mp hrun
  cases hrun
  obtain ⟨hkept, hbase⟩ := readBase_keeps hreader hbefore hbase
  obtain ⟨hkept', hstatics⟩ := readMembers_keeps hreader hkept.sound hstatics
  obtain ⟨hkept'', hmembers⟩ := readMembers_keeps hreader hkept'.sound hmembers
  have hlater := hkept'.trans hkept''
  refine ⟨hkept.trans hlater, fun a ha => ?_, fun b hb => ?_⟩
  · simp only [Body.links, List.mem_append, Option.mem_toList, List.mem_map] at ha
    rcases ha with (ha | ⟨m, hm, rfl⟩) | ⟨m, hm, rfl⟩
    · exact (hbase a ha).1.trans_le hlater.more.size
    · exact (hstatics m hm).trans_le hkept''.more.size
    · exact hmembers m hm
  · obtain ⟨hsize, hadmits⟩ := hbase b hb
    simp only
    rw [hlater.more.kind b hsize]
    exact hadmits

/-- **Links that are read** make a bare body one that refers to elements of their sort. -/
theorem readLinks_keeps (hreader : Keeps store reader) {name : Value} {entries : Entries}
    {bare body : Body} (hbefore : before.Sound store) (hsound : bare.Sound)
    (hbare : bare.bare = bare)
    (hrun : store.readLinks reader name entries bare before = .ok (body, after)) :
    Kept store before after ∧ body.Sound ∧ body.kind = bare.kind ∧
      (∀ a ∈ body.links, a < after.elements.size) ∧
      body.Sorted fun a => (after.element a).kind := by
  cases bare with
  | functionPrototype instances | classPrototype instances =>
    obtain ⟨instances, last, hread, hrun⟩ := readBind_eq_ok_iff.mp hrun
    cases hrun
    obtain ⟨hkept, hinstances⟩ := readInstances_keeps hreader hbefore hread
    exact ⟨hkept, trivial, rfl, fun a ha => (hinstances a ha).1, fun a ha => (hinstances a ha).2⟩
  | classType links | interfaceType links =>
    obtain ⟨links, last, hread, hrun⟩ := readBind_eq_ok_iff.mp hrun
    cases hrun
    obtain ⟨hkept, hinside, hsorted⟩ := readClassLinks_keeps hreader hbefore hread
    exact ⟨hkept, trivial, rfl, hinside, hsorted⟩
  | _ =>
    cases hrun
    exact ⟨⟨hbefore, .refl _⟩, hsound, rfl, by simp [Body.links], trivial⟩

/-- **What reading an element does**, where it succeeds. A map that is known stands for its element.
One that is new is known from the allocation of its head on; then its members and what its body
refers to are read, and each is put in place. -/
inductive ReadsElement (store : Store) (reader : ElementReader) (ref : Nat)
    (inherited : Option Value) (before : Progress) : Handle → Progress → Prop
  | known {h : Handle} (lookup : before.known.lookup ref = some h) :
      ReadsElement store reader ref inherited before h before
  | new {head : Element} {members : Option Members} {body : Body} {after₁ after₂ : Progress}
      (lookup : before.known.lookup ref = none)
      (head_read : store.readHead (store.entries ref) inherited = .ok head)
      (members_read : store.readMembers reader ((store.entries ref).field "members")
        (before.allocated ref head) = .ok (members, after₁))
      (links_read : store.readLinks reader head.name (store.entries ref) head.body
        (after₁.replaced before.elements.size { head with members }) = .ok (body, after₂)) :
      ReadsElement store reader ref inherited before before.elements.size
        (after₂.replaced before.elements.size { head with members, body })

/-- A map that is known is its element, and nothing changes. -/
theorem readElement_known {fuel ref : Nat} {inherited : Option Value} {h : Handle}
    (hlookup : before.known.lookup ref = some h) :
    store.readElement (fuel + 1) (.map ref) inherited before = .ok (h, before) := by
  have hknown : Reading.known? ref before = .ok (some h, before) := by
    rw [Reading.known?, hlookup]
  rw [readElement, readBind_of_ok hknown]
  rfl

/-- A new map is read by `readHead`, `readMembers` and `readLinks`, in this order. -/
theorem readElement_new {fuel ref : Nat} {inherited : Option Value}
    (hfresh : before.known.lookup ref = none) :
    store.readElement (fuel + 1) (.map ref) inherited before = (do
      let head ← store.readHead (store.entries ref) inherited
      let read ← store.readMembers (store.readElement fuel)
        ((store.entries ref).field "members") (before.allocated ref head)
      let linked ← store.readLinks (store.readElement fuel) head.name (store.entries ref)
        head.body (read.2.replaced before.elements.size { head with members := read.1 })
      return (before.elements.size, linked.2.replaced before.elements.size
        { head with members := read.1, body := linked.1 })) := by
  have hknown : Reading.known? ref before = .ok (none, before) := by
    rw [Reading.known?, hfresh]
  rw [readElement, readBind_of_ok hknown]
  dsimp only
  rw [readBind_apply, lift_apply, bind_assoc]
  refine bind_congr fun head => ?_
  have hallocate : Reading.allocate ref head before
      = .ok (before.elements.size, before.allocated ref head) := rfl
  rw [ok_bind, readBind_of_ok hallocate, readBind_apply]
  refine bind_congr fun read => ?_
  have hreplace : Reading.replace before.elements.size { head with members := read.1 } read.2
      = .ok ((), read.2.replaced before.elements.size { head with members := read.1 }) := rfl
  rw [readBind_of_ok hreplace, readBind_apply]
  rfl

/-- **Reading an element succeeds** on maps only, known or new, as `ReadsElement` has it. -/
theorem readElement_eq_ok_iff {fuel : Nat} {v : Value} {inherited : Option Value} {h : Handle} :
    store.readElement (fuel + 1) v inherited before = .ok (h, after) ↔
      ∃ ref, v = .map ref ∧
        store.ReadsElement (store.readElement fuel) ref inherited before h after := by
  constructor
  · intro hrun
    cases v with
    | map ref =>
      refine ⟨ref, rfl, ?_⟩
      cases hlookup : before.known.lookup ref with
      | some a =>
        rw [readElement_known hlookup] at hrun
        cases hrun
        exact .known hlookup
      | none =>
        rw [readElement_new hlookup] at hrun
        obtain ⟨head, hhead, hrun⟩ := bind_eq_ok_iff.mp hrun
        obtain ⟨⟨members, after₁⟩, hmembers, hrun⟩ := bind_eq_ok_iff.mp hrun
        obtain ⟨⟨body, after₂⟩, hlinks, hrun⟩ := bind_eq_ok_iff.mp hrun
        cases hrun
        exact .new hlookup hhead hmembers hlinks
    | _ => cases hrun
  · rintro ⟨ref, rfl, hreads⟩
    cases hreads with
    | known hlookup => exact readElement_known hlookup
    | new hlookup hread hmembers hlinks =>
      rw [readElement_new hlookup, hread, ok_bind, hmembers, ok_bind, hlinks]
      rfl

/-- **What has been read of an element when its members are in place**: the element is there, of its
kind, and so are its members. -/
theorem kept_of_readMembers {entries : Entries} {inherited : Option Value} {head : Element}
    {members : Option Members} {ref : Nat} {v : Value} (hreader : Keeps store reader)
    (hbefore : before.Sound store) (hread : store.readHead entries inherited = .ok head)
    (hmembers : store.readMembers reader v (before.allocated ref head) = .ok (members, after)) :
    let half := after.replaced before.elements.size { head with members }
    Kept store before half ∧ before.elements.size < half.elements.size ∧
      (half.element before.elements.size).kind = head.kind ∧
      ∀ m ∈ members.getD [], m.2 < half.elements.size := by
  intro half
  obtain ⟨hname, hbody, hnone, hbare⟩ := sound_of_readHead hread
  have hkept : Kept store before (before.allocated ref head) :=
    Progress.kept_allocated hbefore hname hbody hnone hbare
  obtain ⟨hkept₁, hinside⟩ := readMembers_keeps hreader hkept.sound hmembers
  have hsize : before.elements.size < (before.allocated ref head).elements.size := by
    simp [Progress.allocated]
  have hsize₁ := hsize.trans_le hkept₁.more.size
  -- the kind of an element is that of its head, whatever has been put in place
  have hkind₁ : (after.element before.elements.size).kind = head.kind := by
    rw [hkept₁.more.kind _ hsize, Progress.element_allocated, if_pos rfl]
  have hhalf : ({ head with members } : Element).Sound store after :=
    ⟨hname, hbody, Body.sorted_of_bare hbare _, fun a ha => by
      rw [Element.successors, Body.links_of_bare hbare, List.append_nil] at ha
      obtain ⟨m, hm, rfl⟩ := List.mem_map.mp ha
      exact hinside m hm⟩
  have hkept₂ : Kept store after half :=
    Progress.kept_replaced hkept₁.sound hsize₁ hkind₁.symm hhalf
  refine ⟨hkept.trans (hkept₁.trans hkept₂), hsize₁.trans_le hkept₂.more.size, ?_, fun m hm => ?_⟩
  · rw [hkept₂.more.kind _ hsize₁, hkind₁]
  · exact (hinside m hm).trans_le hkept₂.more.size

/-- **Reading an element** keeps everything sound, whatever the map refers to:
`Keeps store (store.readElement fuel)`. -/
theorem readElement_keeps (store : Store) (fuel : Nat) : Keeps store (store.readElement fuel) := by
  induction fuel with
  | zero =>
    intro v inherited before after h _ hrun
    cases hrun
  | succ fuel ih =>
    intro v inherited before after h hbefore hrun
    obtain ⟨ref, rfl, hreads⟩ := readElement_eq_ok_iff.mp hrun
    cases hreads with
    | known hlookup => exact ⟨⟨hbefore, .refl _⟩, hbefore.known ref h hlookup⟩
    | @new head members body after₁ after₂ _ hread hmembers hlinks =>
      obtain ⟨hname, hbody, -, hbare⟩ := sound_of_readHead hread
      -- the members are put in place first, and the body is still bare then
      obtain ⟨hkept₁, hsize₁, hkind₁, hinside⟩ := kept_of_readMembers ih hbefore hread hmembers
      obtain ⟨hkept₂, hsound, hkind, hlinks, hsorted⟩ :=
        readLinks_keeps ih hkept₁.sound hbody hbare hlinks
      have hsize₂ := hsize₁.trans_le hkept₂.more.size
      have hkind₂ : (after₂.element before.elements.size).kind = head.kind := by
        rw [hkept₂.more.kind _ hsize₁, hkind₁]
      have hwhole : ({ head with members, body } : Element).Sound store after₂ :=
        ⟨hname, hsound, hsorted, fun a ha => by
          rcases List.mem_append.mp ha with ha | ha
          · obtain ⟨m, hm, rfl⟩ := List.mem_map.mp ha
            exact (hinside m hm).trans_le hkept₂.more.size
          · exact hlinks a ha⟩
      have hkept₃ : Kept store after₂ (after₂.replaced _ { head with members, body }) :=
        Progress.kept_replaced hkept₂.sound hsize₂ (hkind.trans hkind₂.symm) hwhole
      exact ⟨hkept₁.trans (hkept₂.trans hkept₃), hsize₂.trans_le hkept₃.more.size⟩

end Store

/-! ## Graphs that were read -/

/-- Reading the exports of a graph; every value that counts as false is the empty map. -/
def Store.readExports (store : Store) (v : Value) : Reading Members :=
  if !store.truthy v then return []
  else
    match v with
    | .map ref => readEntries (store.readElement (store.maps.size + 1)) (store.entries ref)
    | v => throw (.format (.exportsNotMap v.typeName))

/-- A root map is read by its exports and its addressing width. -/
theorem Document.readRoot_eq (document : Document) (ref : Nat) :
    document.readRoot ref = (do
      let members ← document.store.readExports ((document.store.entries ref).field "exports")
      return (members, document.store.truthy
        (((document.store.entries ref).field? "is_64bit").getD (.bool false)))) := by
  unfold readRoot Store.readExports
  by_cases htruthy : (!document.store.truthy ((document.store.entries ref).field "exports")) = true
  · simp only [htruthy, if_true]
  · simp only [htruthy]
    cases (document.store.entries ref).field "exports" <;> rfl

/-- The exports that are read keep everything sound, and are elements. -/
theorem Store.readExports_keeps {store : Store} {v : Value} {members : Members}
    {before after : Progress} (hbefore : before.Sound store)
    (hrun : store.readExports v before = .ok (members, after)) :
    Progress.Kept store before after ∧ ∀ m ∈ members, m.2 < after.elements.size := by
  unfold readExports at hrun
  split at hrun
  · cases hrun
    exact ⟨⟨hbefore, .refl _⟩, by simp⟩
  split at hrun
  · exact readEntries_keeps (store.readElement_keeps _) hbefore hrun
  · cases hrun

namespace Graph

/-- **A sound graph**: its elements are sound, and its exports are among them. -/
structure Sound (graph : Graph) : Prop where
  elements (h : Handle) : h < graph.size → (graph.element h).Sound graph.store ⟨graph.elements, []⟩
  exports : ∀ entry ∈ graph.exports, entry.2 < graph.size

/-- A document whose root is a map is read by its exports. -/
theorem ofDocument_map (store : Store) (ref : Nat) :
    Graph.ofDocument ⟨store, .map ref⟩ = (fun read : Members × Progress =>
      { store, elements := read.2.elements, exports := read.1,
        is64Bit := store.truthy (((store.entries ref).field? "is_64bit").getD (.bool false)) : Graph })
      <$> store.readExports ((store.entries ref).field "exports") {} := by
  unfold ofDocument
  simp only [StateT.run, Document.readRoot_eq]
  show (store.readExports ((store.entries ref).field "exports") {} >>= _) >>= _ = _
  cases store.readExports ((store.entries ref).field "exports") {} <;> rfl

/-- **Reading a document succeeds** where its root is a map and `readExports` reads the exports of
that map. -/
theorem ofDocument_eq_ok_iff {document : Document} {graph : Graph} :
    ofDocument document = .ok graph ↔ ∃ ref members progress, document.root = .map ref ∧
      document.store.readExports ((document.store.entries ref).field "exports") {}
        = .ok (members, progress) ∧
      graph = ⟨document.store, progress.elements, members, document.store.truthy
        (((document.store.entries ref).field? "is_64bit").getD (.bool false))⟩ := by
  obtain ⟨store, root⟩ := document
  constructor
  · intro h
    cases root with
    | map ref =>
      rw [ofDocument_map] at h
      obtain ⟨⟨members, progress⟩, hread, rfl⟩ := map_eq_ok_iff.mp h
      exact ⟨ref, members, progress, rfl, hread, rfl⟩
    | _ => cases h
  · rintro ⟨ref, members, progress, rfl, hread, rfl⟩
    rw [ofDocument_map]
    exact map_eq_ok_iff.mpr ⟨(members, progress), hread, rfl⟩

/-- **A graph that was read from a document** is sound, and keeps the store of the document:
`graph.store = document.store`. -/
theorem sound_of_ofDocument {document : Document} {graph : Graph}
    (h : ofDocument document = .ok graph) : graph.Sound ∧ graph.store = document.store := by
  obtain ⟨ref, members, progress, -, hread, rfl⟩ := ofDocument_eq_ok_iff.mp h
  have hempty : Progress.Sound document.store {} :=
    ⟨fun a ha => absurd ha (Nat.not_lt_zero a), fun ref a hlookup => by cases hlookup⟩
  obtain ⟨hkept, hmembers⟩ := Store.readExports_keeps hempty hread
  exact ⟨⟨fun a ha => (hkept.sound.elements a ha).mono ⟨le_rfl, fun _ _ => rfl⟩, hmembers⟩, rfl⟩

/-- A sound graph is `WellSorted`. -/
theorem Sound.wellSorted {graph : Graph} (h : graph.Sound) : graph.WellSorted := by
  have hsorted : ∀ a, (graph.element a).body.Sorted fun b => (graph.element b).kind := by
    intro a
    by_cases ha : a < graph.size
    · exact (h.elements a ha).sorted
    · rw [element_of_size_le (Nat.le_of_not_lt ha)]
      trivial
  constructor <;> intro a instances hbody i hi
  · have hinstances := hsorted a
    rw [hbody] at hinstances
    exact hinstances i hi
  · have hinstances := hsorted a
    rw [hbody] at hinstances
    exact hinstances i hi

end Graph

end ModuleSurface
