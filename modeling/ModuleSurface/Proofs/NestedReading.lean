import ModuleSurface.Proofs.Faults

/-! # How deep reading nests

A map becomes an element once, and it does so before what it refers to is read. So the maps that
become elements inside each other are different ones, and reading nests at most as deep as there are
maps to be reached, on every document: what would be done at a greater depth does not matter.

* **`Store.readWithin`** — reading elements where calls nest within a bound.
* **`Store.readNested`** — reading elements where only the maps that become elements are counted.
* **`Reading.Agree`** — steps of reading that do the same where something is kept.
* **`Graph.ofDocumentBy_readNested`**, **`Graph.ofDocumentBy_readWithin`** — the number of maps to be
  reached is bound enough. -/

namespace ModuleSurface

/-! ## Readers with a bound -/

namespace Store

variable (store : Store)

/-- **Making an element of a map** with a head: it is allocated, then its members are read, then its
links. -/
def construct (reader : ElementReader) (ref : Nat) (head : Element) : Reading Handle := do
  let h ← Reading.allocate ref head
  let members ← store.readMembers reader ((store.entries ref).field "members")
  Reading.replace h { head with members }
  let body ← store.readLinks reader head.name (store.entries ref) head.body
  Reading.replace h { head with members, body }
  return h

/-- Reading an element where a new map is made one in a certain way. -/
def readBy (make : Nat → Element → Reading Handle) : ElementReader := fun v inherited =>
  match v with
  | .map ref => do
    match ← Reading.known? ref with
    | some h => return h
    | none =>
      let head ← store.readHead (store.entries ref) inherited
      make ref head
  | v => throw (.format (.elementNotMap v.typeName))

/-- **Reading elements within a bound** on how deep calls nest, known maps included. A call that is
nested deeper is handed to another reader. -/
def readWithin (deeper : ElementReader) : Nat → ElementReader
  | 0 => deeper
  | bound + 1 => store.readBy (store.construct (readWithin deeper bound))

/-- **Reading elements within a bound** on how many maps become elements inside each other. A map
that would become one deeper inside is made one in another way. -/
def readNested (deeper : Nat → Element → Reading Handle) : Nat → ElementReader
  | 0 => store.readBy deeper
  | bound + 1 => store.readBy (store.construct (readNested deeper bound))

/-- Elements are read within a bound that fails where it is used up: `readElement` is a
`readWithin`. -/
theorem readElement_eq_readWithin (fuel : Nat) :
    store.readElement fuel = store.readWithin (fun _ _ => throw .nestedTooDeep) fuel := by
  induction fuel with
  | zero => rfl
  | succ fuel ih =>
    funext v inherited
    rw [readWithin, ← ih]
    cases v <;> rfl

end Store

/-- **Reading a document with a reader of elements.** -/
def Graph.ofDocumentBy (document : Document) (reader : ElementReader) : Except DecodeError Graph :=
  match document.root with
  | .map ref => do
    let entries := document.store.entries ref
    let (exports, progress) ← document.store.readExportsBy reader (entries.field "exports") {}
    return {
      store := document.store
      elements := progress.elements
      exports
      is64Bit := document.store.truthy ((entries.field? "is_64bit").getD (.bool false)) }
  | _ => refuse .rootNotMap

/-- A document is read by the reader of its store, `readElement`, with one call more than there are
maps. -/
theorem Graph.ofDocument_eq_by (document : Document) : ofDocument document
    = ofDocumentBy document (document.store.readElement (document.store.maps.size + 1)) := by
  obtain ⟨store, root⟩ := document
  cases root with
  | map ref =>
    rw [ofDocument_map]
    show _ = store.readExports ((store.entries ref).field "exports") {} >>= _
    cases store.readExports ((store.entries ref).field "exports") {} <;> rfl
  | _ => rfl

/-! ## Steps that do the same -/

namespace Reading

variable {α β : Type} {kept : Progress → Prop}

/-- **Two steps of reading agree** where something is kept: they do the same, and keep it. -/
def Agree (kept : Progress → Prop) (x y : Reading α) : Prop :=
  ∀ before, kept before → x before = y before ∧ ∀ a after, y before = .ok (a, after) → kept after

namespace Agree

variable {x y : Reading α} {f g : α → Reading β}

/-- A step that does nothing agrees with itself. -/
theorem pure (a : α) : Agree kept (Pure.pure a : Reading α) (Pure.pure a) := by
  intro before hkept
  refine ⟨rfl, fun b after h => ?_⟩
  cases h
  exact hkept

/-- A step that fails agrees with itself. -/
theorem throw (cause : DecodeError) :
    Agree kept (MonadExcept.throw cause : Reading α) (MonadExcept.throw cause) :=
  fun _ _ => ⟨rfl, fun _ _ h => by cases h⟩

/-- A step after a step agrees when both do. -/
theorem bind (hx : Agree kept x y) (hf : ∀ a, Agree kept (f a) (g a)) :
    Agree kept (x >>= f) (y >>= g) := by
  intro before hkept
  obtain ⟨hsame, hafter⟩ := hx before hkept
  rw [readBind_apply, readBind_apply, hsame]
  cases hrun : y before with
  | error cause => exact ⟨rfl, fun _ _ h => by cases h⟩
  | ok read =>
    obtain ⟨a, middle⟩ := read
    exact hf a middle (hafter a middle hrun)

/-- Looking at an element keeps everything. -/
theorem element (h : Handle) : Agree kept (Reading.element h) (Reading.element h) := by
  intro before hkept
  refine ⟨rfl, fun a after hrun => ?_⟩
  cases hrun
  exact hkept

/-- Steps that agree one by one agree: `Agree` is `Congruent`. -/
theorem congruent (store : Store) : Congruent store (Agree kept) where
  pure a := .pure a
  throw _ := .throw _
  bind hx hf := hx.bind hf
  checkSort sort h := (Agree.element h).bind fun element => by
    split
    · exact .pure h
    · exact .throw _

end Agree

end Reading

namespace Store

open Reading (Agree)

variable {store : Store} {reached : Nat → Prop} {kept : Progress → Prop} {reader other : ElementReader}

/-- **Two readers of elements agree** on maps among some. -/
def ReadersAgree (reached : Nat → Prop) (kept : Progress → Prop) (reader other : ElementReader) :
    Prop :=
  ∀ (v : Value) (inherited : Option Value), (∀ ref, v = .map ref → reached ref) →
    Agree kept (reader v inherited) (other v inherited)

/-- Readers that agree do the same on calls of maps among some. -/
theorem ReadersAgree.relatedOn (hreader : ReadersAgree reached kept reader other)
    {calls : List (Value × Option Value)} (hreached : ∀ r ∈ calledMaps calls, reached r) :
    Reading.RelatedOn (Agree kept) reader other calls :=
  fun call hcall => hreader call.1 call.2 fun _ hr => hreached _ (mem_calledMaps hcall hr)

/-! ## What is left to be read -/

/-- **What is left**: at most so many of some maps are not known. -/
def Left (maps : Finset Nat) (bound : Nat) (progress : Progress) : Prop :=
  (maps.filter fun ref => progress.known.lookup ref = none).card ≤ bound

/-- What is left within a bound is left within a greater one. -/
theorem Left.succ {maps : Finset Nat} {bound : Nat} {progress : Progress}
    (h : Left maps bound progress) : Left maps (bound + 1) progress :=
  Nat.le_succ_of_le h

/-- All maps may be left, if they are no more than `bound`. -/
theorem left_of_card_le {maps : Finset Nat} {bound : Nat} (h : maps.card ≤ bound)
    (progress : Progress) : Left maps bound progress :=
  (Finset.card_filter_le _ _).trans h

/-- A map that is left is one less when it is allocated. -/
theorem Left.allocated {maps : Finset Nat} {bound : Nat} {before : Progress} {ref : Nat}
    {head : Element} (h : Left maps (bound + 1) before) (hmem : ref ∈ maps)
    (hfresh : before.known.lookup ref = none) : Left maps bound (before.allocated ref head) := by
  refine Nat.le_of_lt_succ (lt_of_lt_of_le (card_filter_lt (fun other hother => ?_) hmem hfresh ?_) h)
  · exact (Progress.lookup_allocated_eq_none_iff.mp hother).2
  · exact fun hknown => (Progress.lookup_allocated_eq_none_iff.mp hknown).1 rfl

/-- Where nothing is left, every one of the maps is known. -/
theorem Left.exists_known {maps : Finset Nat} {progress : Progress} (h : Left maps 0 progress)
    {ref : Nat} (hmem : ref ∈ maps) : ∃ a, progress.known.lookup ref = some a := by
  refine Option.ne_none_iff_exists'.mp fun hnone => ?_
  have hempty := Finset.card_eq_zero.mp (Nat.le_zero.mp h)
  exact Finset.notMem_empty ref (hempty ▸ Finset.mem_filter.mpr ⟨hmem, hnone⟩)

/-! ## Elements -/

/-- A map that is known is its element. -/
theorem readBy_known {make : Nat → Element → Reading Handle} {before : Progress} {ref : Nat}
    {inherited : Option Value} {a : Handle} (hlookup : before.known.lookup ref = some a) :
    store.readBy make (.map ref) inherited before = .ok (a, before) := by
  have hknown : Reading.known? ref before = .ok (some a, before) := by
    rw [Reading.known?, hlookup]
  rw [readBy, readBind_of_ok hknown]
  rfl

/-- A new map is made an element behind its head. -/
theorem readBy_new {make : Nat → Element → Reading Handle} {before : Progress} {ref : Nat}
    {inherited : Option Value} (hfresh : before.known.lookup ref = none) :
    store.readBy make (.map ref) inherited before = (do
      let head ← store.readHead (store.entries ref) inherited
      make ref head before) := by
  have hknown : Reading.known? ref before = .ok (none, before) := by
    rw [Reading.known?, hfresh]
  rw [readBy, readBind_of_ok hknown]
  dsimp only
  rw [readBind_apply, lift_apply, bind_assoc]
  rfl

/-- A map is made an element in the same way by readers that agree on what it refers to. -/
theorem construct_agree {maps : Finset Nat} {bound ref : Nat} {head : Element}
    {inherited : Option Value} (hreader : ReadersAgree reached (Left maps bound) reader other)
    (hrefers : ∀ r ∈ store.refersTo ref, reached r)
    (hread : store.readHead (store.entries ref) inherited = .ok head) (hmem : ref ∈ maps)
    {before : Progress} (hleft : Left maps (bound + 1) before)
    (hfresh : before.known.lookup ref = none) :
    store.construct reader ref head before = store.construct other ref head before ∧
      ∀ a after, store.construct other ref head before = .ok (a, after) →
        Left maps (bound + 1) after := by
  have hreplace (h : Handle) (element : Element) :
      Agree (Left maps bound) (Reading.replace h element) (Reading.replace h element) := by
    refine fun middle hmiddle => ⟨rfl, fun _ after hrun => ?_⟩
    cases hrun
    exact hmiddle
  have hmembers : Agree (Left maps bound)
      (store.readMembers reader ((store.entries ref).field "members"))
      (store.readMembers other ((store.entries ref).field "members")) := by
    refine (Agree.congruent store).readMembers (hreader.relatedOn fun r hr => hrefers r ?_)
    exact List.mem_append_left _ hr
  have hlinks : Agree (Left maps bound)
      (store.readLinks reader head.name (store.entries ref) head.body)
      (store.readLinks other head.name (store.entries ref) head.body) := by
    refine (Agree.congruent store).readLinks (hreader.relatedOn fun r hr => hrefers r ?_)
    rw [Store.refersTo, kind_of_readHead hread]
    rw [calledMaps_linkCalls_name head.name .null] at hr
    exact List.mem_append_right _ hr
  -- what is behind the allocation agrees with one map less to be read
  have hinside := hmembers.bind fun members => (hreplace before.elements.size
    { head with members }).bind fun _ => hlinks.bind fun body => (hreplace before.elements.size
      { head with members, body }).bind fun _ => Agree.pure before.elements.size
  obtain ⟨hsame, hafter⟩ := hinside _ (hleft.allocated hmem hfresh)
  exact ⟨hsame, fun a after hrun => (hafter a after hrun).succ⟩

/-- Readers agree that make new maps elements in the same way. -/
theorem readBy_agree {make make' : Nat → Element → Reading Handle}
    (hmake : ∀ ref head inherited before, reached ref →
      store.readHead (store.entries ref) inherited = .ok head → kept before →
      before.known.lookup ref = none → make ref head before = make' ref head before ∧
        ∀ a after, make' ref head before = .ok (a, after) → kept after) :
    ReadersAgree reached kept (store.readBy make) (store.readBy make') := by
  intro v inherited hreached before hkept
  cases v with
  | map ref =>
    cases hlookup : before.known.lookup ref with
    | some a =>
      rw [readBy_known hlookup, readBy_known hlookup]
      exact Agree.pure a before hkept
    | none =>
      rw [readBy_new hlookup, readBy_new hlookup]
      cases hread : store.readHead (store.entries ref) inherited with
      | error cause => exact ⟨rfl, fun _ _ h => by cases h⟩
      | ok head => exact hmake ref head inherited before (hreached ref rfl) hread hkept hlookup
  | _ => exact Agree.throw _ before hkept

/-- **Both bounds are enough**: where the bound on the maps that become elements is no less than
what is left, `readNested` is `readWithin` for every greater bound on calls. -/
theorem readNested_agree {maps : Finset Nat}
    (hclosed : ∀ r, reached r → ∀ s ∈ store.refersTo r, reached s)
    (hmaps : ∀ r, reached r → r < store.maps.size → r ∈ maps)
    (deeper : Nat → Element → Reading Handle) (deeper' : ElementReader) (bound more : Nat) :
    ReadersAgree reached (Left maps bound) (store.readNested deeper bound)
      (store.readWithin deeper' (bound + more + 1)) := by
  induction bound with
  | zero =>
    refine readBy_agree fun ref head inherited before href hread hleft hfresh => ?_
    -- nothing is left, so every map that has a head is known
    obtain ⟨a, hknown⟩ := hleft.exists_known (hmaps ref href (inside_of_readHead hread))
    rw [hfresh] at hknown
    cases hknown
  | succ bound ih =>
    rw [Nat.add_right_comm bound 1 more]
    exact readBy_agree fun ref head inherited before href hread hleft hfresh =>
      construct_agree ih (hclosed ref href) hread (hmaps ref href (inside_of_readHead hread)) hleft
        hfresh

end Store

/-! ## Documents -/

/-- Readers that agree on what a document reaches read the same from it. -/
theorem Graph.ofDocumentBy_congr {document : Document} {kept : Progress → Prop}
    {reader other : ElementReader} (hreader : Store.ReadersAgree document.Reaches kept reader other)
    (hstart : kept {}) : ofDocumentBy document reader = ofDocumentBy document other := by
  have hroots : ∀ r ∈ document.exportedMaps, document.Reaches r := fun r hr => .root hr
  obtain ⟨store, root⟩ := document
  cases root with
  | map ref =>
    have hexports : store.readExportsBy reader ((store.entries ref).field "exports") {}
        = store.readExportsBy other ((store.entries ref).field "exports") {} := by
      have hcalls : Reading.RelatedOn (Reading.Agree kept) reader other
          (store.exportCalls ((store.entries ref).field "exports")) := hreader.relatedOn hroots
      exact ((Reading.Agree.congruent store).readExportsBy hcalls {} hstart).1
    unfold ofDocumentBy
    simp only [hexports]
  | _ => rfl

namespace Document

open scoped Classical in
/-- **The maps of a document that it reaches.** -/
noncomputable def reachedMaps (document : Document) : Finset Nat :=
  (Finset.range document.store.maps.size).filter document.Reaches

/-- The maps that are counted are those of the store that can be reached. -/
theorem mem_reachedMaps {document : Document} {ref : Nat} :
    ref ∈ document.reachedMaps ↔ document.Reaches ref ∧ ref < document.store.maps.size := by
  classical
  rw [reachedMaps, Finset.mem_filter, Finset.mem_range, and_comm]

/-- No more maps are reached than the store has:
`document.reachedMaps.card ≤ document.store.maps.size`. -/
theorem card_reachedMaps_le (document : Document) :
    document.reachedMaps.card ≤ document.store.maps.size := by
  classical
  exact (Finset.card_filter_le _ _).trans_eq (Finset.card_range _)

end Document

namespace Graph

variable {document : Document} {bound : Nat}

/-- Bounds that are no less than the number of maps to be reached are the same. -/
theorem ofDocumentBy_readNested_eq_readWithin (hbound : document.reachedMaps.card ≤ bound)
    (deeper : Nat → Element → Reading Handle) (deeper' : ElementReader) (more : Nat) :
    ofDocumentBy document (document.store.readNested deeper bound)
      = ofDocumentBy document (document.store.readWithin deeper' (bound + more + 1)) :=
  ofDocumentBy_congr (Store.readNested_agree (fun _ hr _ hs => .step hr hs)
    (fun _ hr hsize => Document.mem_reachedMaps.mpr ⟨hr, hsize⟩) deeper deeper' bound more)
    (Store.left_of_card_le hbound {})

/-- **Calls nest one deeper at most** than there are maps to be reached: what is done any `deeper`
inside does not matter. -/
theorem ofDocumentBy_readWithin (hbound : document.reachedMaps.card ≤ bound)
    (deeper : ElementReader) :
    ofDocumentBy document (document.store.readWithin deeper (bound + 1)) = ofDocument document := by
  obtain ⟨more, hmore⟩ := Nat.exists_eq_add_of_le hbound
  obtain ⟨rest, hrest⟩ := Nat.exists_eq_add_of_le document.card_reachedMaps_le
  -- whatever the bound, reading is what it is within the least one
  have hleast (deeper : ElementReader) (n : Nat) :=
    ofDocumentBy_readNested_eq_readWithin (le_refl document.reachedMaps.card)
      (fun _ _ => throw .nestedTooDeep) deeper n
  rw [ofDocument_eq_by, Store.readElement_eq_readWithin, hrest, ← hleast _ rest, hmore, ← hleast _ more]

/-- **Maps become elements inside each other** at most as often as there are maps to be reached: how
a map is made an element any `deeper` inside does not matter. -/
theorem ofDocumentBy_readNested (hbound : document.reachedMaps.card ≤ bound)
    (deeper : Nat → Element → Reading Handle) :
    ofDocumentBy document (document.store.readNested deeper bound) = ofDocument document := by
  rw [ofDocumentBy_readNested_eq_readWithin hbound deeper (fun _ _ => throw .nestedTooDeep) 0]
  exact ofDocumentBy_readWithin hbound _

/-- **Reading a document never nests too deep**: `ofDocument` does not fail with `nestedTooDeep`. -/
theorem ofDocument_ne_nestedTooDeep (document : Document) :
    ofDocument document ≠ .error .nestedTooDeep := by
  obtain ⟨store, root⟩ := document
  cases root with
  | map ref =>
    intro h
    rw [ofDocument_map] at h
    cases hrun : store.readExports ((store.entries ref).field "exports") {} with
    | ok read => rw [hrun] at h; cases h
    | error cause =>
      rw [hrun] at h
      cases h
      have hstops := @Store.stops_readExports store (fun _ => True) _ (fun _ _ _ _ => trivial)
        (fun _ _ => trivial) _ hrun
      cases hstops
  | _ => exact nofun

end Graph

end ModuleSurface
