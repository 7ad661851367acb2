import ModuleSurface.Proofs.Spelling

/-! # Reading what maps spell

A document whose maps spell elements is read depth first: a map becomes the element that it spells,
with each reference replaced by the place at which the map was found. The search is that of
`DepthFirst` over the maps, so what reading gives can be said without the state of reading.

* **`Spelled`** — a set of maps spells elements, and is closed under what these refer to.
* **`Known`**, **`Advances`** — what is known while maps are being read, and what reading more of
  them adds.
* **`Graph.ofDocument_of_spelled`** — a document whose maps spell elements is read. -/

namespace ModuleSurface

/-- **Maps that spell elements**: each map of a set spells the element that is given for it, refers
to maps of the set only, and its instances and base are of their sort. -/
structure Spelled (store : Store) (spelled : Nat → Element) (within : Nat → Prop) : Prop where
  spells (r : Nat) : within r → store.Spells (spelled r) (store.entries r)
  closed (r : Nat) : within r → ∀ s ∈ (spelled r).successors, within s
  sorted (r : Nat) : within r → (spelled r).body.Sorted fun s => (spelled s).kind
  bound (r : Nat) : within r → r < store.maps.size

/-- **What is known** when some maps have been found, of which some may still be open: every one has
an element of its kind, in the order in which they were found. -/
structure Known (spelled : Nat → Element) (found : List Nat) (progress : Progress) : Prop where
  size : progress.elements.size = found.length
  lookup (r : Nat) : progress.known.lookup r = if r ∈ found then some (found.idxOf r) else none
  kind (r : Nat) : r ∈ found → (progress.element (found.idxOf r)).kind = (spelled r).kind

/-- **What reading more maps adds**: they are known and read completely, and what was there before
is unchanged. -/
structure Advances (spelled : Nat → Element) (found new : List Nat) (before after : Progress) :
    Prop where
  known : Known spelled (found ++ new) after
  kept (i : Nat) : i < found.length → after.element i = before.element i
  read (r : Nat) : r ∈ new →
    after.element ((found ++ new).idxOf r) = (spelled r).map (found ++ new).idxOf
  closed (r : Nat) : r ∈ new → ∀ s ∈ (spelled r).successors, s ∈ found ++ new

/-- What was waiting for a search keeps its place when more is found. -/
theorem DepthFirst.idxOf_append {next : Nat → List Nat} {found waiting : List Nat}
    {forest : Forest Nat} (h : DepthFirst next found waiting forest) {r : Nat} (hr : r ∈ waiting)
    (more : List Nat) : (found ++ forest.preorder ++ more).idxOf r
      = (found ++ forest.preorder).idxOf r :=
  List.idxOf_append_of_mem (List.mem_append.mpr (h.waiting_found hr))

namespace Advances

variable {spelled : Nat → Element} {found new new' : List Nat} {before middle after : Progress}

/-- Nothing more is read, and the progress stays. -/
theorem refl (h : Known spelled found before) : Advances spelled found [] before before where
  known := by rwa [List.append_nil]
  kept _ _ := rfl
  read r hr := absurd hr List.not_mem_nil
  closed r hr := absurd hr List.not_mem_nil

/-- Places do not move when more is found: `(first ++ second).idxOf r = first.idxOf r`. -/
theorem idxOf_append_left {first second : List Nat} {r : Nat} (h : r ∈ first) :
    (first ++ second).idxOf r = first.idxOf r :=
  List.idxOf_append_of_mem h

/-- **Reading some maps and then more.** -/
theorem trans (h : Advances spelled found new before middle)
    (h' : Advances spelled (found ++ new) new' middle after) :
    Advances spelled found (new ++ new') before after where
  known := by
    rw [← List.append_assoc]
    exact h'.known
  kept i hi := by
    rw [h'.kept i (by rw [List.length_append]; omega), h.kept i hi]
  read r hr := by
    rw [← List.append_assoc]
    rcases List.mem_append.mp hr with hr | hr
    · have hmem : r ∈ found ++ new := List.mem_append_right _ hr
      rw [idxOf_append_left hmem, h'.kept _ (List.idxOf_lt_length_of_mem hmem), h.read r hr]
      exact Element.map_congr fun s hs => (idxOf_append_left (h.closed r hr s hs)).symm
    · exact h'.read r hr
  closed r hr s hs := by
    rw [← List.append_assoc]
    rcases List.mem_append.mp hr with hr | hr
    · exact List.mem_append_left _ (h.closed r hr s hs)
    · exact h'.closed r hr s hs

end Advances

namespace Store

variable {store : Store} {spelled : Nat → Element} {within : Nat → Prop} {reader : ElementReader}
  {fuel : Nat} {found : List Nat} {forest : Forest Nat} {before : Progress}

/-! ## Reading what is referred to -/

/-- **A reader that reads what maps spell**, as long as the search nests less deep than the fuel:
a map is read as its place among the maps that have been found. -/
def ReadsBack (spelled : Nat → Element) (within : Nat → Prop) (fuel : Nat)
    (reader : ElementReader) : Prop :=
  ∀ (r : Nat) (inherited : Option Value) (found : List Nat) (forest : Forest Nat)
    (before : Progress), within r → DepthFirst (fun r => (spelled r).successors) found [r] forest →
    forest.height < fuel → Known spelled found before →
    ∃ after, reader (.map r) inherited before
        = .ok ((found ++ forest.preorder).idxOf r, after) ∧
      Advances spelled found forest.preorder before after

/-- A member map is read entry after entry. -/
theorem readEntries_of_spelled (hreader : ReadsBack spelled within fuel reader) {members : Members}
    (hwithin : ∀ a ∈ members.map (·.2), within a)
    (hsearch : DepthFirst (fun r => (spelled r).successors) found (members.map (·.2)) forest)
    (hheight : forest.height < fuel) (hknown : Known spelled found before) :
    ∃ after, readEntries reader (members.map fun entry => (entry.1, Value.map entry.2)) before
        = .ok (members.rename (found ++ forest.preorder).idxOf, after) ∧
      Advances spelled found forest.preorder before after := by
  induction members generalizing found forest before with
  | nil =>
    cases hsearch
    exact ⟨before, rfl, .refl hknown⟩
  | cons entry members ih =>
    obtain ⟨key, r⟩ := entry
    obtain ⟨first, second, rfl, hfirst, hsecond⟩ :=
      DepthFirst.cons_iff.mp hsearch
    rw [Forest.height_append] at hheight
    obtain ⟨middle, hread, hadvances⟩ := hreader r (some (.scalar key)) found first before
      (hwithin r List.mem_cons_self) hfirst (by omega) hknown
    obtain ⟨after, hrest, hadvances'⟩ :=
      ih (fun a ha => hwithin a (List.mem_cons_of_mem r ha)) hsecond (by omega) hadvances.known
    -- the place of the first map is settled before the others are found
    rw [Forest.preorder_append, ← List.append_assoc]
    refine ⟨after, ?_, hadvances.trans hadvances'⟩
    rw [Members.rename_cons, hfirst.idxOf_append List.mem_cons_self]
    exact readBind_eq_ok_iff.mpr ⟨_, _, hread, readBind_eq_ok_iff.mpr ⟨_, _, hrest, rfl⟩⟩

/-- A value that spells a member map is read by `readMembers` as the member map. -/
theorem readMembers_of_spelled (hreader : ReadsBack spelled within fuel reader) {v : Value}
    {members : Option Members} (hspells : store.SpellsMembers v members)
    (hwithin : ∀ a ∈ (members.getD []).map (·.2), within a)
    (hsearch : DepthFirst (fun r => (spelled r).successors) found ((members.getD []).map (·.2))
      forest)
    (hheight : forest.height < fuel) (hknown : Known spelled found before) :
    ∃ after, store.readMembers reader v before
        = .ok (members.map (Members.rename (found ++ forest.preorder).idxOf), after) ∧
      Advances spelled found forest.preorder before after := by
  cases members with
  | none =>
    obtain rfl : v = .null := hspells
    cases hsearch
    exact ⟨before, rfl, .refl hknown⟩
  | some members =>
    obtain ⟨ref, rfl, hentries⟩ := hspells
    obtain ⟨after, hread, hadvances⟩ := readEntries_of_spelled hreader hwithin hsearch hheight hknown
    refine ⟨after, ?_, hadvances⟩
    rw [readMembers, hentries]
    exact readBind_eq_ok_iff.mpr ⟨_, _, hread, rfl⟩

/-- An instance is read as the element of its map, which is of the sort that is asked for. -/
theorem readInstance_of_spelled (hreader : ReadsBack spelled within fuel reader)
    {sort : InstanceSort} (inherited : Option Value) {r : Nat} (hwithin : within r)
    (hadmits : sort.admits (spelled r).kind = true)
    (hsearch : DepthFirst (fun r => (spelled r).successors) found [r] forest)
    (hheight : forest.height < fuel) (hknown : Known spelled found before) :
    ∃ after, readInstance reader sort inherited (.map r) before
        = .ok ((found ++ forest.preorder).idxOf r, after) ∧
      Advances spelled found forest.preorder before after := by
  obtain ⟨after, hread, hadvances⟩ :=
    hreader r inherited found forest before hwithin hsearch hheight hknown
  refine ⟨after, readBind_eq_ok_iff.mpr ⟨_, _, hread, ?_⟩, hadvances⟩
  have hr : r ∈ found ++ forest.preorder :=
    List.mem_append.mpr (hsearch.waiting_found List.mem_cons_self)
  rw [← hadvances.known.kind r hr] at hadmits
  rw [Progress.element] at hadmits
  refine readBind_eq_ok_iff.mpr ⟨_, _, rfl, ?_⟩
  rw [if_pos hadmits]
  rfl

/-- Instances are read one after the other. -/
theorem readInstanceList_of_spelled (hreader : ReadsBack spelled within fuel reader)
    {sort : InstanceSort} (inherited : Option Value) {instances : List Nat}
    (hwithin : ∀ a ∈ instances, within a)
    (hadmits : ∀ a ∈ instances, sort.admits (spelled a).kind = true)
    (hsearch : DepthFirst (fun r => (spelled r).successors) found instances forest)
    (hheight : forest.height < fuel) (hknown : Known spelled found before) :
    ∃ after, readInstanceList reader sort inherited (instances.map Value.map) before
        = .ok (instances.map (found ++ forest.preorder).idxOf, after) ∧
      Advances spelled found forest.preorder before after := by
  induction instances generalizing found forest before with
  | nil =>
    cases hsearch
    exact ⟨before, rfl, .refl hknown⟩
  | cons r instances ih =>
    obtain ⟨first, second, rfl, hfirst, hsecond⟩ :=
      DepthFirst.cons_iff.mp hsearch
    rw [Forest.height_append] at hheight
    obtain ⟨middle, hread, hadvances⟩ :=
      readInstance_of_spelled hreader inherited (hwithin r List.mem_cons_self)
        (hadmits r List.mem_cons_self) hfirst (by omega) hknown
    obtain ⟨after, hrest, hadvances'⟩ := ih (fun a ha => hwithin a (List.mem_cons_of_mem r ha))
      (fun a ha => hadmits a (List.mem_cons_of_mem r ha)) hsecond (by omega) hadvances.known
    rw [Forest.preorder_append, ← List.append_assoc]
    refine ⟨after, ?_, hadvances.trans hadvances'⟩
    rw [List.map_cons, List.map_cons, hfirst.idxOf_append List.mem_cons_self]
    exact readBind_eq_ok_iff.mpr ⟨_, _, hread, readBind_eq_ok_iff.mpr ⟨_, _, hrest, rfl⟩⟩

/-- The instances of a prototype are read; no instances at all count as false. -/
theorem readInstances_of_spelled (hreader : ReadsBack spelled within fuel reader)
    {sort : InstanceSort} (name : Value) {ref : Nat} {instances : List Nat}
    (hitems : store.items ref = instances.map Value.map) (hwithin : ∀ a ∈ instances, within a)
    (hadmits : ∀ a ∈ instances, sort.admits (spelled a).kind = true)
    (hsearch : DepthFirst (fun r => (spelled r).successors) found instances forest)
    (hheight : forest.height < fuel) (hknown : Known spelled found before) :
    ∃ after, store.readInstances reader sort name (.list ref) before
        = .ok (instances.map (found ++ forest.preorder).idxOf, after) ∧
      Advances spelled found forest.preorder before after := by
  have htruthy : store.truthy (.list ref) = !instances.isEmpty := by
    simp [truthy, hitems]
  rw [readInstances, htruthy, hitems]
  cases instances with
  | nil =>
    cases hsearch
    exact ⟨before, rfl, .refl hknown⟩
  | cons r instances =>
    exact readInstanceList_of_spelled hreader (some name) hwithin hadmits hsearch hheight hknown

/-- The base of a class is read, if it has one. -/
theorem readBase_of_spelled (hreader : ReadsBack spelled within fuel reader) {base : Option Nat}
    (hwithin : ∀ a ∈ base.toList, within a)
    (hadmits : ∀ a, base = some a → InstanceSort.classLike.admits (spelled a).kind = true)
    (hsearch : DepthFirst (fun r => (spelled r).successors) found base.toList forest)
    (hheight : forest.height < fuel) (hknown : Known spelled found before) :
    ∃ after, readBase reader (Value.ofOption (base.map Value.map)) before
        = .ok (base.map (found ++ forest.preorder).idxOf, after) ∧
      Advances spelled found forest.preorder before after := by
  cases base with
  | none =>
    cases hsearch
    exact ⟨before, rfl, .refl hknown⟩
  | some b =>
    obtain ⟨after, hread, hadvances⟩ := readInstance_of_spelled hreader none
      (hwithin b List.mem_cons_self) (hadmits b rfl) hsearch hheight hknown
    exact ⟨after, readBind_eq_ok_iff.mpr ⟨_, _, hread, rfl⟩, hadvances⟩

/-- What a class refers to is read: its base, and then its member maps. -/
theorem readClassLinks_of_spelled (hreader : ReadsBack spelled within fuel reader)
    {entries : Entries} {links : ClassLinks}
    (hspells : store.SpellsLinks entries (.classType links))
    (hwithin : ∀ a ∈ (Body.classType links).links, within a)
    (hsorted : (Body.classType links).Sorted fun a => (spelled a).kind)
    (hsearch : DepthFirst (fun r => (spelled r).successors) found (Body.classType links).links
      forest)
    (hheight : forest.height < fuel) (hknown : Known spelled found before) :
    ∃ after, store.readClassLinks reader entries before
        = .ok (links.map (found ++ forest.preorder).idxOf, after) ∧
      Advances spelled found forest.preorder before after := by
  obtain ⟨hbase, hstatics, hmembers⟩ := hspells
  rw [Body.links, List.append_assoc] at hsearch
  obtain ⟨first, rest, rfl, hfirst, hrest⟩ := DepthFirst.append_iff.mp hsearch
  obtain ⟨second, third, rfl, hsecond, hthird⟩ := DepthFirst.append_iff.mp hrest
  simp only [Forest.height_append] at hheight
  have hinside : ∀ a, a ∈ links.base.toList ∨ a ∈ (links.staticMembers.getD []).map (·.2) ∨
      a ∈ (links.instanceMembers.getD []).map (·.2) → within a := by
    intro a ha
    refine hwithin a ?_
    simp only [Body.links, List.mem_append]
    tauto
  obtain ⟨p₁, hread₁, hadvances₁⟩ := readBase_of_spelled hreader
    (fun a ha => hinside a (.inl ha)) hsorted hfirst (by omega) hknown
  obtain ⟨p₂, hread₂, hadvances₂⟩ := readMembers_of_spelled hreader hstatics
    (fun a ha => hinside a (.inr (.inl ha))) hsecond (by omega) hadvances₁.known
  obtain ⟨p₃, hread₃, hadvances₃⟩ := readMembers_of_spelled hreader hmembers
    (fun a ha => hinside a (.inr (.inr ha))) hthird (by omega) hadvances₂.known
  have hadvances := hadvances₁.trans (hadvances₂.trans (by simpa using hadvances₃))
  refine ⟨p₃, ?_, by simpa using hadvances⟩
  -- the places that the base and the static members got do not move any more
  have hlinks : links.map (found ++ (first.append (second.append third)).preorder).idxOf
      = ⟨links.base.map (found ++ first.preorder).idxOf,
        links.staticMembers.map (Members.rename (found ++ first.preorder ++ second.preorder).idxOf),
        links.instanceMembers.map (Members.rename
          (found ++ first.preorder ++ second.preorder ++ third.preorder).idxOf)⟩ := by
    simp only [Forest.preorder_append, ClassLinks.map, ← List.append_assoc]
    rw [Option.map_congr fun a ha => ?_, Members.map_rename_congr fun a ha => ?_]
    · rw [hsecond.idxOf_append ha]
    · rw [List.append_assoc, hfirst.idxOf_append (Option.mem_toList.mpr ha)]
  rw [readClassLinks_eq, hbase, hlinks]
  exact readBind_eq_ok_iff.mpr ⟨_, _, hread₁, readBind_eq_ok_iff.mpr ⟨_, _, hread₂,
    readBind_eq_ok_iff.mpr ⟨_, _, hread₃, rfl⟩⟩⟩

/-- **Links that entries spell** are read by `readLinks`, for a body that is bare so far. -/
theorem readLinks_of_spelled (hreader : ReadsBack spelled within fuel reader) (name : Value)
    {entries : Entries} {body : Body} (hspells : store.SpellsLinks entries body)
    (hwithin : ∀ a ∈ body.links, within a) (hsorted : body.Sorted fun a => (spelled a).kind)
    (hsearch : DepthFirst (fun r => (spelled r).successors) found body.links forest)
    (hheight : forest.height < fuel) (hknown : Known spelled found before) :
    ∃ after, store.readLinks reader name entries body.bare before
        = .ok (body.map (found ++ forest.preorder).idxOf, after) ∧
      Advances spelled found forest.preorder before after := by
  cases body with
  | functionPrototype instances | classPrototype instances =>
    obtain ⟨ref, hfield, hitems⟩ := hspells
    obtain ⟨after, hread, hadvances⟩ := readInstances_of_spelled hreader name hitems hwithin
      hsorted hsearch hheight hknown
    refine ⟨after, ?_, hadvances⟩
    rw [← hfield] at hread
    exact readBind_eq_ok_iff.mpr ⟨_, _, hread, rfl⟩
  | classType links | interfaceType links =>
    obtain ⟨after, hread, hadvances⟩ := readClassLinks_of_spelled hreader hspells hwithin hsorted
      hsearch hheight hknown
    exact ⟨after, readBind_eq_ok_iff.mpr ⟨_, _, hread, rfl⟩, hadvances⟩
  | _ =>
    cases hsearch
    exact ⟨before, rfl, .refl hknown⟩

end Store

/-! ## Reading elements -/

namespace Known

variable {spelled : Nat → Element} {found : List Nat} {before : Progress} {r : Nat}

/-- A map that is found, and its head allocated. -/
theorem allocated (h : Known spelled found before) (hnew : r ∉ found) {head : Element}
    (hkind : head.kind = (spelled r).kind) :
    Known spelled (found ++ [r]) (before.allocated r head) where
  size := by simp [Progress.allocated, h.size]
  lookup s := by
    rw [Progress.allocated, List.lookup_cons, h.lookup, h.size]
    by_cases hs : s = r
    · subst hs
      simp [List.idxOf_append, hnew]
    · rw [beq_false_of_ne hs]
      by_cases hold : s ∈ found <;> simp [hs, hold, List.idxOf_append]
  kind s hs := by
    rw [Progress.element_allocated, h.size]
    by_cases hold : s ∈ found
    · have hplace := List.idxOf_lt_length_of_mem hold
      rw [Advances.idxOf_append_left hold, if_neg (Nat.ne_of_lt hplace)]
      exact h.kind s hold
    · obtain rfl : s = r := by simpa [hold] using hs
      simpa [List.idxOf_append, hnew] using hkind

/-- A map that is found, and its element replaced by one of its kind. -/
theorem replaced (h : Known spelled found before) (hold : r ∈ found) {element : Element}
    (hkind : element.kind = (spelled r).kind) :
    Known spelled found (before.replaced (found.idxOf r) element) where
  size := by simp [Progress.replaced, h.size]
  lookup := h.lookup
  kind s hs := by
    rw [Progress.element_replaced (by rw [h.size]; exact List.idxOf_lt_length_of_mem hold)]
    split
    · rename_i heq
      rw [hkind, (List.idxOf_inj hs).mp heq]
    · exact h.kind s hs

end Known

/-- **Reading a map that is new**: its head is allocated, some maps are read, its element is
replaced, more maps are read, and its element is replaced for good. -/
theorem Advances.node {spelled : Nat → Element} {found first second : List Nat} {r : Nat}
    {head half : Element} {before after₁ after₂ : Progress} (hknown : Known spelled found before)
    (hnew : r ∉ found) (hclosed : ∀ s ∈ (spelled r).successors, s ∈ found ++ r :: (first ++ second))
    (hfirst : Advances spelled (found ++ [r]) first (before.allocated r head) after₁)
    (hsecond : Advances spelled (found ++ [r] ++ first) second
      (after₁.replaced found.length half) after₂) :
    Advances spelled found (r :: (first ++ second)) before (after₂.replaced found.length
      ((spelled r).map (found ++ r :: (first ++ second)).idxOf)) := by
  have hwhole : found ++ r :: (first ++ second) = found ++ [r] ++ first ++ second := by simp
  have hplace : (found ++ r :: (first ++ second)).idxOf r = found.length := by
    simp [List.idxOf_append, hnew]
  have hsize₁ : found.length < after₁.elements.size := by
    simp only [hfirst.known.size, List.length_append, List.length_singleton]
    omega
  have hsize₂ : found.length < after₂.elements.size := by
    simp only [hsecond.known.size, List.length_append, List.length_singleton]
    omega
  -- nothing but the element of the map itself changes when it is replaced
  have hkept (i : Nat) (hi : i ≠ found.length) (hlt : i < (found ++ [r] ++ first).length) :
      after₂.element i = after₁.element i := by
    rw [hsecond.kept i hlt, Progress.element_replaced hsize₁, if_neg hi]
  have hne {s : Nat} (hs : s ≠ r) (hmem : s ∈ found ++ r :: (first ++ second)) :
      (found ++ r :: (first ++ second)).idxOf s ≠ found.length := by
    rw [← hplace]
    exact fun h => hs ((List.idxOf_inj hmem).mp h)
  refine ⟨?_, fun i hi => ?_, fun s hs => ?_, fun s hs => ?_⟩
  · have hknown₂ := hsecond.known
    rw [← hwhole] at hknown₂
    rw [← hplace]
    exact hknown₂.replaced (by simp) (Element.kind_map _ _)
  · rw [Progress.element_replaced hsize₂, if_neg hi.ne, hkept i hi.ne (by simp; omega),
      hfirst.kept i (by simp; omega), Progress.element_allocated, hknown.size, if_neg hi.ne]
  · rw [Progress.element_replaced hsize₂]
    by_cases hsr : s = r
    · rw [hsr, if_pos hplace]
    rw [if_neg (hne hsr (List.mem_append_right _ hs))]
    rcases List.mem_append.mp ((List.mem_cons.mp hs).resolve_left hsr) with hs' | hs'
    · have hmem : s ∈ found ++ [r] ++ first := List.mem_append_right _ hs'
      have hidx : (found ++ r :: (first ++ second)).idxOf s = (found ++ [r] ++ first).idxOf s := by
        rw [hwhole, Advances.idxOf_append_left hmem]
      have hother := hne hsr (List.mem_append_right _ hs)
      rw [hidx] at hother ⊢
      rw [hkept _ hother (List.idxOf_lt_length_of_mem hmem), hfirst.read s hs', hwhole]
      exact Element.map_congr fun t ht =>
        (Advances.idxOf_append_left (hfirst.closed s hs' t ht)).symm
    · rw [hwhole, hsecond.read s hs']
  · rcases List.mem_cons.mp hs with rfl | hs
    · exact hclosed
    rw [hwhole]
    rcases List.mem_append.mp hs with hs | hs
    · exact fun t ht => List.mem_append_left _ (hfirst.closed s hs t ht)
    · exact hsecond.closed s hs

namespace Store

variable {store : Store} {spelled : Nat → Element} {within : Nat → Prop}

/-- A map that is new is known before its members and links are read, each after the other. -/
theorem readElement_of_new (hspelled : Spelled store spelled within) {fuel : Nat}
    (hreader : ReadsBack spelled within fuel (store.readElement fuel)) {r : Nat}
    (inherited : Option Value) {found : List Nat} {first second : Forest Nat} {before : Progress}
    (hwithin : within r) (hnew : r ∉ found) (hheight : max first.height second.height < fuel)
    (hfirst : DepthFirst (fun r => (spelled r).successors) (found ++ [r])
      ((spelled r).memberItems.map (·.2)) first)
    (hsecond : DepthFirst (fun r => (spelled r).successors) (found ++ [r] ++ first.preorder)
      (spelled r).body.links second)
    (hknown : Known spelled found before) :
    ∃ after, store.readElement (fuel + 1) (.map r) inherited before = .ok (found.length, after) ∧
      Advances spelled found (r :: (first.preorder ++ second.preorder)) before after := by
  have hspells := hspelled.spells r hwithin
  have hclosed := hspelled.closed r hwithin
  let head : Element := ⟨(spelled r).name, (spelled r).flags, none, (spelled r).body.bare⟩
  have hknown₁ : Known spelled (found ++ [r]) (before.allocated r head) :=
    hknown.allocated hnew (Body.kind_bare _)
  obtain ⟨after₁, hmembers, hadvances₁⟩ := readMembers_of_spelled hreader hspells.members
    (fun a ha => hclosed a (List.mem_append_left _ ha)) hfirst (by omega) hknown₁
  -- the members are in place, and the body is still bare
  let half : Element := ⟨(spelled r).name, (spelled r).flags, (spelled r).members.map
    (Members.rename (found ++ [r] ++ first.preorder).idxOf), (spelled r).body.bare⟩
  have hplace : (found ++ [r] ++ first.preorder).idxOf r = found.length := by
    simp [List.idxOf_append, hnew]
  have hknown₂ : Known spelled (found ++ [r] ++ first.preorder)
      (after₁.replaced found.length half) := by
    rw [← hplace]
    exact hadvances₁.known.replaced (by simp) (Body.kind_bare _)
  obtain ⟨after₂, hlinks, hadvances₂⟩ := readLinks_of_spelled hreader (spelled r).name
    hspells.links (fun a ha => hclosed a (List.mem_append_right _ ha)) (hspelled.sorted r hwithin)
    hsecond (by omega) hknown₂
  have helement : (⟨half.name, half.flags, half.members,
        (spelled r).body.map (found ++ [r] ++ first.preorder ++ second.preorder).idxOf⟩ : Element)
      = (spelled r).map (found ++ r :: (first.preorder ++ second.preorder)).idxOf := by
    have hwhole : found ++ r :: (first.preorder ++ second.preorder)
        = found ++ [r] ++ first.preorder ++ second.preorder := by simp
    rw [hwhole, Element.map, Members.map_rename_congr fun a ha => hfirst.idxOf_append ha _]
  have hbelow : ∀ s ∈ (spelled r).successors,
      s ∈ found ++ r :: (first.preorder ++ second.preorder) := by
    intro s hs
    simpa [or_assoc] using (DepthFirst.append_iff.mpr ⟨_, _, rfl, hfirst, hsecond⟩).waiting_found hs
  refine ⟨after₂.replaced found.length _, ?_, hadvances₁.node hknown hnew hbelow hadvances₂⟩
  have hlookup := hknown.lookup r
  rw [if_neg hnew] at hlookup
  rw [← hknown.size] at hlinks
  rw [← helement, ← hknown.size]
  have hreads := ReadsElement.new hlookup (hspells.head inherited) hmembers hlinks
  exact readElement_eq_ok_iff.mpr ⟨r, rfl, hreads⟩

/-- **Reading an element that a map spells**, by `readElement`. A map that is known stands for its
element. -/
theorem readElement_of_spelled (hspelled : Spelled store spelled within) (fuel : Nat) :
    ReadsBack spelled within fuel (store.readElement fuel) := by
  induction fuel with
  | zero =>
    intro r inherited found forest before _ _ hheight
    exact absurd hheight (Nat.not_lt_zero _)
  | succ fuel ih =>
    intro r inherited found forest before hwithin hsearch hheight hknown
    -- the search has found the map before or finds it now; reading looks it up or allocates it
    cases hsearch with
    | again old later =>
      cases later
      have hlookup := hknown.lookup r
      rw [if_pos old] at hlookup
      refine ⟨before, ?_, .refl hknown⟩
      rw [Forest.preorder, List.append_nil]
      exact readElement_eq_ok_iff.mpr ⟨r, rfl, .known hlookup⟩
    | fresh new below later =>
      cases later
      obtain ⟨first, second, rfl, hfirst, hsecond⟩ := DepthFirst.append_iff.mp below
      simp only [Forest.height_node, Forest.height_append, Forest.height_nil] at hheight
      obtain ⟨after, hread, hadvances⟩ := readElement_of_new hspelled ih inherited hwithin new
        (by omega) hfirst hsecond hknown
      have hplace : (found ++ r :: (first.preorder ++ second.preorder)).idxOf r = found.length := by
        simp [List.idxOf_append, new]
      refine ⟨after, ?_, by simpa using hadvances⟩
      simpa [hplace] using hread

end Store

/-! ## Reading documents -/

/-- A search among the maps of a store nests at most as deep as the store has maps:
`forest.height ≤ store.maps.size`. -/
theorem Spelled.height_le {store : Store} {spelled : Nat → Element} {within : Nat → Prop}
    (h : Spelled store spelled within) {waiting : List Nat} {forest : Forest Nat}
    (hwithin : ∀ a ∈ waiting, within a)
    (hsearch : DepthFirst (fun r => (spelled r).successors) [] waiting forest) :
    forest.height ≤ store.maps.size :=
  hsearch.height_le fun r hr => h.bound r (hr.mem_of_closed hwithin h.closed)

/-- There is a search among the maps of a store. -/
theorem Spelled.exists_search {store : Store} {spelled : Nat → Element} {within : Nat → Prop}
    (h : Spelled store spelled within) {waiting : List Nat} (hwithin : ∀ a ∈ waiting, within a) :
    ∃ forest, DepthFirst (fun r => (spelled r).successors) [] waiting forest := by
  classical
  have hmem (r : Nat) : r ∈ (Finset.range store.maps.size).filter within ↔ within r := by
    simp only [Finset.mem_filter, Finset.mem_range]
    exact ⟨fun hr => hr.2, fun hr => ⟨h.bound r hr, hr⟩⟩
  refine DepthFirst.exists_of_closed ((Finset.range store.maps.size).filter within) ?_ [] waiting ?_
  · exact fun a ha b hb => (hmem b).mpr (h.closed a ((hmem a).mp ha) b hb)
  · exact fun a ha => (hmem a).mpr (hwithin a ha)

/-- **A document whose maps spell elements is read.** Its elements are those that the maps spell,
in the order in which a search from the exports finds the maps. -/
theorem Graph.ofDocument_of_spelled {document : Document} {spelled : Nat → Element}
    {within : Nat → Prop} (hspelled : Spelled document.store spelled within) {ref : Nat}
    (hroot : document.root = .map ref) {exports : Members}
    (hexports : document.store.SpellsMembers
      ((document.store.entries ref).field "exports") (some exports))
    (hwithin : ∀ a ∈ exports.map (·.2), within a) :
    ∃ (copy : Graph) (forest : Forest Nat), ofDocument document = .ok copy ∧
      DepthFirst (fun r => (spelled r).successors) [] (exports.map (·.2)) forest ∧
      copy.store = document.store ∧ copy.size = forest.preorder.length ∧
      (∀ r ∈ forest.preorder,
        copy.element (forest.preorder.idxOf r) = (spelled r).map forest.preorder.idxOf) ∧
      copy.exports = exports.rename forest.preorder.idxOf ∧
      copy.is64Bit = document.store.truthy
        (((document.store.entries ref).field? "is_64bit").getD (.bool false)) := by
  obtain ⟨forest, hsearch⟩ := hspelled.exists_search hwithin
  obtain ⟨eref, hfield, hentries⟩ := hexports
  have hempty : Known spelled [] {} :=
    ⟨rfl, fun r => by simp, fun r hr => absurd hr List.not_mem_nil⟩
  obtain ⟨after, hread, hadvances⟩ := Store.readEntries_of_spelled
    (Store.readElement_of_spelled hspelled (document.store.maps.size + 1)) hwithin hsearch
    (Nat.lt_succ_of_le (hspelled.height_le hwithin hsearch)) hempty
  rw [List.nil_append] at hread
  -- no exports at all count as false, and are then not read as a map
  have hread' : document.store.readExports ((document.store.entries ref).field "exports") {}
      = .ok (exports.rename forest.preorder.idxOf, after) := by
    have htruthy : document.store.truthy (.map eref) = !exports.isEmpty := by
      simp [Store.truthy, hentries]
    rw [hfield, Store.readExports, htruthy]
    cases exports with
    | nil => exact hread
    | cons entry exports =>
      simp only [hentries]
      exact hread
  have hrun := Graph.ofDocument_eq_ok_iff.mpr ⟨ref, _, after, hroot, hread', rfl⟩
  refine ⟨_, forest, hrun, hsearch, rfl, ?_, fun r hr => ?_, rfl, rfl⟩
  · have hsize := hadvances.known.size
    rwa [List.nil_append] at hsize
  · have hplace := hadvances.read r hr
    rwa [List.nil_append] at hplace

end ModuleSurface
