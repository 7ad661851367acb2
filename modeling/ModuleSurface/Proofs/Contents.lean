import ModuleSurface.Equality
import ModuleSurface.Proofs.CarriedDrafts
import ModuleSurface.Proofs.OneParent

/-! # Equality by content

Two graphs have the same content when they are the same but for the handles: the same names in the
same order, and elements that hold the same and refer to elements with the same content. Scalars are
compared as they are, so not a number is what it is. A graph that is renamed into another one has the
same content, and where no scalar differs from itself, comparing the elements of the two answers yes.

* **`Graph.SameContent`**, **`Graph.EqualByContent`** — elements and graphs with the same content.
* **`Graph.Renames.equalByContent`** — a graph that is renamed.
* **`Graph.Renames.sameElement`** — the comparison of its elements with those it is renamed into.
* **`Graph.OneParent`** — no element is referred to from two places. -/

namespace ModuleSurface

/-! ## Graphs with the same content -/

namespace Graph

/-- **Two elements have the same content**, each in its own graph: all that they hold but for the
handles is the same, in the same order, and so is the content of what they refer to. -/
inductive SameContent (graph other : Graph) : Handle → Handle → Prop
  | intro {h k : Handle} (shape : (graph.element h).shape = (other.element k).shape)
      (each : ∀ pair ∈ (graph.element h).successors.zip (other.element k).successors,
        SameContent graph other pair.1 pair.2) : SameContent graph other h k

/-- **Two graphs have the same content**: the same names, in the same order, for elements with the same
content, and the same addressing width. -/
structure EqualByContent (graph other : Graph) : Prop where
  exports : graph.exports.shape = other.exports.shape
  each : ∀ pair ∈ (graph.exports.map (·.2)).zip (other.exports.map (·.2)),
    SameContent graph other pair.1 pair.2
  is64Bit : graph.is64Bit = other.is64Bit

/-- **No element is referred to from two places**, counting the exports as places. -/
structure OneParent (graph : Graph) : Prop where
  exported : (graph.exports.map (·.2)).Nodup
  referred {h : Handle} : graph.Reachable h → (graph.element h).successors.Nodup
  free {a h : Handle} : a ∈ graph.exports.map (·.2) → graph.Reachable h →
    a ∉ (graph.element h).successors
  parent {a h k : Handle} : graph.Reachable h → graph.Reachable k →
    a ∈ (graph.element h).successors → a ∈ (graph.element k).successors → h = k

variable {graph copy : Graph} {f : Handle → Handle} {below : Handle → Draft}

/-- A graph that is `Unshared` has one place for each element. -/
theorem Unshared.oneParent (hunshared : graph.Unshared) : graph.OneParent := by
  obtain ⟨forest, hforest, hnodup⟩ := hunshared
  have hshown {h : Handle} (hh : graph.Reachable h) : h ∈ forest.preorder :=
    hforest.mem_preorder_iff.mpr hh
  refine ⟨?_, fun hh => ?_, fun ha hh => ?_, fun hh hk hah hak => ?_⟩
  · exact List.Nodup.of_append_left (hforest.perm.nodup_iff.mp hnodup)
  · exact hforest.nodup_next hnodup (hshown hh)
  · exact hforest.not_mem_next_of_waiting hnodup ha (hshown hh)
  · exact hforest.parent_unique hnodup (hshown hh) (hshown hk) hah hak

/-- Two lists of which one is renamed are paired item by item. -/
theorem mem_zip_map {items : List Handle} {pair : Handle × Handle}
    (h : pair ∈ items.zip (items.map f)) : pair.1 ∈ items ∧ pair.2 = f pair.1 := by
  have hzip : items.zip (items.map f) = items.map fun a => (a, f a) := by
    simpa using List.zip_map' (f := id) (g := f) (l := items)
  rw [hzip] at h
  obtain ⟨a, ha, rfl⟩ := List.mem_map.mp h
  exact ⟨ha, rfl⟩

namespace Renames

/-- What is renamed has the same content, `SameContent copy graph h (f h)`. -/
theorem sameContent (hr : Renames f copy graph) {waiting : List Handle} {forest : Forest Handle}
    (hu : Unfolded (fun h => (copy.element h).successors) waiting forest)
    (hwaiting : ∀ h ∈ waiting, copy.Reachable h) :
    ∀ h ∈ waiting, SameContent copy graph h (f h) := by
  induction hu with
  | done => exact List.forall_mem_nil _
  | @node waiting a _ _ _ _ ihBelow ihLater =>
    obtain ⟨ha, hwaiting⟩ := List.forall_mem_cons.mp hwaiting
    refine List.forall_mem_cons.mpr ⟨.intro ?_ fun pair hpair => ?_, ihLater hwaiting⟩
    · rw [hr.element ha, Element.shape, Element.shape, Element.map_map]
    · rw [hr.element ha, Element.successors_map] at hpair
      obtain ⟨hmem, heq⟩ := mem_zip_map hpair
      rw [heq]
      exact ihBelow (fun b hb => .step ha hb) pair.1 hmem

/-- **A graph that is renamed** and contains nothing that contains itself has the same content:
`EqualByContent copy graph`. -/
theorem equalByContent (hr : Renames f copy graph) {forest : Forest Handle}
    (hu : Unfolded (fun h => (copy.element h).successors) (copy.exports.map (·.2)) forest) :
    EqualByContent copy graph where
  exports := by rw [hr.exports, Members.shape, Members.shape, Members.rename_rename]
  each pair hpair := by
    rw [hr.exports, Members.map_snd_rename] at hpair
    obtain ⟨hmem, heq⟩ := mem_zip_map hpair
    rw [heq]
    exact hr.sameContent hu (fun a ha => .root ha) pair.1 hmem
  is64Bit := hr.is64Bit.symm

end Renames

end Graph

/-! ## Documents with the same content -/

/-- The draft of a member map that is renamed. -/
theorem Members.draft_rename (f : Handle → Handle) (below : Handle → Draft) (members : Members) :
    (members.rename f).draft below = members.draft fun h => below (f h) := by
  rw [Members.draft, Members.rename, List.map_map]
  rfl

/-- The draft of a body that is renamed. -/
theorem Body.draft_map (f : Handle → Handle) (below : Handle → Draft) (body : Body) :
    (body.map f).draft below = body.draft fun h => below (f h) := by
  have hmembers (members : Option Members) :
      (members.map (Members.rename f)).map (Members.draft below)
        = members.map (Members.draft fun h => below (f h)) := by
    rw [Option.map_map]
    exact Option.map_congr fun given _ => given.draft_rename f below
  cases body with
  | functionPrototype instances | classPrototype instances =>
    rw [map, draft, draft, List.map_map]
    rfl
  | classType links | interfaceType links =>
    simp only [map, ClassLinks.map, draft, hmembers, Option.map_map]
    rfl
  | _ => rfl

/-- The draft of an element that is renamed. -/
theorem Element.draft_map (f : Handle → Handle) (below : Handle → Draft) (element : Element) :
    (element.map f).draft below = element.draft fun h => below (f h) := by
  have hmembers : (element.members.map (Members.rename f)).map (Members.draft below)
      = element.members.map (Members.draft fun h => below (f h)) := by
    rw [Option.map_map]
    exact Option.map_congr fun given _ => given.draft_rename f below
  rw [draft, draft, kind_map, name_map, flags_map, body_map, Body.draft_map, members_map, hmembers]

namespace Graph

variable {graph copy : Graph} {f : Handle → Handle} {below : Handle → Draft}

/-- The full drafts of a graph that is renamed are those of what its elements are renamed into. -/
theorem FullDrafts.rename (hfull : graph.FullDrafts below) (hr : Renames f copy graph) :
    copy.FullDrafts fun h => below (f h) := by
  intro h hh
  show below (f h) = _
  rw [hfull (f h) (hr.reachable hh), hr.element hh, Element.draft_map]

/-- The draft of a graph that is renamed is that of the graph, with the drafts of what its elements
are renamed into. -/
theorem Renames.rootDraft (hr : Renames f copy graph) (below : Handle → Draft) :
    copy.rootDraft (fun h => below (f h)) = graph.rootDraft below := by
  rw [Graph.rootDraft, Graph.rootDraft, hr.exports, hr.is64Bit, Members.draft_rename]

end Graph

/-! ## Comparing elements -/

/-- Items that are all found the same are found the same together:
`allSame same items = some true`. -/
theorem allSame_of_forall {α : Type} {same : α → Verdict} {items : List α}
    (h : ∀ a ∈ items, same a = some true) : allSame same items = some true := by
  induction items with
  | nil => rfl
  | cons a items ih =>
    rw [List.forall_mem_cons] at h
    rw [allSame, h.1]
    exact ih h.2

/-- **What a body holds itself equals itself**: there is no number among it that differs from itself. -/
def Body.SelfEqual : Body → Prop
  | .global type constant => sameOption ValueType.sameType type type = true ∧
      sameOption Constant.sameConstant constant constant = true
  | .enumValue value => value.sameValue value = true
  | .function signature => signature.sameSignature signature = true
  | _ => True

/-- **What an element holds itself equals itself.** -/
structure Element.SelfEqual (element : Element) : Prop where
  name : element.name.sameValue element.name = true
  body : element.body.SelfEqual

section Asked

variable {same : Handle → Handle → Verdict} {f g : Handle → Handle}

/-- Under each of its keys a member map has one member. -/
theorem Members.find?_rename {members : Members} (hcarried : members.Carried) (g : Handle → Handle)
    {entry : Scalar × Handle} (hentry : entry ∈ members) :
    (members.rename g).find? (fun other => other.1.sameKey entry.1) = some (entry.1, g entry.2) := by
  obtain ⟨names, hnames, hnodup, -⟩ := hcarried
  have hkeys : (members.map (·.1)).Nodup := by
    rw [hnames]
    exact hnodup.map fun _ _ h => Scalar.text.inj h
  have htext {other : Scalar × Handle} (hother : other ∈ members) :
      ∃ name, other.1 = .text name := by
    have hmem : other.1 ∈ names.map Scalar.text := hnames ▸ List.mem_map_of_mem hother
    obtain ⟨name, -, hname⟩ := List.mem_map.mp hmem
    exact ⟨name, hname.symm⟩
  cases hfound : (members.rename g).find? fun other => other.1.sameKey entry.1 with
  | none =>
    have hmem : (entry.1, g entry.2) ∈ members.rename g := List.mem_map.mpr ⟨entry, hentry, rfl⟩
    have hnone := List.find?_eq_none.mp hfound _ hmem
    exact absurd (Scalar.sameKey_self entry.1) hnone
  | some found =>
    obtain ⟨other, hother, rfl⟩ := List.mem_map.mp (List.mem_of_find?_eq_some hfound)
    have hsame := List.find?_some hfound
    change other.1.sameKey entry.1 = true at hsame
    obtain ⟨name, hname⟩ := htext hentry
    obtain ⟨name', hname'⟩ := htext hother
    rw [hname, hname', Scalar.sameKey_text, beq_iff_eq] at hsame
    have hkey : other.1 = entry.1 := by rw [hname, hname', hsame]
    rw [List.inj_on_of_nodup_map hkeys hother hentry hkey]

/-- Member maps with the same keys are compared member by member. -/
theorem sameMembers_rename {members : Members} (hcarried : members.Carried)
    (h : ∀ a ∈ members.map (·.2), same (g a) (f a) = some true) :
    sameMembers same (members.rename f) (members.rename g) = some true := by
  have hlength : (members.rename f).length = (members.rename g).length := by
    simp [Members.rename]
  rw [sameMembers, if_pos hlength]
  refine allSame_of_forall fun renamed hrenamed => ?_
  obtain ⟨entry, hentry, rfl⟩ := List.mem_map.mp hrenamed
  simp only [members.find?_rename hcarried g hentry]
  exact h entry.2 (List.mem_map_of_mem hentry)

/-- Member maps that may be missing are compared where they are there. -/
theorem sameReference_members {members : Option Members}
    (hcarried : ∀ given ∈ members, Members.Carried given)
    (h : ∀ a ∈ (members.getD []).map (·.2), same (g a) (f a) = some true) :
    sameReference (sameMembers same) (members.map (Members.rename f))
      (members.map (Members.rename g)) = some true := by
  cases members with
  | none => rfl
  | some given => exact sameMembers_rename (hcarried given rfl) h

/-- Instances are compared one by one. -/
theorem sameInstances_map {instances : List Handle}
    (h : ∀ a ∈ instances, same (f a) (g a) = some true) :
    sameInstances same (instances.map f) (instances.map g) = some true := by
  rw [sameInstances, if_pos (by simp)]
  refine allSame_of_forall fun pair hpair => ?_
  rw [List.zip_map'] at hpair
  obtain ⟨a, ha, rfl⟩ := List.mem_map.mp hpair
  exact h a ha

/-- **The answers about one body under two renamings** are yes, if they are about what it refers to. -/
theorem Body.sameBody_map {body : Body} (hself : body.SelfEqual) (hcarried : body.Carried)
    (h : ∀ a ∈ body.links, same (f a) (g a) = some true ∧ same (g a) (f a) = some true) :
    (body.map f).sameBody same (body.map g) = some true := by
  cases body with
  | global type constant =>
    show some (_ && _) = some true
    rw [hself.1, hself.2]
    rfl
  | enumValue value => exact congrArg some hself
  | function signature => exact congrArg some hself
  | functionPrototype instances | classPrototype instances =>
    exact sameInstances_map fun a ha => (h a ha).1
  | classType links | interfaceType links =>
    simp only [Body.links, List.mem_append, Option.mem_toList] at h
    have hbase : sameReference same (links.base.map f) (links.base.map g) = some true := by
      cases hbase : links.base with
      | none => rfl
      | some b => exact (h b (.inl (.inl hbase))).1
    have hstatics := sameReference_members hcarried.1 fun a ha => (h a (.inl (.inr ha))).2
    have hmembers := sameReference_members hcarried.2 fun a ha => (h a (.inr ha)).2
    show ClassLinks.sameLinks same (links.map f) (links.map g) = some true
    simp only [ClassLinks.sameLinks, ClassLinks.map, hbase, hstatics, hmembers]
    rfl
  | enumeration | nameSpace => rfl

end Asked

/-! ### Renamings -/

section Map

variable (f : Handle → Handle)

/-- JSON carries a member map under any handles: `(members.rename f).Carried ↔ members.Carried`. -/
theorem Members.carried_rename {members : Members} : (members.rename f).Carried ↔ members.Carried := by
  rw [Members.Carried, Members.rename, List.map_map]
  rfl

/-- So it does with member maps that may be missing. -/
theorem Members.forall_carried_map {members : Option Members} :
    (∀ given ∈ members.map (rename f), Members.Carried given) ↔
      ∀ given ∈ members, Members.Carried given := by
  cases members with
  | none => rfl
  | some given => simpa using carried_rename f

/-- JSON carries a body under any handles: `(body.map f).Carried ↔ body.Carried`. -/
theorem Body.carried_map {body : Body} : (body.map f).Carried ↔ body.Carried := by
  cases body with
  | classType links | interfaceType links =>
    exact and_congr (Members.forall_carried_map f) (Members.forall_carried_map f)
  | _ => rfl

/-- What a body holds itself does not depend on the handles:
`(body.map f).SelfEqual ↔ body.SelfEqual`. -/
theorem Body.selfEqual_map {body : Body} : (body.map f).SelfEqual ↔ body.SelfEqual := by
  cases body <;> rfl

/-- JSON carries an element under any handles: `(element.map f).Carried ↔ element.Carried`. -/
theorem Element.carried_map {element : Element} : (element.map f).Carried ↔ element.Carried :=
  ⟨fun h => ⟨h.name, (Members.forall_carried_map f).mp h.members, (Body.carried_map f).mp h.body⟩,
    fun h => ⟨h.name, (Members.forall_carried_map f).mpr h.members, (Body.carried_map f).mpr h.body⟩⟩

/-- What an element holds itself does not depend on the handles:
`(element.map f).SelfEqual ↔ element.SelfEqual`. -/
theorem Element.selfEqual_map {element : Element} : (element.map f).SelfEqual ↔ element.SelfEqual :=
  ⟨fun h => ⟨h.name, (Body.selfEqual_map f).mp h.body⟩,
    fun h => ⟨h.name, (Body.selfEqual_map f).mpr h.body⟩⟩

end Map

namespace Graph

/-- **The answer about one element under two renamings** is yes, if it is about what it refers to. -/
theorem sameWithin_map {graph : Graph} {element : Element} {f g : Handle → Handle} {h k : Handle}
    {n : Nat} (hf : graph.element h = element.map f) (hg : graph.element k = element.map g)
    (hself : element.SelfEqual) (hcarried : element.Carried)
    (hsame : ∀ a ∈ element.successors, graph.sameWithin n (f a) (g a) = some true ∧
      graph.sameWithin n (g a) (f a) = some true) :
    graph.sameWithin (n + 1) h k = some true := by
  simp only [Element.successors, List.mem_append] at hsame
  have hmembers := sameReference_members hcarried.members fun a ha => (hsame a (.inl ha)).2
  have hbody := Body.sameBody_map hself.body hcarried.body fun a ha => hsame a (.inr ha)
  rw [sameWithin, hf, hg]
  split
  · rfl
  · simp only [Element.kind_map, Element.name_map, Element.flags_map, Element.members_map,
      Element.body_map, hself.name, hmembers, hbody, decide_true, beq_self_eq_true, Bool.and_true,
      if_true]
    rfl

/-- **Two graphs side by side**: the handles of the second one go on behind those of the first. -/
def beside (graph other : Graph) : Graph :=
  { graph with elements := graph.elements ++ other.elements.map (Element.map (graph.size + ·)) }

/-- Side by side there are as many elements as in both:
`(graph.beside other).size = graph.size + other.size`. -/
theorem size_beside (graph other : Graph) : (graph.beside other).size = graph.size + other.size := by
  simp [beside, size]

/-- Side by side the elements of the first graph come first:
`(graph.beside other).element h = graph.element h`. -/
theorem element_beside {graph : Graph} (other : Graph) {h : Handle} (hh : h < graph.size) :
    (graph.beside other).element h = graph.element h := by
  rw [element, element, Array.getD_eq_getD_getElem?, Array.getD_eq_getD_getElem?, beside,
    Array.getElem?_append_left hh]

/-- Side by side the elements of the other graph come behind, with handles moved as far. -/
theorem element_beside_add (graph : Graph) {other : Graph} {k : Handle} (hk : k < other.size) :
    (graph.beside other).element (graph.size + k) = (other.element k).map (graph.size + ·) := by
  have helements : (graph.beside other).elements[graph.size + k]?
      = (other.elements[k]?).map (Element.map (graph.size + ·)) := by
    show (graph.elements ++ other.elements.map _)[graph.elements.size + k]? = _
    rw [Array.getElem?_append_right (Nat.le_add_right _ _), Nat.add_sub_cancel_left,
      Array.getElem?_map]
  rw [element, element, Array.getD_eq_getD_getElem?, Array.getD_eq_getD_getElem?, helements,
    Array.getElem?_eq_getElem hk]
  rfl

namespace Renames

variable {graph copy : Graph} {f : Handle → Handle}

/-- Side by side, an element and what it is renamed into are found the same. -/
theorem sameWithin (hr : Renames f copy graph) (hsound : graph.Sound) (hsound' : copy.Sound)
    (hcarried : graph.Carried) (hself : ∀ h, graph.Reachable h → (graph.element h).SelfEqual)
    {waiting : List Handle} {forest : Forest Handle}
    (hu : Unfolded (fun h => (copy.element h).successors) waiting forest)
    (hwaiting : ∀ k ∈ waiting, copy.Reachable k) {n : Nat} (hheight : forest.height ≤ n) :
    ∀ k ∈ waiting, (graph.beside copy).sameWithin n (graph.size + k) (f k) = some true ∧
      (graph.beside copy).sameWithin n (f k) (graph.size + k) = some true := by
  induction hu generalizing n with
  | done => exact List.forall_mem_nil _
  | @node waiting k _ _ _ _ ihBelow ihLater =>
    obtain ⟨hk, hwaiting⟩ := List.forall_mem_cons.mp hwaiting
    rw [Forest.height_node, max_le_iff] at hheight
    refine List.forall_mem_cons.mpr ⟨?_, ihLater hwaiting hheight.2⟩
    obtain _ | n := n
    · exact absurd hheight.1 (Nat.not_succ_le_zero _)
    have hsame := ihBelow (fun b hb => .step hk hb) (Nat.le_of_succ_le_succ hheight.1)
    have hplace : graph.Reachable (f k) := hr.reachable hk
    have hrenamed : (graph.beside copy).element (f k) = (copy.element k).map f := by
      rw [element_beside copy (hsound.lt_size hplace), hr.element hk]
    have hshifted := graph.element_beside_add (hsound'.lt_size hk)
    have helement : (copy.element k).SelfEqual ∧ (copy.element k).Carried := by
      have hheld := hself (f k) hplace
      have hcarried := hcarried.elements hplace
      rw [hr.element hk] at hheld hcarried
      exact ⟨(Element.selfEqual_map f).mp hheld, (Element.carried_map f).mp hcarried⟩
    exact ⟨sameWithin_map hshifted hrenamed helement.1 helement.2 hsame,
      sameWithin_map hrenamed hshifted helement.1 helement.2 fun a ha => (hsame a ha).symm⟩

/-- **Comparing a graph with the one that it is renamed into** answers yes for what they export, by
`sameElement`, where no scalar differs from itself. -/
theorem sameElement (hr : Renames f copy graph) (hsound : graph.Sound) (hsound' : copy.Sound)
    (hunshared : copy.Unshared) (hcarried : graph.Carried)
    (hself : ∀ h, graph.Reachable h → (graph.element h).SelfEqual) :
    ∀ pair ∈ (copy.exports.map (·.2)).zip (graph.exports.map (·.2)),
      (graph.beside copy).sameElement (graph.size + pair.1) pair.2 = some true := by
  obtain ⟨forest, hforest, hnodup⟩ := hunshared
  intro pair hpair
  rw [hr.exports, Members.map_snd_rename] at hpair
  obtain ⟨hmem, heq⟩ := mem_zip_map hpair
  have hsubset : forest.preorder ⊆ List.range copy.size := fun k hk =>
    List.mem_range.mpr (hsound'.lt_size (hforest.reached hk))
  have hheight : forest.height ≤ (graph.beside copy).size * (graph.beside copy).size + 1 := by
    calc forest.height ≤ forest.preorder.length := forest.height_le_length
      _ ≤ (List.range copy.size).length := (hnodup.subperm hsubset).length_le
      _ = copy.size := List.length_range
      _ ≤ (graph.beside copy).size := by rw [size_beside]; omega
      _ ≤ (graph.beside copy).size * (graph.beside copy).size := Nat.le_mul_self _
      _ ≤ _ := Nat.le_succ _
  rw [heq]
  exact (hr.sameWithin hsound hsound' hcarried hself hforest (fun a ha => .root ha) hheight
    pair.1 hmem).1

end Renames

end Graph

end ModuleSurface
