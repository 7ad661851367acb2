import Mathlib.Data.Set.Function
import ModuleSurface.Proofs.Likeness
import ModuleSurface.Proofs.Spelling

/-! # Graphs that are renamed

One graph is a renaming of another when each element that can be reached is there under its new
handle, with the handles in it renamed. Nothing that is written about an element depends on its
handle, so renaming changes no line of it; it changes the lines of a whole graph only when it
confuses elements.

* **`Graph.Renames`** — a graph renamed into another one.
* **`Graph.Isomorphic`** — a renaming that confuses no elements.
* **`Graph.Isomorphic.render_eq`** — isomorphic graphs have the same definitions. -/

namespace ModuleSurface

namespace Graph

/-- **The elements that can be reached**: through exports, members, instances, bases and the member
maps of classes. -/
def Reachable (graph : Graph) : Handle → Prop :=
  Reached (fun h => (graph.element h).successors) (graph.exports.map (·.2))

/-- **A graph renamed into another one.** -/
structure Renames (f : Handle → Handle) (graph copy : Graph) : Prop where
  element {h : Handle} : graph.Reachable h → copy.element (f h) = (graph.element h).map f
  exports : copy.exports = graph.exports.rename f
  is64Bit : copy.is64Bit = graph.is64Bit

/-- **An isomorphism**: a renaming that pairs the elements that can be reached. -/
structure Isomorphic (f : Handle → Handle) (graph copy : Graph) : Prop
    extends Renames f graph copy where
  bijective : Set.BijOn f {h | graph.Reachable h} {h | copy.Reachable h}

namespace Renames

variable {f : Handle → Handle} {graph copy : Graph} {dialect : Dialect} {h : Handle}

/-! ## What can be reached -/

/-- What an element refers to can be reached where the element can. -/
theorem reachable_of_mem (hh : graph.Reachable h) {a : Handle}
    (ha : a ∈ (graph.element h).successors) : graph.Reachable a :=
  .step hh ha

/-- What can be reached stays so: `copy.Reachable (f h)` follows from `graph.Reachable h`. -/
theorem reachable (hr : Renames f graph copy) (hh : graph.Reachable h) : copy.Reachable (f h) := by
  induction hh with
  | root mem =>
    refine .root ?_
    rw [hr.exports, Members.map_snd_rename]
    exact List.mem_map_of_mem mem
  | step before mem ih =>
    refine .step ih ?_
    rw [hr.element before, Element.successors_map]
    exact List.mem_map_of_mem mem

/-- Nothing else can be reached. -/
theorem exists_of_reachable (hr : Renames f graph copy) {k : Handle} (hk : copy.Reachable k) :
    ∃ h, graph.Reachable h ∧ f h = k := by
  induction hk with
  | root mem =>
    rw [hr.exports, Members.map_snd_rename] at mem
    obtain ⟨h, hh, rfl⟩ := List.mem_map.mp mem
    exact ⟨h, .root hh, rfl⟩
  | step _ mem ih =>
    obtain ⟨h, hh, rfl⟩ := ih
    rw [hr.element hh, Element.successors_map] at mem
    obtain ⟨a, ha, rfl⟩ := List.mem_map.mp mem
    exact ⟨a, .step hh ha, rfl⟩

/-- A renaming that confuses nothing is an isomorphism. -/
theorem isomorphic (hr : Renames f graph copy)
    (hinj : ∀ h k, graph.Reachable h → graph.Reachable k → f h = f k → h = k) :
    Isomorphic f graph copy where
  toRenames := hr
  bijective :=
    ⟨fun _ hh => hr.reachable hh, fun h hh k hk heq => hinj h k hh hk heq,
      fun _ hk => hr.exists_of_reachable hk⟩

/-! ## What is declared -/

/-- What stands for an element is renamed with it:
`copy.resolved (f h) = (graph.resolved h).map f`. -/
theorem resolved (hr : Renames f graph copy) (hh : graph.Reachable h) :
    copy.resolved (f h) = (graph.resolved h).map f := by
  have hfilter {instances : List Handle} (hinside : ∀ i ∈ instances, graph.Reachable i) :
      (instances.map f).filter (fun i => (copy.element i).isCompiled)
        = (instances.filter fun i => (graph.element i).isCompiled).map f := by
    rw [List.filter_map]
    congr 1
    refine List.filter_congr fun i hi => ?_
    simp [hr.element (hinside i hi)]
  have hlinks : ∀ i ∈ (graph.element h).body.links, graph.Reachable i := fun i hi =>
    reachable_of_mem hh (List.mem_append_right _ hi)
  unfold Graph.resolved
  rw [hr.element hh, Element.body_map, Element.isCompiled_map]
  cases hbody : (graph.element h).body with
  | functionPrototype instances | classPrototype instances =>
    rw [hbody] at hlinks
    exact hfilter hlinks
  | enumValue value => rfl
  | _ =>
    simp only [Body.map]
    split <;> rfl

/-- What is renamed is an enum value when it was one:
`copy.isEnumValue (f h) = graph.isEnumValue h`. -/
theorem isEnumValue (hr : Renames f graph copy) (hh : graph.Reachable h) :
    copy.isEnumValue (f h) = graph.isEnumValue h := by
  simp [Graph.isEnumValue, hr.element hh]

/-- The members that are no values are renamed. -/
theorem otherMembers (hr : Renames f graph copy) {members : Members}
    (hmembers : ∀ a ∈ members.map (·.2), graph.Reachable a) :
    copy.otherMembers (members.rename f) = (graph.otherMembers members).map f := by
  rw [Graph.otherMembers, Members.rename, List.filter_map, List.map_map, Graph.otherMembers,
    List.map_map]
  congr 1
  refine List.filter_congr fun entry hentry => ?_
  simp [hr.isEnumValue (hmembers entry.2 (List.mem_map_of_mem hentry))]

/-- The members that are values are renamed. -/
theorem enumValues (hr : Renames f graph copy) {members : Members}
    (hmembers : ∀ a ∈ members.map (·.2), graph.Reachable a) :
    copy.enumValues (members.rename f) = (graph.enumValues members).rename f := by
  rw [Graph.enumValues, Members.rename, List.filter_map, Graph.enumValues, Members.rename]
  congr 1
  refine List.filter_congr fun entry hentry => ?_
  simp [hr.isEnumValue (hmembers entry.2 (List.mem_map_of_mem hentry))]

/-- The members of an element can be reached where the element can. -/
theorem reachable_member (hh : graph.Reachable h) :
    ∀ a ∈ (graph.element h).memberItems.map (·.2), graph.Reachable a := fun _ ha =>
  reachable_of_mem hh (List.mem_append_left _ ha)

/-- The members that a declaration goes on to are renamed. -/
theorem expanded (hr : Renames f graph copy) (hh : graph.Reachable h) :
    copy.expanded dialect (f h) = (graph.expanded dialect h).map f := by
  unfold Graph.expanded
  rw [hr.element hh, Element.body_map, Element.memberItems_map]
  cases hbody : (graph.element h).body with
  | global type constant =>
    simp only [Body.map]
    split
    · exact Members.map_snd_rename f _
    · rfl
  | enumeration => exact hr.otherMembers (reachable_member hh)
  | function | nameSpace => exact Members.map_snd_rename f _
  | _ => rfl

/-- What stands for an element can be reached where the element can. -/
theorem reachable_resolved (hh : graph.Reachable h) {a : Handle} (ha : a ∈ graph.resolved h) :
    graph.Reachable a := by
  unfold Graph.resolved at ha
  cases hbody : (graph.element h).body with
  | functionPrototype instances | classPrototype instances =>
    rw [hbody] at ha
    exact reachable_of_mem hh (List.mem_append_right _
      (by rw [hbody]; exact (List.mem_filter.mp ha).1))
  | enumValue value =>
    rw [hbody] at ha
    rwa [List.mem_singleton.mp ha]
  | _ =>
    simp only [hbody] at ha
    split at ha
    · rwa [List.mem_singleton.mp ha]
    · exact absurd ha List.not_mem_nil

/-- What is expanded are members: `a ∈ (graph.element h).memberItems.map (·.2)`. -/
theorem mem_of_mem_expanded {a : Handle} (ha : a ∈ graph.expanded dialect h) :
    a ∈ (graph.element h).memberItems.map (·.2) := by
  unfold Graph.expanded at ha
  cases hbody : (graph.element h).body with
  | global type constant =>
    simp only [hbody] at ha
    split at ha
    · exact ha
    · exact absurd ha List.not_mem_nil
  | enumeration =>
    rw [hbody] at ha
    obtain ⟨entry, hentry, rfl⟩ := List.mem_map.mp ha
    exact List.mem_map_of_mem (List.mem_filter.mp hentry).1
  | function | nameSpace => simpa only [hbody] using ha
  | _ =>
    rw [hbody] at ha
    exact absurd ha List.not_mem_nil

/-- What is declared inside an element can be reached where the element can. -/
theorem reachable_next (hh : graph.Reachable h) {a : Handle} (ha : a ∈ graph.next dialect h) :
    graph.Reachable a := by
  obtain ⟨m, hm, ha⟩ := List.mem_flatMap.mp ha
  exact reachable_resolved (reachable_member hh m (mem_of_mem_expanded hm)) ha

/-- What is declared at the top level can be reached. -/
theorem reachable_roots {a : Handle} (ha : a ∈ graph.roots) : graph.Reachable a := by
  obtain ⟨entry, hentry, ha⟩ := List.mem_flatMap.mp ha
  exact reachable_resolved (.root (List.mem_map_of_mem hentry)) ha

/-- The renamed elements stand for what is renamed. -/
theorem flatMap_resolved (hr : Renames f graph copy) {items : List Handle}
    (hitems : ∀ a ∈ items, graph.Reachable a) :
    (items.map f).flatMap copy.resolved = (items.flatMap graph.resolved).map f := by
  rw [List.flatMap_map, List.map_flatMap]
  exact List.flatMap_congr fun a ha => hr.resolved (hitems a ha)

/-- What is declared inside an element is renamed with it:
`copy.next dialect (f h) = (graph.next dialect h).map f`. -/
theorem next (hr : Renames f graph copy) (hh : graph.Reachable h) :
    copy.next dialect (f h) = (graph.next dialect h).map f := by
  rw [Graph.next, hr.expanded hh, Graph.next]
  exact hr.flatMap_resolved fun a ha => reachable_member hh a (mem_of_mem_expanded ha)

/-- What is declared at the top level is renamed: `copy.roots = graph.roots.map f`. -/
theorem roots (hr : Renames f graph copy) : copy.roots = graph.roots.map f := by
  -- the roots are what the exported handles stand for, their names do not matter
  have hsplit (g : Graph) : g.roots = (g.exports.map (·.2)).flatMap g.resolved := by
    rw [List.flatMap_map, Graph.roots]
  rw [hsplit, hr.exports, Members.map_snd_rename, hsplit]
  exact hr.flatMap_resolved fun a ha => .root ha

/-! ## What is written -/

/-- The entries of a renamed enum are shown alike. -/
theorem sameValue (hr : Renames f graph copy) {entry : Scalar × Handle}
    (hentry : graph.Reachable entry.2) (hvalue : graph.isEnumValue entry.2 = true) :
    SameValue graph copy entry (entry.1, f entry.2) where
  key := rfl
  inlined := by rw [hr.element hentry, Element.flags_map]
  payload _ := by
    rw [hr.element hentry, Element.body_map]
    rw [Graph.isEnumValue, Element.kind] at hvalue
    cases hbody : (graph.element entry.2).body with
    | enumValue value => rfl
    | _ => simp [hbody, Body.kind] at hvalue

/-- A class or an interface keeps its words. -/
theorem sameClassWords (hr : Renames f graph copy) (hh : graph.Reachable h) {links : ClassLinks}
    (hlinks : (graph.element h).body.classLinks? = some links) :
    SameClassWords dialect graph copy (graph.element h) ((graph.element h).map f) links
      (links.map f) where
  kind _ := Element.kind_map f _
  abstract _ _ := by rw [Element.flags_map]
  base _ := by
    have hbase : ∀ b ∈ links.base, graph.Reachable b := fun b hb => by
      refine reachable_of_mem hh (List.mem_append_right _ ?_)
      cases hbody : (graph.element h).body <;> rw [hbody] at hlinks <;> cases hlinks <;>
        exact List.mem_append_left _ (List.mem_append_left _ (Option.mem_toList.mpr hb))
    rw [ClassLinks.map, Option.map_map]
    refine Option.map_congr fun b hb => ?_
    rw [Function.comp_apply, hr.element (hbase b hb), Element.name_map]

/-- **What is renamed looks alike**, `LooksAlike`: a declaration shows no handles. -/
theorem looksAlike (hr : Renames f graph copy) (hh : graph.Reachable h)
    (hsort : (graph.element h).body.sort? ≠ none) :
    LooksAlike dialect graph copy (fun a b => b = f a) (graph.element h) (copy.element (f h)) := by
  have hspelled (type : Option ValueType) : SpelledAlike dialect graph copy type type := by
    rw [SpelledAlike, hr.is64Bit]
  have hmap (items : List Handle) : List.Forall₂ (fun a b => b = f a) items (items.map f) :=
    List.forall₂_map_right_iff.mpr (List.forall₂_same.mpr fun _ _ => rfl)
  have hmembers : SameMembers (fun a b => b = f a) (graph.element h) ((graph.element h).map f) := by
    rw [SameMembers, Element.memberItems_map, Members.map_snd_rename]
    exact hmap _
  have hbody' {body : Body} (hbody : (graph.element h).body = body) :
      ((graph.element h).map f).body = body.map f := by rw [Element.body_map, hbody]
  -- what a declaration shows is in the parts of the body that a renaming keeps
  rw [hr.element hh]
  cases hbody : (graph.element h).body with
  | global type constant =>
    exact .global type type constant constant hbody (hbody' hbody) (by rw [Element.flags_map])
      (hspelled type) (fun _ _ => rfl) fun _ => hmembers
  | enumeration =>
    refine .enumeration hbody (hbody' hbody) ?_ ?_
    · rw [Element.memberItems_map, hr.enumValues (reachable_member hh), Members.rename]
      refine List.forall₂_map_right_iff.mpr (List.forall₂_same.mpr fun entry hentry => ?_)
      obtain ⟨hmember, hvalue⟩ := List.mem_filter.mp hentry
      exact hr.sameValue (reachable_member hh _ (List.mem_map_of_mem hmember)) hvalue
    · rw [Element.memberItems_map, hr.otherMembers (reachable_member hh)]
      exact hmap _
  | function signature =>
    exact .function signature signature hbody (hbody' hbody)
      ⟨List.forall₂_same.mpr fun type _ => hspelled type, rfl, hspelled _⟩ hmembers
  | classType links | interfaceType links =>
    have hlinks : (graph.element h).body.classLinks? = some links := by rw [hbody]; rfl
    exact .classLike links (links.map f) hlinks (by rw [hbody' hbody]; rfl)
      (hr.sameClassWords hh hlinks)
  | nameSpace => exact .nameSpace hbody (hbody' hbody) hmembers
  | _ => exact absurd (by rw [hbody]; rfl) hsort

/-- **The opening lines stay**: `copy.opening dialect (f h) = graph.opening dialect h`. -/
theorem opening (hr : Renames f graph copy) (hh : graph.Reachable h) :
    copy.opening dialect (f h) = graph.opening dialect h := by
  by_cases hsort : (graph.element h).body.sort? = none
  · cases dialect <;> simp only [opening_webidl, opening_typescript, WebIdl.opening,
      TypeScript.opening, hr.element hh, Element.body_map] <;>
      cases hbody : (graph.element h).body <;> rw [hbody] at hsort <;> first | rfl | cases hsort
  · exact (hr.looksAlike hh hsort).opening (by rw [hr.element hh, Element.name_map])

/-- **The closing lines stay**: `copy.closing dialect (f h) = graph.closing dialect h`. -/
theorem closing (hr : Renames f graph copy) (hh : graph.Reachable h) :
    copy.closing dialect (f h) = graph.closing dialect h := by
  by_cases hsort : (graph.element h).body.sort? = none
  · cases dialect <;> simp only [closing_webidl, closing_typescript, WebIdl.closing,
      TypeScript.closing, hr.element hh, Element.body_map, Element.memberItems_map,
      Members.rename_eq_nil] <;>
      cases hbody : (graph.element h).body <;> rw [hbody] at hsort <;> first | rfl | cases hsort
  · exact (hr.looksAlike hh hsort).closing

/-- The lines of a forest stay. -/
theorem lines (hr : Renames f graph copy) {forest : Forest Handle}
    (hforest : ∀ a ∈ forest.preorder, graph.Reachable a) (level : Nat) :
    copy.lines dialect level (forest.map f) = graph.lines dialect level forest := by
  induction forest generalizing level with
  | nil => rfl
  | node h inside rest ihInside ihRest =>
    simp only [Forest.preorder_node, List.mem_cons, List.mem_append] at hforest
    have hh : graph.Reachable h := hforest h (.inl rfl)
    rw [Forest.map_node, lines_node, lines_node, hr.opening hh, hr.closing hh,
      ihInside (fun a ha => hforest a (.inr (.inl ha))),
      ihRest fun a ha => hforest a (.inr (.inr ha))]

end Renames

namespace Isomorphic

variable {f : Handle → Handle} {graph copy : Graph} {dialect : Dialect}

/-- The forest of declarations is renamed to `forest.map f`. -/
theorem forest (hi : Isomorphic f graph copy) {forest : Forest Handle}
    (hforest : DepthFirst (graph.next dialect) [] graph.roots forest) :
    DepthFirst (copy.next dialect) [] copy.roots (forest.map f) := by
  rw [hi.roots]
  exact hforest.map f (S := graph.Reachable) (fun _ ha _ hb => Renames.reachable_next ha hb)
    (fun _ _ ha hb heq => hi.bijective.injOn ha hb heq) (fun _ ha => hi.next ha)
    (fun _ ha => absurd ha List.not_mem_nil) fun _ ha => Renames.reachable_roots ha

/-- **Isomorphic graphs have the same definitions**, or the same thing stands against them:
`copy.render dialect = graph.render dialect`. -/
theorem render_eq (hi : Isomorphic f graph copy) (hs : graph.WellSorted) (hs' : copy.WellSorted)
    (dialect : Dialect) : copy.render dialect = graph.render dialect := by
  obtain ⟨forest, hforest⟩ := graph.exists_forest dialect
  have hreachable : ∀ a ∈ forest.preorder, graph.Reachable a := fun a ha =>
    (hforest.reached ha).mem_of_closed (fun _ hb => Renames.reachable_roots hb)
      fun _ hb _ hc => Renames.reachable_next hb hc
  rw [Graph.render_eq hs' (hi.forest hforest), Graph.render_eq hs hforest, hi.lines hreachable]

end Isomorphic

end Graph

end ModuleSurface
