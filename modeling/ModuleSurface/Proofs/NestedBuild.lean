import Mathlib.Data.Set.Finite.Lattice
import ModuleSurface.Proofs.Agreement
import ModuleSurface.Proofs.Frames
import ModuleSurface.Proofs.Renaming

/-! # How deep declarations nest

An element is marked before its members are visited, and an element that is marked is passed over. So
the elements that are declared inside each other are different ones, and declarations nest at most as
deep as there are elements to be reached, on every graph and whatever has been built before: what
would be done at a greater depth does not matter. Prototypes are passed by without being marked, but
what they stand for is declared at once.

* **`Graph.visitWithin`** — visits that nest within a bound.
* **`Graph.visitNested`** — visits where only the elements that are declared are counted.
* **`Build.Agree`** — steps of a build that do the same where something is kept.
* **`Graph.buildBy_visitNested`**, **`Graph.buildBy_visitWithin`** — the number of elements to be
  reached is bound enough. -/

namespace ModuleSurface

/-! ## Visits with a bound -/

namespace Graph

variable (graph : Graph) (dialect : Dialect)

/-- Visiting an element where declarations are made in a certain way. -/
def visitBy (declare : DeclarationSort → Handle → Build Unit) : Visitor := fun h =>
  match graph.arrivals? h with
  | none => throw (.unsupportedElement (graph.element h).kind (graph.element h).name)
  | some arrivals => Build.each (graph.meet declare) arrivals

/-- **Visits within a bound** on how deep visits nest. A visit that is nested deeper is left to
another visitor. -/
def visitWithin (deeper : Visitor) : Nat → Visitor
  | 0 => deeper
  | bound + 1 => graph.visitBy (graph.declare dialect (visitWithin deeper bound))

/-- **Visits within a bound** on how many elements are declared inside each other. An element that
would be declared one deeper inside is declared in another way. -/
def visitNested (deeper : DeclarationSort → Handle → Build Unit) : Nat → Visitor
  | 0 => graph.visitBy fun sort h => do if ← Build.mark h then deeper sort h
  | bound + 1 => graph.visitBy (graph.declare dialect (visitNested deeper bound))

/-- Elements are visited within a bound that fails where it is used up: `visit` is a `visitWithin`.
-/
theorem visit_eq_visitWithin (fuel : Nat) :
    graph.visit dialect fuel = graph.visitWithin dialect (fun _ => throw .nestedTooDeep) fuel := by
  induction fuel with
  | zero => rfl
  | succ fuel ih =>
    funext h
    rw [visitWithin, ← ih]
    rfl

/-- **A build with a visitor** of the exports. -/
def buildBy (visit : Visitor) : Build String := do
  modify fun state => { state with visited := [], text := {} }
  Build.openBlock [some dialect.moduleHeader, some Dialect.moduleName]
  Build.each (fun pair =>
    Build.line [some "type ", some pair.1, some " = ", some pair.2, some ";"]) dialect.aliases
  Build.each (fun entry => do
    Build.log (.walking entry.1 (graph.element entry.2).kind)
    visit entry.2) graph.exports
  Build.closeBlock
  finish dialect

/-- The definitions are built with the visits of the walk, `visitElement`. -/
theorem build_eq_buildBy : graph.build dialect = graph.buildBy dialect (graph.visitElement dialect) :=
  rfl

end Graph

/-! ## Steps that do the same -/

namespace Build

variable {α β : Type} {kept : BuildState → Prop}

/-- **Two steps of a build agree** where something is kept: they do the same, and keep it. -/
def Agree (kept : BuildState → Prop) (x y : Build α) : Prop :=
  ∀ state, kept state → x state = y state ∧ ∀ a after, y state = .ok a after → kept after

namespace Agree

/-- A step after a step agrees when both do. -/
theorem bind {x y : Build α} {f g : α → Build β} (hx : Agree kept x y)
    (hf : ∀ a, Agree kept (f a) (g a)) : Agree kept (x >>= f) (y >>= g) := by
  intro state hkept
  obtain ⟨hsame, hafter⟩ := hx state hkept
  rw [stateBind_apply, stateBind_apply, hsame]
  cases hrun : y state with
  | error cause after => exact ⟨rfl, fun _ _ h => by cases h⟩
  | ok a middle => exact hf a middle (hafter a middle hrun)

/-- A step for every item agrees when the steps do. -/
theorem each {step step' : α → Build Unit} {items : List α}
    (h : ∀ a ∈ items, Agree kept (step a) (step' a)) :
    Agree kept (Build.each step items) (Build.each step' items) := by
  induction items with
  | nil =>
    intro state hkept
    refine ⟨rfl, fun _ after hrun => ?_⟩
    cases hrun
    exact hkept
  | cons a items ih =>
    rw [List.forall_mem_cons] at h
    exact h.1.bind fun _ => ih h.2

end Agree

/-! ## What is left to be declared -/

/-- **What is left**: at most so many of some elements are not marked. -/
def Left (elements : Finset Handle) (bound : Nat) (state : BuildState) : Prop :=
  (elements.filter fun h => h ∉ state.visited).card ≤ bound

variable {elements : Finset Handle} {bound : Nat} {state after : BuildState} {h : Handle}

/-- What is left within a bound is left within a greater one. -/
theorem Left.succ (hleft : Left elements bound state) : Left elements (bound + 1) state :=
  Nat.le_succ_of_le hleft

/-- All elements may be left, if they are no more than `bound`. -/
theorem left_of_card_le (hcard : elements.card ≤ bound) (state : BuildState) :
    Left elements bound state :=
  (Finset.card_filter_le _ _).trans hcard

/-- No more is left where more is marked. -/
theorem Left.mono (hleft : Left elements bound state)
    (hmore : ∀ a ∈ state.visited, a ∈ after.visited) : Left elements bound after := by
  refine (Finset.card_le_card fun a ha => ?_).trans hleft
  rw [Finset.mem_filter] at ha ⊢
  exact ⟨ha.1, fun hmem => ha.2 (hmore a hmem)⟩

/-- An element that is left is one less when it is marked. -/
theorem Left.marked (hleft : Left elements (bound + 1) state) (hmem : h ∈ elements)
    (hnew : h ∉ state.visited) :
    Left elements bound { state with visited := state.visited ++ [h] } := by
  have hless : (elements.filter fun a => a ∉ state.visited ++ [h]).card
      < (elements.filter fun a => a ∉ state.visited).card := by
    refine card_filter_lt (fun a ha hvisited => ha ?_) hmem hnew ?_
    · exact List.mem_append_left _ hvisited
    · exact not_not_intro (List.mem_append_right _ (List.mem_singleton_self h))
  exact Nat.le_of_lt_succ (hless.trans_le hleft)

/-- Where nothing is left, every one of the elements is marked. -/
theorem Left.mem_visited (hleft : Left elements 0 state) (hmem : h ∈ elements) :
    h ∈ state.visited := by
  by_contra hnew
  have hempty := Finset.card_eq_zero.mp (Nat.le_zero.mp hleft)
  exact Finset.notMem_empty h (hempty ▸ Finset.mem_filter.mpr ⟨hmem, hnew⟩)

/-- What a step marks is marked behind it as well. -/
theorem Steps.agree {α : Type} {deeper : Int} {marked : List Handle} {act : Build α}
    (hsteps : Steps deeper marked act) : Agree (Left elements bound) act act := by
  intro state hleft
  refine ⟨rfl, fun a after hrun => hleft.mono fun b hb => ?_⟩
  have hleaves := hsteps state
  rw [hrun] at hleaves
  cases hleaves with
  | ok _ _ visited =>
    rw [visited]
    exact Graph.mem_foldl_markIn.mpr (.inl hb)

/-- Marking an element that is marked answers `false`, and changes nothing. -/
theorem mark_of_mem (hmem : h ∈ state.visited) : Build.mark h state = .ok false state := by
  show (if h ∈ state.visited then _ else _ : Build Bool) state = _
  rw [if_pos hmem]
  rfl

/-- **One element less is left** behind a mark. -/
theorem Agree.mark {x y : Build Unit} (hmem : h ∈ elements) (hxy : Agree (Left elements bound) x y) :
    Agree (Left elements (bound + 1)) (do if ← Build.mark h then x)
      (do if ← Build.mark h then y) := by
  intro state hleft
  by_cases hvisited : h ∈ state.visited
  · rw [stateBind_of_ok (mark_of_mem hvisited), stateBind_of_ok (mark_of_mem hvisited)]
    refine ⟨rfl, fun _ after hrun => ?_⟩
    cases hrun
    exact hleft
  · rw [stateBind_of_ok (Graph.mark_of_not_mem hvisited),
      stateBind_of_ok (Graph.mark_of_not_mem hvisited)]
    obtain ⟨hsame, hafter⟩ := hxy _ (hleft.marked hmem hvisited)
    exact ⟨hsame, fun a after hrun => (hafter a after hrun).succ⟩

/-- Nothing is behind a mark where nothing is left. -/
theorem Agree.mark_zero (x y : Build Unit) (hmem : h ∈ elements) :
    Agree (Left elements 0) (do if ← Build.mark h then x) (do if ← Build.mark h then y) := by
  intro state hleft
  have hvisited := hleft.mem_visited hmem
  rw [stateBind_of_ok (mark_of_mem hvisited), stateBind_of_ok (mark_of_mem hvisited)]
  refine ⟨rfl, fun _ after hrun => ?_⟩
  cases hrun
  exact hleft

end Build

namespace Graph

open Build (Left Steps)

variable {graph : Graph} {dialect : Dialect} {elements : Finset Handle} {bound : Nat} {h : Handle}

/-! ## Declarations -/

variable (dialect) in
/-- **A declaration that is asked for is framed**, also where it is not of the sort of the element. -/
theorem framed_of_asks {sort : DeclarationSort} (hasks : (Arrival.declare sort h).Asks graph) :
    ∃ marked members, (∀ m ∈ members, m ∈ graph.expanded dialect h) ∧
      Framed marked members (graph.declaration dialect sort h) := by
  by_cases hsort : (graph.element h).body.sort? = some sort
  · exact ⟨_, _, fun m hm => hm, framed_declaration hsort⟩
  obtain rfl | hclass := hasks.resolve_left hsort
  · -- what is no function is refused
    have hrefused : graph.declaration dialect .function h = fun _ => throw .wrongSort := by
      funext visit
      cases dialect <;> simp only [declaration, WebIdl.declareFunction, TypeScript.declareFunction] <;>
        cases hbody : (graph.element h).body <;> rw [hbody] at hsort <;>
        first
        | rfl
        | exact absurd rfl hsort
    refine ⟨[], [], List.forall_mem_nil _, ?_⟩
    exact (Framed.alone (Steps.throw .wrongSort)).congr fun visit => by rw [hrefused]
  · refine ⟨[], [], List.forall_mem_nil _, ?_⟩
    cases dialect <;> obtain rfl | rfl := hclass
    · exact WebIdl.framed_class h
    · exact WebIdl.framed_class h
    · exact TypeScript.framed_class h
    · exact TypeScript.framed_class h

/-- Framed declarations agree where the visits of the members do. -/
theorem Framed.agree {marked members : List Handle} {act : Visitor → Build Unit}
    {visit visit' : Visitor} (hframed : Framed marked members act)
    (hvisit : ∀ m ∈ members, Build.Agree (Left elements bound) (visit m) (visit' m)) :
    Build.Agree (Left elements bound) (act visit) (act visit') := by
  obtain ⟨front, back, deeper, hfront, hback, hact⟩ := hframed.parts
  rw [hact, hact]
  refine hfront.agree.bind fun _ => (Build.Agree.each hvisit).bind fun _ state hleft => ?_
  obtain ⟨after, hrun, hvisited⟩ := hback state
  refine ⟨rfl, fun _ after' hrun' => ?_⟩
  rw [hrun] at hrun'
  cases hrun'
  exact hleft.mono fun a ha => hvisited ▸ ha

/-! ## Visits -/

/-- Visits agree where the declarations do that they come to. -/
theorem visitBy_agree {declare declare' : DeclarationSort → Handle → Build Unit}
    (hdeclare : ∀ sort a, a ∈ graph.resolved h → (Arrival.declare sort a).Asks graph →
      Build.Agree (Left elements bound) (declare sort a) (declare' sort a)) :
    Build.Agree (Left elements bound) (graph.visitBy declare h) (graph.visitBy declare' h) := by
  unfold visitBy
  cases harrivals : graph.arrivals? h with
  | none => exact (show Steps 0 [] _ from .throw _).agree
  | some arrivals =>
    refine Build.Agree.each fun arrival harrival => ?_
    cases arrival with
    | skip a => exact (Steps.log _).agree
    | declare sort a =>
      refine hdeclare sort a ?_ (asks_of_arrivals? harrivals _ harrival)
      rw [← declares_of_arrivals? harrivals]
      exact List.mem_flatMap.mpr ⟨_, harrival, List.mem_singleton_self a⟩

/-- **Both bounds are enough**: where the bound on the elements that are declared is no less than
what is left, `visitNested` is `visitWithin` for every greater bound on visits. -/
theorem visitNested_agree (helements : ∀ a, graph.Reachable a → a < graph.size → a ∈ elements)
    (deeper : DeclarationSort → Handle → Build Unit) (deeper' : Visitor) (bound more : Nat)
    (hh : graph.Reachable h) :
    Build.Agree (Left elements bound) (graph.visitNested dialect deeper bound h)
      (graph.visitWithin dialect deeper' (bound + more + 1) h) := by
  have hmem {h a : Handle} (hh : graph.Reachable h) (ha : a ∈ graph.resolved h) : a ∈ elements :=
    helements a (Renames.reachable_resolved hh ha) (lt_size_of_mem_resolved ha)
  induction bound generalizing h with
  | zero =>
    refine visitBy_agree fun sort a ha hasks => ?_
    rw [declare_eq]
    exact Build.Agree.mark_zero _ _ (hmem hh ha)
  | succ bound ih =>
    rw [Nat.add_right_comm bound 1 more]
    refine visitBy_agree fun sort a ha hasks => ?_
    obtain ⟨marked, members, hmembers, hframed⟩ := framed_of_asks dialect hasks
    rw [declare_eq, declare_eq]
    refine Build.Agree.mark (hmem hh ha) (hframed.agree fun m hm => ih ?_)
    exact Renames.reachable_member (Renames.reachable_resolved hh ha) m
      (Renames.mem_of_mem_expanded (hmembers m hm))

/-! ## Builds -/

/-- Visits that agree on the exports build the same. -/
theorem buildBy_congr {visit visit' : Visitor} (hbound : elements.card ≤ bound)
    (hvisit : ∀ entry ∈ graph.exports,
      Build.Agree (Left elements bound) (visit entry.2) (visit' entry.2)) :
    graph.buildBy dialect visit = graph.buildBy dialect visit' := by
  have hself {α : Type} (act : Build α) : Build.Agree (Left elements bound) act act :=
    fun _ _ => ⟨rfl, fun _ after _ => Build.left_of_card_le hbound after⟩
  have hbuild : Build.Agree (Left elements bound) (graph.buildBy dialect visit)
      (graph.buildBy dialect visit') :=
    (hself _).bind fun _ => (hself _).bind fun _ => (hself _).bind fun _ =>
      (Build.Agree.each fun entry hentry => (hself _).bind fun _ => hvisit entry hentry).bind
        fun _ => hself _
  funext state
  exact (hbuild state (Build.left_of_card_le hbound state)).1

variable (graph)

/-- Finitely many elements are `Reachable`: those of the graph, and what they and the exports refer
to. -/
theorem finite_reachable : {h | graph.Reachable h}.Finite := by
  have hfinite : ({h | h < graph.size} ∪ {h | h ∈ graph.exports.map (·.2)}
      ∪ ⋃ a ∈ {a | a < graph.size}, {h | h ∈ (graph.element a).successors}).Finite :=
    ((Set.finite_lt_nat graph.size).union (List.finite_toSet _)).union
      ((Set.finite_lt_nat graph.size).biUnion fun a _ => List.finite_toSet _)
  refine hfinite.subset fun h hh => hh.mem_of_closed (fun a ha => .inl (.inr ha)) fun a _ b hb => ?_
  -- what is beyond the graph refers to nothing
  have ha : a < graph.size := by
    by_contra hsize
    rw [element_of_size_le (Nat.le_of_not_lt hsize)] at hb
    exact List.not_mem_nil hb
  exact .inr (Set.mem_biUnion ha hb)

/-- **The elements of a graph that can be reached.** -/
noncomputable def reachedElements : Finset Handle := graph.finite_reachable.toFinset

variable {graph}

/-- The elements that are counted are those that can be reached:
`h ∈ graph.reachedElements ↔ graph.Reachable h`. -/
theorem mem_reachedElements {h : Handle} : h ∈ graph.reachedElements ↔ graph.Reachable h := by
  rw [reachedElements, Set.Finite.mem_toFinset, Set.mem_ofPred_eq]

/-- How many elements of the graph itself can be reached. -/
theorem card_filter_reachedElements_le (graph : Graph) :
    (graph.reachedElements.filter (· < graph.size)).card ≤ graph.size := by
  have hsubset : graph.reachedElements.filter (· < graph.size) ⊆ Finset.range graph.size :=
    fun _ ha => Finset.mem_range.mpr (Finset.mem_filter.mp ha).2
  exact (Finset.card_le_card hsubset).trans_eq (Finset.card_range _)

/-- Bounds that are no less than the number of elements to be reached are the same. -/
theorem buildBy_visitNested_eq_visitWithin
    (hbound : (graph.reachedElements.filter (· < graph.size)).card ≤ bound)
    (deeper : DeclarationSort → Handle → Build Unit) (deeper' : Visitor) (more : Nat) :
    graph.buildBy dialect (graph.visitNested dialect deeper bound)
      = graph.buildBy dialect (graph.visitWithin dialect deeper' (bound + more + 1)) :=
  buildBy_congr hbound fun _ hentry => visitNested_agree
    (fun _ hreachable hsize => Finset.mem_filter.mpr ⟨mem_reachedElements.mpr hreachable, hsize⟩)
    deeper deeper' bound more (.root (List.mem_map_of_mem hentry))

/-- **Visits nest one deeper at most** than there are elements to be reached: what is done any
`deeper` inside does not matter. -/
theorem buildBy_visitWithin (hbound : graph.reachedElements.card ≤ bound) (deeper : Visitor) :
    graph.buildBy dialect (graph.visitWithin dialect deeper (bound + 1)) = graph.build dialect := by
  have hsome := (Finset.card_filter_le _ (· < graph.size)).trans hbound
  obtain ⟨more, hmore⟩ := Nat.exists_eq_add_of_le hsome
  obtain ⟨rest, hrest⟩ := Nat.exists_eq_add_of_le graph.card_filter_reachedElements_le
  -- whatever the bound, a build is what it is within the least one
  have hleast (deeper : Visitor) (n : Nat) :=
    @buildBy_visitNested_eq_visitWithin graph dialect _
      (le_refl (graph.reachedElements.filter (· < graph.size)).card)
      (fun _ _ => throw .nestedTooDeep) deeper n
  have hvisit : graph.visitElement dialect = graph.visit dialect (graph.size + 1) := rfl
  rw [build_eq_buildBy, hvisit, visit_eq_visitWithin, hmore, ← hleast _ more]
  conv_rhs => rw [hrest]
  exact hleast _ rest

/-- **Elements are declared inside each other** at most as often as there are elements to be
reached: how an element is declared any `deeper` inside does not matter. -/
theorem buildBy_visitNested (hbound : graph.reachedElements.card ≤ bound)
    (deeper : DeclarationSort → Handle → Build Unit) :
    graph.buildBy dialect (graph.visitNested dialect deeper bound) = graph.build dialect := by
  rw [buildBy_visitNested_eq_visitWithin ((Finset.card_filter_le _ _).trans hbound) deeper
    (fun _ => throw .nestedTooDeep) 0]
  exact buildBy_visitWithin hbound _

end Graph

end ModuleSurface
