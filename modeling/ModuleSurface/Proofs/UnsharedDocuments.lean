import ModuleSurface.Proofs.Representation
import ModuleSurface.Proofs.TreeCopy

/-! # Documents without sharing

A document shares nothing when no two ways from its exports lead to the same map. A tree shares
nothing: each map of its document stands for one part of it. And what is read from a document without
sharing contains nothing at two places.

* **`Document.Unshared`** — no map is reached in two ways.
* **`Document.ofTree_unshared`** — the documents of trees.
* **`Graph.MadeOf.unshared`** — what is read from such a document. -/

namespace ModuleSurface

/-- **No map is reached in two ways**: the document is the unfolding of itself. -/
def Document.Unshared (document : Document) : Prop :=
  ∃ forest, Unfolded document.store.refersTo document.exportedMaps forest ∧ forest.preorder.Nodup

/-- **What is read from a document without sharing** is `Unshared`: it contains nothing at two
places. -/
theorem Graph.MadeOf.unshared {graph : Graph} {document : Document} {forest : Forest Visit}
    (h : graph.MadeOf document forest) (hunshared : document.Unshared) : graph.Unshared := by
  obtain ⟨unfolding, hunfolding, hnodup⟩ := hunshared
  refine ⟨unfolding.map forest.refs.idxOf, ?_, ?_⟩
  · rw [h.exported]
    exact hunfolding.map forest.refs.idxOf (S := document.Reaches) (fun _ hr _ hs => .step hr hs)
      (fun _ hr => h.successors hr) fun _ hr => .root hr
  · rw [Forest.preorder_map]
    exact hnodup.map_on fun r hr _ _ heq => (h.idxOf_inj (hunfolding.reached hr)).mp heq

/-! ## Trees -/

/-- A draft of scalars, whatever they are. -/
def Draft.OfScalars : Draft → Prop := Draft.Every (fun _ => True) fun _ => True

/-- Every tree is the tree of a draft. -/
theorem Tree.exists_draft (tree : Tree) : ∃ draft : Draft, draft.OfScalars ∧ draft.tree = tree := by
  refine @Tree.rec (fun tree => ∃ draft : Draft, draft.OfScalars ∧ draft.tree = tree)
    (fun items => ∃ drafts : List Draft, (∀ draft ∈ drafts, draft.OfScalars) ∧
      drafts.map Draft.tree = items)
    (fun entries => ∃ drafts : List (Scalar × Draft), (∀ entry ∈ drafts, entry.2.OfScalars) ∧
      (drafts.map fun entry => (entry.1, entry.2.tree)) = entries)
    (fun entry => ∃ draft : Draft, draft.OfScalars ∧ draft.tree = entry.2)
    ?_ ?_ ?_ ?_ ?_ ?_ ?_ ?_ tree
  · exact fun s => ⟨.value (.scalar s), .scalar trivial, by simp⟩
  · rintro _ ⟨drafts, hdrafts, rfl⟩
    exact ⟨.list drafts, .list hdrafts, by simp⟩
  · rintro _ ⟨drafts, hdrafts, rfl⟩
    exact ⟨.map drafts, .map trivial hdrafts, by simp⟩
  · exact ⟨[], by simp, rfl⟩
  · rintro _ _ ⟨draft, hdraft, rfl⟩ ⟨drafts, hdrafts, rfl⟩
    exact ⟨draft :: drafts, List.forall_mem_cons.mpr ⟨hdraft, hdrafts⟩, rfl⟩
  · exact ⟨[], by simp, rfl⟩
  · rintro ⟨key, _⟩ _ ⟨draft, hdraft, rfl⟩ ⟨drafts, hdrafts, rfl⟩
    exact ⟨(key, draft) :: drafts, List.forall_mem_cons.mpr ⟨hdraft, hdrafts⟩, rfl⟩
  · exact fun _ _ h => h

namespace Store

/-! ### Unfolding within some maps -/

/-- **Maps are unfolded**, and show maps among some. -/
def UnfoldsWithin (store : Store) (refs : List Nat) (maps : Multiset Nat) : Prop :=
  ∃ forest, Unfolded store.refersTo refs forest ∧ (forest.preorder : Multiset Nat) ≤ maps

namespace UnfoldsWithin

variable {store : Store} {refs refs' : List Nat} {maps maps' : Multiset Nat}

/-- Nothing shows no maps. -/
theorem nil (maps : Multiset Nat) : store.UnfoldsWithin [] maps :=
  ⟨.nil, .done, Multiset.zero_le _⟩

/-- What unfolds within maps unfolds within more of them. -/
theorem mono (h : store.UnfoldsWithin refs maps) (hle : maps ≤ maps') :
    store.UnfoldsWithin refs maps' := by
  obtain ⟨forest, hunfolded, hmaps⟩ := h
  exact ⟨forest, hunfolded, hmaps.trans hle⟩

/-- What unfolds behind other things unfolds within the maps of both. -/
theorem append (h : store.UnfoldsWithin refs maps) (h' : store.UnfoldsWithin refs' maps') :
    store.UnfoldsWithin (refs ++ refs') (maps + maps') := by
  obtain ⟨forest, hunfolded, hmaps⟩ := h
  obtain ⟨forest', hunfolded', hmaps'⟩ := h'
  refine ⟨forest.append forest', hunfolded.append hunfolded', ?_⟩
  rw [Forest.preorder_append, ← Multiset.coe_add]
  exact add_le_add hmaps hmaps'

end UnfoldsWithin

/-! ### Fields -/

/-- **Fields that stand for drafts** below a height. -/
structure Fields (store : Store) (height : Nat) (drafts : List (Scalar × Draft)) (entries : Entries) :
    Prop where
  holds : store.HoldsEntries drafts entries
  scalars : ∀ entry ∈ drafts, entry.2.OfScalars
  low : ∀ entry ∈ drafts, entry.2.height < height

variable {store : Store} {height : Nat}

/-- **A field and the other ones**: its value stands for a draft of its own. -/
theorem Fields.take {drafts : List (Scalar × Draft)} {entries : Entries}
    (h : store.Fields height drafts entries) (hpos : 0 < height) (name : String) :
    ∃ (draft : Draft) (rest : List (Scalar × Draft)) (others : Entries),
      store.Holds draft (entries.field name) ∧ draft.OfScalars ∧ draft.height < height ∧
      store.Fields height rest others ∧
      store.mapsOf draft (entries.field name) + store.mapsOfEntries rest others
        ≤ store.mapsOfEntries drafts entries ∧
      ∀ other, other ≠ name → others.field other = entries.field other := by
  obtain ⟨holds, scalars, low⟩ := h
  induction holds with
  | nil =>
    exact ⟨.value .null, [], [], .value _, .scalar trivial, by simpa [Draft.height],
      ⟨.nil, by simp, by simp⟩, by simp [mapsOfEntries], fun _ _ => rfl⟩
  | @cons entry entry' drafts entries hfirst hrest ih =>
    obtain ⟨key, draft⟩ := entry
    obtain ⟨_, v⟩ := entry'
    obtain ⟨rfl, hv⟩ := hfirst
    rw [List.forall_mem_cons] at scalars low
    have hfield (other : String) : Entries.field ((key, v) :: entries) other
        = if key = .text other then v else Entries.field entries other := by
      by_cases heq : key = .text other <;> simp [Entries.field, Entries.field?, heq]
    -- the first entry of the name is taken, the others stay with what is left
    by_cases hkey : key = .text name
    · refine ⟨draft, drafts, entries, ?_, scalars.1, low.1, ⟨hrest, scalars.2, low.2⟩, ?_, ?_⟩
      · rwa [hfield, if_pos hkey]
      · rw [hfield, if_pos hkey, mapsOfEntries]
      · intro other hother
        rw [hfield, if_neg (by rw [hkey]; simpa using hother.symm)]
    · obtain ⟨taken, rest, others, hholds, hscalars, hlow, hfields, hmaps, hkept⟩ :=
        ih scalars.2 low.2
      refine ⟨taken, (key, draft) :: rest, (key, v) :: others, ?_, hscalars, hlow,
        ⟨.cons ⟨rfl, hv⟩ hfields.holds, List.forall_mem_cons.mpr ⟨scalars.1, hfields.scalars⟩,
          List.forall_mem_cons.mpr ⟨low.1, hfields.low⟩⟩, ?_, ?_⟩
      · rwa [hfield, if_neg hkey]
      · rw [hfield, if_neg hkey, mapsOfEntries, mapsOfEntries, add_left_comm]
        exact add_le_add_right hmaps _
      · intro other hother
        have hsame : Entries.field others other = Entries.field entries other := hkept other hother
        by_cases heq : key = .text other <;> simp [Entries.field, Entries.field?, heq] at hsame ⊢
        exact hsame

/-! ### What stands for drafts -/

/-- **What stands for a draft below a height** shows maps that stand for parts of it. -/
def UnfoldsBelow (store : Store) (height : Nat) : Prop :=
  ∀ (draft : Draft) (v : Value), draft.height < height → draft.OfScalars → store.Holds draft v →
    store.UnfoldsWithin v.map?.toList (store.mapsOf draft v)

namespace UnfoldsBelow

variable {draft : Draft} {v : Value}

/-- The maps among values that stand for drafts. -/
theorem items (hbelow : store.UnfoldsBelow height) {drafts : List Draft} {values : List Value}
    (h : List.Forall₂ store.Holds drafts values) (hscalars : ∀ draft ∈ drafts, draft.OfScalars)
    (hlow : ∀ draft ∈ drafts, draft.height < height) :
    store.UnfoldsWithin (values.filterMap Value.map?) (store.mapsOfItems drafts values) := by
  induction h with
  | nil => exact .nil _
  | @cons draft v drafts values hv _ ih =>
    rw [List.forall_mem_cons] at hscalars hlow
    have happend := (hbelow draft v hlow.1 hscalars.1 hv).append (ih hscalars.2 hlow.2)
    rw [mapsOfItems]
    cases v <;> exact happend

/-- The maps of a member map, `memberCalls v`, unfold within those of what it stands for. -/
theorem memberCalls (hbelow : store.UnfoldsBelow height) (h : store.Holds draft v)
    (hscalars : draft.OfScalars) (hlow : draft.height ≤ height) :
    store.UnfoldsWithin (calledMaps (store.memberCalls v)) (store.mapsOf draft v) := by
  cases h with
  | value => cases hscalars; exact .nil _
  | list => exact .nil _
  | @map entries ref _ _ each =>
    obtain _ | _ | ⟨-, hscalars⟩ := hscalars
    rw [Draft.height, Draft.heightEntries_eq] at hlow
    have hitems := hbelow.items each (List.forall_mem_map.mpr hscalars) fun draft hdraft =>
      (Nat.lt_succ_of_le (Draft.height_le_heightItems hdraft)).trans_le hlow
    rw [mapsOf, mapsOfEntries_eq]
    refine UnfoldsWithin.mono ?_ (Multiset.le_add_left _ _)
    simpa [Store.memberCalls, calledMaps, List.filterMap_map, Function.comp_def] using hitems

/-- The instances of a list, `instanceCalls name v`, unfold within the maps of what it stands for.
-/
theorem instanceCalls (hbelow : store.UnfoldsBelow height) (name : Value) (h : store.Holds draft v)
    (hscalars : draft.OfScalars) (hlow : draft.height ≤ height) :
    store.UnfoldsWithin (calledMaps (store.instanceCalls name v)) (store.mapsOf draft v) := by
  unfold Store.instanceCalls
  split
  · cases h with
    | value => cases hscalars; exact .nil _
    | map => exact .nil _
    | @list items ref _ each =>
      obtain _ | hscalars := hscalars
      rw [Draft.height] at hlow
      have hitems := hbelow.items each hscalars fun draft hdraft =>
        (Nat.lt_succ_of_le (Draft.height_le_heightItems hdraft)).trans_le hlow
      rw [mapsOf]
      simpa [calledMaps, List.filterMap_map, Function.comp_def] using hitems
  · exact .nil _

/-- A base, `baseCalls v`, unfolds within the maps of what it stands for. -/
theorem baseCalls (hbelow : store.UnfoldsBelow height) (h : store.Holds draft v)
    (hscalars : draft.OfScalars) (hlow : draft.height < height) :
    store.UnfoldsWithin (calledMaps (Store.baseCalls v)) (store.mapsOf draft v) := by
  have hbase := hbelow draft v hlow hscalars h
  unfold Store.baseCalls
  cases hv : v.nonNull? with
  | none => exact .nil _
  | some given =>
    obtain rfl : given = v := by
      have hvalue := v.ofOption_nonNull?
      rwa [hv] at hvalue
    cases given <;> exact hbase

/-- What a body of a kind refers to, its `linkCalls`, unfolds within the maps of the fields. -/
theorem linkCalls (hbelow : store.UnfoldsBelow height) (hpos : 0 < height) (name : Value)
    {drafts : List (Scalar × Draft)} {entries : Entries} (h : store.Fields height drafts entries)
    (kind : ElementKind) : store.UnfoldsWithin (calledMaps (store.linkCalls name entries kind))
      (store.mapsOfEntries drafts entries) := by
  have hinstances : store.UnfoldsWithin
      (calledMaps (store.instanceCalls name (entries.field "instances")))
      (store.mapsOfEntries drafts entries) := by
    obtain ⟨draft, rest, others, hholds, hscalars, hlow, -, hmaps, -⟩ := h.take hpos "instances"
    exact (hbelow.instanceCalls name hholds hscalars hlow.le).mono
      ((Multiset.le_add_right _ _).trans hmaps)
  have hclass : store.UnfoldsWithin (calledMaps (Store.baseCalls (entries.field "base")
      ++ store.memberCalls (entries.field "static_members")
      ++ store.memberCalls (entries.field "instance_members")))
      (store.mapsOfEntries drafts entries) := by
    -- three fields of different names are taken one after the other
    obtain ⟨base, rest₁, others₁, hbase, hscalars₁, hlow₁, hrest₁, hmaps₁, hkept₁⟩ :=
      h.take hpos "base"
    obtain ⟨statics, rest₂, others₂, hstatics, hscalars₂, hlow₂, hrest₂, hmaps₂, hkept₂⟩ :=
      hrest₁.take hpos "static_members"
    obtain ⟨members, rest₃, others₃, hmembers, hscalars₃, hlow₃, -, hmaps₃, -⟩ :=
      hrest₂.take hpos "instance_members"
    rw [hkept₁ _ (by decide)] at hstatics hmaps₂
    rw [hkept₂ _ (by decide), hkept₁ _ (by decide)] at hmembers hmaps₃
    rw [calledMaps_append, calledMaps_append]
    refine (((hbelow.baseCalls hbase hscalars₁ hlow₁).append
      (hbelow.memberCalls hstatics hscalars₂ hlow₂.le)).append
      (hbelow.memberCalls hmembers hscalars₃ hlow₃.le)).mono ?_
    have hlast := (Multiset.le_add_right _ _).trans hmaps₃
    rw [add_assoc]
    exact (add_le_add_right ((add_le_add_right hlast _).trans hmaps₂) _).trans hmaps₁
  cases kind with
  | functionPrototype | classPrototype => exact hinstances
  | classType | interfaceType => exact hclass
  | _ => exact .nil _

/-- All that a map refers to, `store.refersTo r`, unfolds within the maps of its entries. -/
theorem refersTo (hbelow : store.UnfoldsBelow height) (hpos : 0 < height) {r : Nat}
    {drafts : List (Scalar × Draft)} (h : store.Fields height drafts (store.entries r)) :
    store.UnfoldsWithin (store.refersTo r) (store.mapsOfEntries drafts (store.entries r)) := by
  obtain ⟨draft, rest, others, hholds, hscalars, hlow, hrest, hmaps, hkept⟩ := h.take hpos "members"
  refine ((hbelow.memberCalls hholds hscalars hlow.le).append ?_).mono hmaps
  cases (store.entries r).kind? with
  | none => exact .nil _
  | some kind =>
    have hlinks := hbelow.linkCalls hpos .null hrest kind
    have hsame : store.linkCalls .null others kind
        = store.linkCalls .null (store.entries r) kind := by
      cases kind <;> simp [Store.linkCalls, hkept]
    rwa [hsame] at hlinks

end UnfoldsBelow

/-- **What stands for a draft of scalars** shows each map at most as often as it stands for a part of
the draft. -/
theorem unfoldsBelow (store : Store) (height : Nat) : store.UnfoldsBelow height := by
  induction height with
  | zero => exact fun _ _ hlow => absurd hlow (Nat.not_lt_zero _)
  | succ height ih =>
    intro draft v hlow hscalars hholds
    cases hholds with
    | value => cases hscalars; exact .nil _
    | list => exact .nil _
    | @map entries ref _ keys each =>
      obtain _ | _ | ⟨-, hscalars⟩ := hscalars
      rw [Draft.height, Draft.heightEntries_eq] at hlow
      have hfields : store.Fields height entries (store.entries ref) := by
        refine ⟨holdsEntries_iff.mpr ⟨keys, each⟩, hscalars, fun entry hentry => ?_⟩
        have hle := Draft.height_le_heightItems (List.mem_map_of_mem (f := (·.2)) hentry)
        omega
      obtain ⟨inside, hinside, hmaps⟩ := ih.refersTo (by omega) hfields
      refine ⟨.node ref inside .nil, .node hinside .done, ?_⟩
      rw [Forest.preorder_node, Forest.preorder, List.append_nil, mapsOf, ← Multiset.cons_coe,
        ← Multiset.singleton_add]
      exact add_le_add_right hmaps _

end Store

/-- Where a document stands for a draft of scalars, its exports show each map at most as often as it
stands for a part of the draft. -/
theorem Document.exportedMaps_unfold {document : Document} {draft : Draft}
    (hholds : document.store.Holds draft document.root) (hscalars : draft.OfScalars) :
    document.store.UnfoldsWithin document.exportedMaps
      (document.store.mapsOf draft document.root) := by
  unfold exportedMaps calls
  cases hroot : document.root with
  | map ref =>
    rw [hroot] at hholds
    obtain _ | _ | @⟨entries, _, -, keys, each⟩ := hholds
    · cases hscalars
    obtain _ | _ | ⟨-, hscalars⟩ := hscalars
    have hfields : document.store.Fields (Draft.heightItems (entries.map (·.2)) + 1) entries
        (document.store.entries ref) :=
      ⟨Store.holdsEntries_iff.mpr ⟨keys, each⟩, hscalars, fun entry hentry => Nat.lt_succ_of_le
        (Draft.height_le_heightItems (List.mem_map_of_mem (f := (·.2)) hentry))⟩
    -- the exports are one field of the root; the other fields add maps, if any
    obtain ⟨exports, rest, others, hexports, hscalars, hlow, -, hmaps, -⟩ :=
      hfields.take (Nat.succ_pos _) "exports"
    have hcalls := (document.store.unfoldsBelow _).memberCalls hexports hscalars hlow.le
    have hle : document.store.mapsOf exports ((document.store.entries ref).field "exports")
        ≤ document.store.mapsOf (.map entries) (.map ref) := by
      rw [Store.mapsOf]
      exact ((Multiset.le_add_right _ _).trans hmaps).trans (Multiset.le_add_left _ _)
    simp only [Store.exportCalls]
    split
    · exact hcalls.mono hle
    · exact .nil _
  | _ => exact .nil _

/-- **The document of a tree shares nothing**: `Document.ofTree tree` is `Unshared`. -/
theorem Document.ofTree_unshared (tree : Tree) : (Document.ofTree tree).Unshared := by
  obtain ⟨draft, hscalars, rfl⟩ := tree.exists_draft
  obtain ⟨hholds, hnodup⟩ := Draft.ofTree_holds hscalars
  have hexports : (Document.ofTree draft.tree).store.UnfoldsWithin
      (Document.ofTree draft.tree).exportedMaps
      ((Document.ofTree draft.tree).store.mapsOf draft (Document.ofTree draft.tree).root) :=
    exportedMaps_unfold hholds hscalars
  obtain ⟨forest, hunfolded, hle⟩ := hexports
  exact ⟨forest, hunfolded, Multiset.coe_nodup.mp (Multiset.nodup_of_le hle hnodup)⟩

end ModuleSurface
