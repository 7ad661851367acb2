import Mathlib.Data.List.Nodup
import Mathlib.Data.Finset.Card
import ModuleSurface.Proofs.Outcome

/-! # Depth-first search

Reading, writing and rendering a graph all go through it depth first and remember what they have
found. This file says what such a search finds, without the fuel that the functions carry: a forest
of first visits, the nodes below a node being those that are found while it is still open.

* **`Forest`** — a forest, written as its first tree and the trees after it.
* **`DepthFirst next found waiting forest`** — the search that has `found` some nodes and has others
  `waiting` visits `forest`.
* **`Reached next roots`** — what can be reached from the roots; `DepthFirst.mem_preorder_iff` says
  that a search from nothing finds exactly this. -/

namespace ModuleSurface

/-- **A forest**: its first tree, as a root and the forest below it, and the trees after it. -/
inductive Forest (α : Type)
  | nil
  | node (root : α) (inside rest : Forest α)

namespace Forest

variable {α β : Type}

/-- The nodes in preorder. -/
def preorder : Forest α → List α
  | nil => []
  | node root inside rest => root :: (inside.preorder ++ rest.preorder)

/-- How deep the trees nest. -/
def height : Forest α → Nat
  | nil => 0
  | node _ inside rest => max (inside.height + 1) rest.height

/-- The trees of one forest and then those of another one. -/
def append : Forest α → Forest α → Forest α
  | nil, other => other
  | node root inside rest, other => node root inside (rest.append other)

/-- A forest with its nodes renamed. -/
def map (f : α → β) : Forest α → Forest β
  | nil => nil
  | node root inside rest => node (f root) (inside.map f) (rest.map f)

/-- An empty forest has no nodes: `preorder (nil : Forest α) = []`. -/
@[simp] theorem preorder_nil : preorder (nil : Forest α) = [] := rfl

/-- A root stands before what is inside it, and that before the other trees. -/
@[simp] theorem preorder_node (root : α) (inside rest : Forest α) :
    preorder (node root inside rest) = root :: (inside.preorder ++ rest.preorder) := rfl

/-- An empty forest has no height: `height (nil : Forest α) = 0`. -/
@[simp] theorem height_nil : height (nil : Forest α) = 0 := rfl

/-- A root adds one to the height of what is inside it. -/
@[simp] theorem height_node (root : α) (inside rest : Forest α) :
    height (node root inside rest) = max (inside.height + 1) rest.height := rfl

/-- Behind an empty forest there is only the other one: `nil.append other = other`. -/
@[simp] theorem nil_append (other : Forest α) : nil.append other = other := rfl

/-- A forest is put behind another one at the end of its trees. -/
@[simp] theorem node_append (root : α) (inside rest other : Forest α) :
    (node root inside rest).append other = node root inside (rest.append other) := rfl

/-- Nothing is mapped in an empty forest: `map f nil = nil`. -/
@[simp] theorem map_nil (f : α → β) : map f nil = nil := rfl

/-- The root, what is inside it and the other trees are mapped. -/
@[simp] theorem map_node (f : α → β) (root : α) (inside rest : Forest α) :
    map f (node root inside rest) = node (f root) (inside.map f) (rest.map f) := rfl

/-- The nodes of a forest stand before those of the one that is put behind it. -/
@[simp] theorem preorder_append (forest other : Forest α) :
    (forest.append other).preorder = forest.preorder ++ other.preorder := by
  induction forest with
  | nil => rfl
  | node root inside rest _ ih => simp [ih]

/-- The nodes of `map f` are the mapped ones, in order. -/
@[simp] theorem preorder_map (f : α → β) (forest : Forest α) :
    (forest.map f).preorder = forest.preorder.map f := by
  induction forest with
  | nil => rfl
  | node root inside rest ihInside ihRest => simp [ihInside, ihRest]

/-- The height of two forests is the greater one. -/
@[simp] theorem height_append (forest other : Forest α) :
    (forest.append other).height = max forest.height other.height := by
  induction forest with
  | nil => simp
  | node root inside rest _ ih => simp [ih, max_assoc]

/-- **Forests of one shape** whose nodes are related. -/
inductive Related (R : α → β → Prop) : Forest α → Forest β → Prop
  | nil : Related R nil nil
  | node {a : α} {b : β} {inside rest : Forest α} {inside' rest' : Forest β} (root : R a b)
      (below : Related R inside inside') (later : Related R rest rest') :
      Related R (node a inside rest) (node b inside' rest')

/-- The nodes of related forests are related in order. -/
theorem Related.preorder {R : α → β → Prop} {forest : Forest α} {other : Forest β}
    (h : Related R forest other) : List.Forall₂ R forest.preorder other.preorder := by
  induction h with
  | nil => exact .nil
  | node root _ _ ihBelow ihLater => exact .cons root (List.rel_append ihBelow ihLater)

/-- A forest that is related to another one by a function is mapped to it:
`other = forest.map f`. -/
theorem Related.eq_map {R : α → β → Prop} {f : α → β} (hR : ∀ a b, R a b → b = f a)
    {forest : Forest α} {other : Forest β} (h : Related R forest other) : other = forest.map f := by
  induction h with
  | nil => rfl
  | node root _ _ ihBelow ihLater => rw [map_node, hR _ _ root, ihBelow, ihLater]

/-- A forest does not nest deeper than it has nodes: `forest.height ≤ forest.preorder.length`. -/
theorem height_le_length (forest : Forest α) : forest.height ≤ forest.preorder.length := by
  induction forest with
  | nil => simp
  | node root inside rest ihInside ihRest =>
    simp only [height_node, preorder_node, List.length_cons, List.length_append]
    omega

end Forest

variable {α β : Type}

/-- **A depth-first search.** Of the nodes that are waiting, one that is found already is passed
over; any other one is found, then what is next to it is searched, and then what waits behind it. -/
inductive DepthFirst (next : α → List α) : List α → List α → Forest α → Prop
  | done {found : List α} : DepthFirst next found [] .nil
  | again {found waiting : List α} {a : α} {forest : Forest α} (old : a ∈ found)
      (later : DepthFirst next found waiting forest) : DepthFirst next found (a :: waiting) forest
  | fresh {found waiting : List α} {a : α} {inside rest : Forest α} (new : a ∉ found)
      (below : DepthFirst next (found ++ [a]) (next a) inside)
      (later : DepthFirst next (found ++ a :: inside.preorder) waiting rest) :
      DepthFirst next found (a :: waiting) (.node a inside rest)

/-- **What can be reached** from some roots by going on to what is next. -/
inductive Reached (next : α → List α) (roots : List α) : α → Prop
  | root {a : α} (mem : a ∈ roots) : Reached next roots a
  | step {a b : α} (before : Reached next roots a) (mem : b ∈ next a) : Reached next roots b

/-- A set that holds the roots and what is `next` to its elements holds all that is reached. -/
theorem Reached.mem_of_closed {next : α → List α} {roots : List α} {S : α → Prop}
    (hroots : ∀ a ∈ roots, S a) (hclosed : ∀ a, S a → ∀ b ∈ next a, S b) {a : α}
    (h : Reached next roots a) : S a := by
  induction h with
  | root mem => exact hroots _ mem
  | step _ mem ih => exact hclosed _ ih _ mem

/-- What is reached from roots that are reached themselves is reached. -/
theorem Reached.trans {next : α → List α} {roots others : List α}
    (h : ∀ a ∈ others, Reached next roots a) {a : α} (ha : Reached next others a) :
    Reached next roots a :=
  ha.mem_of_closed h fun _ before _ mem => before.step mem

/-- **Fewer are left** where one that was left before is not left any more. -/
theorem card_filter_lt {within : Finset α} {p q : α → Prop} [DecidablePred p] [DecidablePred q]
    (himp : ∀ a, p a → q a) {a : α} (hmem : a ∈ within) (hbefore : q a) (hafter : ¬ p a) :
    (within.filter p).card < (within.filter q).card := by
  refine Finset.card_lt_card (Finset.ssubset_iff_of_subset ?_ |>.mpr ⟨a, ?_, ?_⟩)
  · exact Finset.monotone_filter_right within fun b _ => himp b
  · exact Finset.mem_filter.mpr ⟨hmem, hbefore⟩
  · exact fun ha => hafter (Finset.mem_filter.mp ha).2

namespace DepthFirst

variable {next : α → List α} {found waiting : List α} {forest : Forest α}

/-- There is only one search: `DepthFirst` determines the forest. -/
theorem unique (h : DepthFirst next found waiting forest) {other : Forest α}
    (h' : DepthFirst next found waiting other) : forest = other := by
  induction h generalizing other with
  | done => cases h'; rfl
  | again old _ ih =>
    cases h' with
    | again _ later => exact ih later
    | fresh new _ _ => exact absurd old new
  | fresh new _ _ ihBelow ihLater =>
    cases h' with
    | again old _ => exact absurd old new
    | fresh _ below later =>
      obtain rfl := ihBelow below
      rw [ihLater later]

/-- What is found is found once, and was not found before, so `found ++ forest.preorder` has no
duplicates. -/
theorem nodup (h : DepthFirst next found waiting forest) (hfound : found.Nodup) :
    (found ++ forest.preorder).Nodup := by
  induction h with
  | done => simpa using hfound
  | again _ _ ih => exact ih hfound
  | @fresh found _ a inside rest new _ _ ihBelow ihLater =>
    have hbelow : (found ++ [a] ++ inside.preorder).Nodup := by
      refine ihBelow ?_
      rw [List.nodup_append]
      refine ⟨hfound, List.nodup_singleton a, ?_⟩
      intro b hb c hc hbc
      rw [List.mem_singleton] at hc
      exact new (hc ▸ hbc ▸ hb)
    rw [List.append_assoc, List.singleton_append] at hbelow
    simpa [List.append_assoc] using ihLater hbelow

/-- All that is waiting gets found: `a ∈ found ∨ a ∈ forest.preorder`. -/
theorem waiting_found (h : DepthFirst next found waiting forest) {a : α} (ha : a ∈ waiting) :
    a ∈ found ∨ a ∈ forest.preorder := by
  induction h with
  | done => simp at ha
  | again old _ ih =>
    rcases List.mem_cons.mp ha with rfl | ha
    · exact .inl old
    · exact ih ha
  | fresh new _ _ _ ihLater =>
    rcases List.mem_cons.mp ha with rfl | ha
    · simp
    · have := ihLater ha
      simp only [List.mem_append, List.mem_cons] at this
      simp only [Forest.preorder_node, List.mem_cons, List.mem_append]
      grind

/-- What is next to a node of the forest is found as well. It may have been found before, and then
it may still be open. -/
theorem next_found (h : DepthFirst next found waiting forest) {a b : α}
    (ha : a ∈ forest.preorder) (hb : b ∈ next a) : b ∈ found ∨ b ∈ forest.preorder := by
  induction h with
  | done => simp at ha
  | again _ _ ih => exact ih ha
  | fresh _ below _ ihBelow ihLater =>
    simp only [Forest.preorder_node, List.mem_cons, List.mem_append, List.not_mem_nil,
      or_false] at ha ihBelow ihLater ⊢
    rcases ha with rfl | ha | ha
    · have := below.waiting_found hb
      simp only [List.mem_append, List.mem_singleton] at this
      grind
    · have := ihBelow ha
      grind
    · have := ihLater ha
      grind

/-- Only what can be `Reached` is found. -/
theorem reached (h : DepthFirst next found waiting forest) {a : α} (ha : a ∈ forest.preorder) :
    Reached next waiting a := by
  induction h with
  | done => simp at ha
  | again _ _ ih => exact Reached.trans (fun b hb => .root (List.mem_cons_of_mem _ hb)) (ih ha)
  | fresh _ _ _ ihBelow ihLater =>
    simp only [Forest.preorder_node, List.mem_cons, List.mem_append] at ha
    rcases ha with rfl | ha | ha
    · exact .root List.mem_cons_self
    · exact Reached.trans (fun b hb => .step (.root List.mem_cons_self) hb) (ihBelow ha)
    · exact Reached.trans (fun b hb => .root (List.mem_cons_of_mem _ hb)) (ihLater ha)

/-- **A search from nothing finds exactly what can be reached**: `forest.preorder` holds what is
`Reached`. -/
theorem mem_preorder_iff (h : DepthFirst next [] waiting forest) {a : α} :
    a ∈ forest.preorder ↔ Reached next waiting a := by
  constructor
  · exact h.reached
  · refine Reached.mem_of_closed (fun b hb => ?_) (fun b hb c hc => ?_)
    · simpa using h.waiting_found hb
    · simpa using h.next_found hb hc

/-- A search from nothing finds everything once. -/
theorem nodup_preorder (h : DepthFirst next [] waiting forest) : forest.preorder.Nodup := by
  simpa using h.nodup List.nodup_nil

/-- **Searching two lists one after the other** gives two forests, `forest₁.append forest₂`, and the
second search knows what the first one found. -/
theorem append_iff {first second : List α} :
    DepthFirst next found (first ++ second) forest ↔
      ∃ forest₁ forest₂, forest = forest₁.append forest₂ ∧ DepthFirst next found first forest₁ ∧
        DepthFirst next (found ++ forest₁.preorder) second forest₂ := by
  constructor
  · intro h
    induction first generalizing found forest with
    | nil => exact ⟨.nil, forest, rfl, .done, by simpa using h⟩
    | cons a first ih =>
      cases h with
      | again old later =>
        obtain ⟨forest₁, forest₂, rfl, h₁, h₂⟩ := ih later
        exact ⟨forest₁, forest₂, rfl, .again old h₁, h₂⟩
      | fresh new below later =>
        obtain ⟨forest₁, forest₂, rfl, h₁, h₂⟩ := ih later
        exact ⟨.node a _ forest₁, forest₂, rfl, .fresh new below h₁, by simpa using h₂⟩
  · rintro ⟨forest₁, forest₂, rfl, h₁, h₂⟩
    induction h₁ with
    | done => simpa using h₂
    | again old _ ih => exact .again old (ih h₂)
    | fresh new below _ _ ih => exact .fresh new below (ih (by simpa using h₂))

/-- Searching from one node and then from the others. -/
theorem cons_iff {a : α} :
    DepthFirst next found (a :: waiting) forest ↔
      ∃ forest₁ forest₂, forest = forest₁.append forest₂ ∧ DepthFirst next found [a] forest₁ ∧
        DepthFirst next (found ++ forest₁.preorder) waiting forest₂ := by
  rw [← List.singleton_append, append_iff]

/-- **A search with a bound** finds its forest where the bound is no less than the height. It passes
over a node that is found, and finds any other one and then what is `next` to it, within a bound that
is one less. -/
theorem foldl_eq (h : DepthFirst next found waiting forest) (search : Nat → List α → α → List α)
    (again : ∀ bound found a, a ∈ found → search bound found a = found)
    (fresh : ∀ bound found a, a ∉ found →
      search (bound + 1) found a = (next a).foldl (search bound) (found ++ [a]))
    {bound : Nat} (hheight : forest.height ≤ bound) :
    waiting.foldl (search bound) found = found ++ forest.preorder := by
  induction h generalizing bound with
  | done => simp
  | again old _ ih => rw [List.foldl_cons, again bound _ _ old, ih hheight]
  | @fresh found waiting a inside rest new _ _ ihBelow ihLater =>
    rw [Forest.height_node, max_le_iff] at hheight
    obtain ⟨less, rfl⟩ := Nat.exists_eq_succ_of_ne_zero (Nat.ne_zero_of_lt hheight.1)
    have hinside : search (less + 1) found a = found ++ a :: inside.preorder := by
      rw [fresh less found a new, ihBelow (Nat.le_of_succ_le_succ hheight.1)]
      simp
    rw [List.foldl_cons, hinside, ihLater hheight.2]
    simp

/-- **There is a search** wherever what can be found is finite. Every node that is found leaves
fewer to be found, so the induction is on how many are left, and within it on what is waiting. -/
theorem exists_of_closed [DecidableEq α] (within : Finset α)
    (closed : ∀ a ∈ within, ∀ b ∈ next a, b ∈ within) (found waiting : List α)
    (hwaiting : ∀ a ∈ waiting, a ∈ within) : ∃ forest, DepthFirst next found waiting forest := by
  induction hleft : (within.filter (· ∉ found)).card using Nat.strongRecOn
    generalizing found waiting with
  | _ left ih =>
    induction waiting with
    | nil => exact ⟨.nil, .done⟩
    | cons a waiting ihWaiting =>
      have hrest : ∀ b ∈ waiting, b ∈ within := fun b hb => hwaiting b (List.mem_cons_of_mem a hb)
      have ha : a ∈ within := hwaiting a List.mem_cons_self
      by_cases hold : a ∈ found
      · obtain ⟨forest, h⟩ := ihWaiting hrest
        exact ⟨forest, .again hold h⟩
      -- a new node leaves fewer: what is inside it and what waits behind it have their own searches
      · have fewer (more : List α) (hmore : ∀ b ∈ found ++ [a], b ∈ more) :
            (within.filter (· ∉ more)).card < left := by
          rw [← hleft]
          refine card_filter_lt (fun b hb h => hb ?_) ha hold ?_
          · exact hmore b (List.mem_append_left _ h)
          · exact not_not_intro (hmore a (by simp))
        obtain ⟨inside, hinside⟩ := ih _ (fewer (found ++ [a]) fun _ h => h) (found ++ [a]) (next a)
          (closed a ha) rfl
        obtain ⟨rest, hlater⟩ := ih _ (fewer (found ++ a :: inside.preorder) fun b hb => by
            simp only [List.mem_append, List.mem_cons, List.not_mem_nil, or_false] at hb ⊢
            grind)
          (found ++ a :: inside.preorder) waiting hrest rfl
        exact ⟨.node a inside rest, .fresh hold hinside hlater⟩

/-- **A search depends only on what is next to what is reached**: `next'` may differ from `next`
elsewhere. -/
theorem congr {next' : α → List α} (h : DepthFirst next found waiting forest)
    (hnext : ∀ a, Reached next waiting a → next' a = next a) :
    DepthFirst next' found waiting forest := by
  induction h with
  | done => exact .done
  | @again _ waiting a _ old _ ih =>
    exact .again old (ih fun b hb => hnext b
      (Reached.trans (fun c hc => .root (List.mem_cons_of_mem a hc)) hb))
  | @fresh _ waiting a _ _ new _ _ ihBelow ihLater =>
    have ha : Reached next (a :: waiting) a := .root List.mem_cons_self
    refine .fresh new ?_ (ihLater fun b hb => hnext b
      (Reached.trans (fun c hc => .root (List.mem_cons_of_mem a hc)) hb))
    rw [hnext a ha]
    exact ihBelow fun b hb => hnext b (Reached.trans (fun _ hc => .step ha hc) hb)

/-- **Searches from related nodes are related**, if what is next to related nodes is related, and the
relation pairs nodes one to one. -/
theorem related {next' : β → List β} {R : α → β → Prop}
    (hnext : ∀ a b, R a b → List.Forall₂ R (next a) (next' b))
    (hone : ∀ a b a' b', R a b → R a' b' → (a = a' ↔ b = b'))
    (h : DepthFirst next found waiting forest) {found' waiting' : List β}
    (hfound : List.Forall₂ R found found') (hwaiting : List.Forall₂ R waiting waiting') :
    ∃ forest', forest.Related R forest' ∧ DepthFirst next' found' waiting' forest' := by
  induction h generalizing found' waiting' with
  | done =>
    cases hwaiting
    exact ⟨.nil, .nil, .done⟩
  | @again found waiting a _ old _ ih =>
    cases hwaiting with
    | @cons _ b _ waiting' hroot hrest =>
      -- a node that was found is paired with one that was, and with no other
      obtain ⟨b', hb', hrelated⟩ := exists_of_mem_forall₂ hfound old
      obtain rfl := (hone a b a b' hroot hrelated).mp rfl
      obtain ⟨forest', hforest, hsearch⟩ := ih hfound hrest
      exact ⟨forest', hforest, .again hb' hsearch⟩
  | @fresh found waiting a _ _ new _ _ ihBelow ihLater =>
    cases hwaiting with
    | @cons _ b _ waiting' hroot hrest =>
      have hnew : b ∉ found' := by
        intro hb
        obtain ⟨a', ha', hrelated⟩ := exists_of_mem_forall₂ hfound.flip hb
        exact new ((hone a b a' b hroot hrelated).mpr rfl ▸ ha')
      obtain ⟨inside', hinside, hbelow⟩ :=
        ihBelow (List.rel_append hfound (.cons hroot .nil)) (hnext a b hroot)
      obtain ⟨rest', hrest, hlater⟩ :=
        ihLater (List.rel_append hfound (.cons hroot hinside.preorder)) hrest
      exact ⟨.node b inside' rest', .node hroot hinside hrest, .fresh hnew hbelow hlater⟩

/-- **A renaming that confuses no nodes** turns a search into a search. -/
theorem map {next' : β → List β} (f : α → β) {S : α → Prop}
    (hclosed : ∀ a, S a → ∀ b ∈ next a, S b) (hinj : ∀ a b, S a → S b → f a = f b → a = b)
    (hnext : ∀ a, S a → next' (f a) = (next a).map f) (hfound : ∀ a ∈ found, S a)
    (hwaiting : ∀ a ∈ waiting, S a) (h : DepthFirst next found waiting forest) :
    DepthFirst next' (found.map f) (waiting.map f) (forest.map f) := by
  have hlist (items : List α) (hitems : ∀ a ∈ items, S a) :
      List.Forall₂ (fun a b => S a ∧ b = f a) items (items.map f) :=
    List.forall₂_map_right_iff.mpr (List.forall₂_same.mpr fun a ha => ⟨hitems a ha, rfl⟩)
  have hsuccessors (a : α) (b : β) (hab : S a ∧ b = f a) :
      List.Forall₂ (fun a b => S a ∧ b = f a) (next a) (next' b) := by
    obtain ⟨ha, rfl⟩ := hab
    exact hnext a ha ▸ hlist _ (hclosed a ha)
  obtain ⟨forest', hforest, hsearch⟩ := h.related hsuccessors
    (by rintro a b a' b' ⟨ha, rfl⟩ ⟨ha', rfl⟩; exact ⟨congrArg f, hinj a a' ha ha'⟩)
    (hlist found hfound) (hlist waiting hwaiting)
  exact hforest.eq_map (fun _ _ hab => hab.2) ▸ hsearch

/-- A search among the numbers below a bound does not nest deeper than the bound:
`forest.height ≤ bound`. -/
theorem height_le {next : Nat → List Nat} {waiting : List Nat} {forest : Forest Nat} {bound : Nat}
    (h : DepthFirst next [] waiting forest) (hbound : ∀ a, Reached next waiting a → a < bound) :
    forest.height ≤ bound := by
  have hsubset : forest.preorder ⊆ List.range bound := fun a ha =>
    List.mem_range.mpr (hbound a (h.reached ha))
  calc forest.height ≤ forest.preorder.length := forest.height_le_length
    _ ≤ (List.range bound).length := (h.nodup_preorder.subperm hsubset).length_le
    _ = bound := List.length_range

/-- A search among numbers nests one deeper at most than it finds numbers below a size, if nothing is
`next` to those beyond it. -/
theorem height_le_of_beyond {next : Nat → List Nat} {found waiting : List Nat} {forest : Forest Nat}
    {size : Nat} (hbeyond : ∀ a, size ≤ a → next a = [])
    (h : DepthFirst next found waiting forest) :
    forest.height ≤ (forest.preorder.filter (· < size)).length + 1 := by
  induction h with
  | done => simp
  | again _ _ ih => exact ih
  | @fresh found waiting a inside rest _ below _ ihBelow ihLater =>
    rw [Forest.height_node, Forest.preorder_node, List.filter_cons, List.filter_append]
    by_cases ha : a < size
    · simp only [ha, decide_true, if_true, List.length_cons, List.length_append]
      omega
    · rw [hbeyond a (Nat.le_of_not_lt ha)] at below
      cases below
      simp only [ha, decide_false, Forest.height_nil, Bool.false_eq_true, if_false, List.length_append]
      omega

/-- A search among numbers nests one deeper at most than there are numbers below a size, if nothing is
`next` to those beyond it. -/
theorem height_le_succ_of_beyond {next : Nat → List Nat} {waiting : List Nat} {forest : Forest Nat}
    {size : Nat} (hbeyond : ∀ a, size ≤ a → next a = []) (h : DepthFirst next [] waiting forest) :
    forest.height ≤ size + 1 := by
  have hsubset : forest.preorder.filter (· < size) ⊆ List.range size := fun a ha =>
    List.mem_range.mpr (by simpa using (List.mem_filter.mp ha).2)
  have hlength := ((h.nodup_preorder.filter _).subperm hsubset).length_le
  rw [List.length_range] at hlength
  exact (height_le_of_beyond hbeyond h).trans (Nat.succ_le_succ hlength)

end DepthFirst

end ModuleSurface
