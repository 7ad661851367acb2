import ModuleSurface.Proofs.DepthFirst

/-! # Unfolding

Where nothing leads back to itself, a graph can be unfolded: every node is written out at each place
that leads to it, however often that is. The unfolding is a forest too, and a depth-first search
keeps the first one of the places at which it shows a node.

* **`Unfolded next waiting forest`** — the unfolding of what waits is `forest`.
* **`Unfolded.exists_of_acyclic`** — there is one where nothing leads back to itself.
* **`Unfolded.depthFirst`** — an unfolding that shows nothing twice is the search.
* **`DepthFirst.preorder_eq_firsts`** — a search finds what the unfolding shows, each node at its
  first place. -/

namespace ModuleSurface

variable {α β : Type}

/-- **An unfolding.** A node that waits is shown, what is next to it is unfolded below it, and what
waits behind it after it. -/
inductive Unfolded (next : α → List α) : List α → Forest α → Prop
  | done : Unfolded next [] .nil
  | node {waiting : List α} {a : α} {inside rest : Forest α} (below : Unfolded next (next a) inside)
      (later : Unfolded next waiting rest) : Unfolded next (a :: waiting) (.node a inside rest)

namespace Unfolded

variable {next : α → List α} {waiting : List α} {forest : Forest α}

/-- There is only one unfolding: `Unfolded` determines the forest. -/
theorem unique (h : Unfolded next waiting forest) {other : Forest α}
    (h' : Unfolded next waiting other) : forest = other := by
  induction h generalizing other with
  | done => cases h'; rfl
  | node _ _ ihBelow ihLater =>
    cases h' with
    | node below later => rw [ihBelow below, ihLater later]

/-- **Unfolding two lists one after the other** gives `forest₁.append forest₂`. -/
theorem append {first second : List α} {forest₁ forest₂ : Forest α}
    (h₁ : Unfolded next first forest₁) (h₂ : Unfolded next second forest₂) :
    Unfolded next (first ++ second) (forest₁.append forest₂) := by
  induction h₁ with
  | done => exact h₂
  | node below _ _ ih => exact .node below ih

/-- The unfolding of two lists is that of the first one before that of the second one. -/
theorem exists_of_append {first second : List α} (h : Unfolded next (first ++ second) forest) :
    ∃ forest₁ forest₂, forest = forest₁.append forest₂ ∧ Unfolded next first forest₁ ∧
      Unfolded next second forest₂ := by
  induction first generalizing forest with
  | nil => exact ⟨.nil, forest, rfl, .done, h⟩
  | cons a first ih =>
    cases h with
    | node below later =>
      obtain ⟨forest₁, forest₂, rfl, hfirst, hsecond⟩ := ih later
      exact ⟨.node a _ forest₁, forest₂, rfl, .node below hfirst, hsecond⟩

/-- A list is unfolded where each of its nodes is. -/
theorem exists_of_each (h : ∀ a ∈ waiting, ∃ forest, Unfolded next [a] forest) :
    ∃ forest, Unfolded next waiting forest := by
  induction waiting with
  | nil => exact ⟨.nil, .done⟩
  | cons a waiting ih =>
    obtain ⟨first, hfirst⟩ := h a List.mem_cons_self
    obtain ⟨rest, hrest⟩ := ih fun b hb => h b (List.mem_cons_of_mem a hb)
    exact ⟨first.append rest, hfirst.append hrest⟩

/-- All that waits is shown. -/
theorem mem_of_waiting (h : Unfolded next waiting forest) {a : α} (ha : a ∈ waiting) :
    a ∈ forest.preorder := by
  induction h with
  | done => exact ha
  | node _ _ _ ihLater =>
    rcases List.mem_cons.mp ha with rfl | ha
    · exact List.mem_cons_self
    · exact List.mem_cons_of_mem _ (List.mem_append_right _ (ihLater ha))

/-- **Below a node that is shown** stands the unfolding of what is next to it, with fewer nodes. -/
theorem exists_below (h : Unfolded next waiting forest) {a : α} (ha : a ∈ forest.preorder) :
    ∃ inside, Unfolded next (next a) inside ∧ inside.preorder ⊆ forest.preorder ∧
      inside.preorder.length < forest.preorder.length := by
  induction h with
  | done => exact absurd ha List.not_mem_nil
  | @node _ _ inside rest below _ ihBelow ihLater =>
    simp only [Forest.preorder_node, List.mem_cons, List.mem_append] at ha
    simp only [Forest.preorder_node, List.length_cons, List.length_append]
    rcases ha with rfl | ha | ha
    · exact ⟨inside, below, fun b hb => by simp [hb], by omega⟩
    · obtain ⟨forest, hforest, hsubset, hlength⟩ := ihBelow ha
      exact ⟨forest, hforest, fun b hb => by simp [hsubset hb], by omega⟩
    · obtain ⟨forest, hforest, hsubset, hlength⟩ := ihLater ha
      exact ⟨forest, hforest, fun b hb => by simp [hsubset hb], by omega⟩

/-- What is next to a node that is shown is shown. -/
theorem next_mem (h : Unfolded next waiting forest) {a b : α} (ha : a ∈ forest.preorder)
    (hb : b ∈ next a) : b ∈ forest.preorder := by
  obtain ⟨inside, hinside, hsubset, -⟩ := h.exists_below ha
  exact hsubset (hinside.mem_of_waiting hb)

/-- Only what can be reached is shown. -/
theorem reached (h : Unfolded next waiting forest) {a : α} (ha : a ∈ forest.preorder) :
    Reached next waiting a := by
  induction h with
  | done => exact absurd ha List.not_mem_nil
  | node _ _ ihBelow ihLater =>
    simp only [Forest.preorder_node, List.mem_cons, List.mem_append] at ha
    rcases ha with rfl | ha | ha
    · exact .root List.mem_cons_self
    · exact Reached.trans (fun b hb => .step (.root List.mem_cons_self) hb) (ihBelow ha)
    · exact Reached.trans (fun b hb => .root (List.mem_cons_of_mem _ hb)) (ihLater ha)

/-- **An unfolding shows exactly what can be reached**: `forest.preorder` holds what is `Reached`.
-/
theorem mem_preorder_iff (h : Unfolded next waiting forest) {a : α} :
    a ∈ forest.preorder ↔ Reached next waiting a :=
  ⟨h.reached, fun ha => ha.mem_of_closed (fun _ hb => h.mem_of_waiting hb)
    fun _ hb _ hc => h.next_mem hb hc⟩

/-- **Nothing leads back to itself** in what can be unfolded: `a` is not below `a`. The unfolding
below a node would stand below itself, with fewer nodes. -/
theorem not_mem_below {a : α} {inside : Forest α} (h : Unfolded next (next a) inside) :
    a ∉ inside.preorder := by
  intro ha
  obtain ⟨other, hother, -, hlength⟩ := h.exists_below ha
  rw [h.unique hother] at hlength
  exact absurd hlength (lt_irrefl _)

/-- **There is an unfolding** of finitely many nodes of which none leads back to itself. Fewer nodes
can be reached from what is next to a node than from the node. -/
theorem exists_of_acyclic (within : Finset α)
    (closed : ∀ a ∈ within, ∀ b ∈ next a, b ∈ within)
    (acyclic : ∀ a ∈ within, ¬ Reached next (next a) a) (hwaiting : ∀ a ∈ waiting, a ∈ within) :
    ∃ forest, Unfolded next waiting forest := by
  classical
  have hsingle : ∀ a ∈ within, ∃ forest, Unfolded next [a] forest := by
    intro a ha
    induction hleft : (within.filter (Reached next (next a))).card using Nat.strongRecOn
      generalizing a with
    | _ left ih =>
      have hbelow : ∃ inside, Unfolded next (next a) inside := exists_of_each fun b hb => by
        refine ih _ ?_ b (closed a ha b hb) rfl
        rw [← hleft]
        refine card_filter_lt (fun c hc => ?_) (closed a ha b hb) (.root hb)
          (acyclic b (closed a ha b hb))
        exact Reached.trans (fun d hd => .step (.root hb) hd) hc
      obtain ⟨inside, hinside⟩ := hbelow
      exact ⟨.node a inside .nil, .node hinside .done⟩
  exact exists_of_each fun a ha => hsingle a (hwaiting a ha)

/-- **A renaming** turns an unfolding into an unfolding, also when it confuses nodes. -/
theorem map {next' : β → List β} (f : α → β) {S : α → Prop} (hclosed : ∀ a, S a → ∀ b ∈ next a, S b)
    (hnext : ∀ a, S a → next' (f a) = (next a).map f) (hwaiting : ∀ a ∈ waiting, S a)
    (h : Unfolded next waiting forest) : Unfolded next' (waiting.map f) (forest.map f) := by
  induction h with
  | done => exact .done
  | @node waiting a _ _ _ _ ihBelow ihLater =>
    have ha : S a := hwaiting a List.mem_cons_self
    refine .node ?_ (ihLater fun b hb => hwaiting b (List.mem_cons_of_mem a hb))
    rw [hnext a ha]
    exact ihBelow (hclosed a ha)

/-- **An unfolding that shows nothing twice** is a depth-first search. -/
theorem depthFirst (h : Unfolded next waiting forest) {found : List α}
    (hnodup : (found ++ forest.preorder).Nodup) : DepthFirst next found waiting forest := by
  induction h generalizing found with
  | done => exact .done
  | @node _ a inside rest _ _ ihBelow ihLater =>
    have hsplit : (found ++ [a] ++ inside.preorder ++ rest.preorder).Nodup := by
      simpa using hnodup
    refine .fresh ?_ (ihBelow (List.Nodup.of_append_left hsplit)) (ihLater (by simpa using hnodup))
    intro ha
    have hdisjoint := (List.nodup_append.mp hnodup).2.2 a ha a List.mem_cons_self
    exact hdisjoint rfl

end Unfolded

/-! ## First places -/

section Firsts

variable [DecidableEq α]

/-- The nodes of a list that were not found before, each at its first place. -/
def firsts (found : List α) : List α → List α
  | [] => []
  | a :: rest => if a ∈ found then firsts found rest else a :: firsts (found ++ [a]) rest

/-- Nothing has no first places: `firsts found [] = []`. -/
@[simp] theorem firsts_nil (found : List α) : firsts found [] = [] := rfl

/-- What was found before has no first place: `firsts found (a :: rest) = firsts found rest`. -/
theorem firsts_cons_of_mem {found rest : List α} {a : α} (h : a ∈ found) :
    firsts found (a :: rest) = firsts found rest := by
  rw [firsts, if_pos h]

/-- What was not found before has its first place in front of the others. -/
theorem firsts_cons_of_not_mem {found rest : List α} {a : α} (h : a ∉ found) :
    firsts found (a :: rest) = a :: firsts (found ++ [a]) rest := by
  rw [firsts, if_neg h]

/-- The first places in two lists are those in the first one, and those in the second one of what is
not found there. -/
theorem firsts_append (found first second : List α) :
    firsts found (first ++ second)
      = firsts found first ++ firsts (found ++ firsts found first) second := by
  induction first generalizing found with
  | nil => simp
  | cons a first ih =>
    by_cases ha : a ∈ found
    · rw [List.cons_append, firsts_cons_of_mem ha, firsts_cons_of_mem ha, ih]
    · rw [List.cons_append, firsts_cons_of_not_mem ha, firsts_cons_of_not_mem ha, ih]
      simp

/-- Everything is found before or at a first place: `a ∈ found ∨ a ∈ firsts found items`. -/
theorem mem_or_mem_firsts {found items : List α} {a : α} (ha : a ∈ items) :
    a ∈ found ∨ a ∈ firsts found items := by
  induction items generalizing found with
  | nil => exact absurd ha List.not_mem_nil
  | cons b items ih =>
    by_cases hb : b ∈ found
    · rw [firsts_cons_of_mem hb]
      rcases List.mem_cons.mp ha with rfl | ha
      · exact .inl hb
      · exact ih ha
    · rw [firsts_cons_of_not_mem hb]
      rcases List.mem_cons.mp ha with rfl | ha
      · exact .inr List.mem_cons_self
      · have hplace : a ∈ found ++ [b] ∨ a ∈ firsts (found ++ [b]) items := ih ha
        rcases hplace with hold | hnew
        · rcases List.mem_append.mp hold with hold | hold
          · exact .inl hold
          · rw [List.mem_singleton.mp hold]
            exact .inr List.mem_cons_self
        · exact .inr (List.mem_cons_of_mem b hnew)

/-- A first place holds one of the items. -/
theorem mem_of_mem_firsts {found items : List α} {a : α} (ha : a ∈ firsts found items) :
    a ∈ items := by
  induction items generalizing found with
  | nil => exact ha
  | cons b items ih =>
    by_cases hb : b ∈ found
    · rw [firsts_cons_of_mem hb] at ha
      exact List.mem_cons_of_mem b (ih ha)
    · rw [firsts_cons_of_not_mem hb] at ha
      rcases List.mem_cons.mp ha with rfl | ha
      · exact List.mem_cons_self
      · exact List.mem_cons_of_mem b (ih ha)

/-- Items that were all found before have no first places: `firsts found items = []`. -/
theorem firsts_eq_nil {found items : List α} (h : ∀ a ∈ items, a ∈ found) :
    firsts found items = [] := by
  induction items with
  | nil => rfl
  | cons a items ih =>
    rw [firsts_cons_of_mem (h a List.mem_cons_self), ih fun b hb => h b (List.mem_cons_of_mem a hb)]

/-- Looking for something that was not found before finds it at a first place:
`(firsts found items).findSome? f = items.findSome? f`. -/
theorem findSome?_firsts {f : α → Option β} {found : List α} (hfound : ∀ a ∈ found, f a = none)
    (items : List α) : (firsts found items).findSome? f = items.findSome? f := by
  induction items generalizing found with
  | nil => rfl
  | cons a items ih =>
    by_cases ha : a ∈ found
    · rw [firsts_cons_of_mem ha, ih hfound, List.findSome?_cons, hfound a ha]
    · rw [firsts_cons_of_not_mem ha, List.findSome?_cons, List.findSome?_cons]
      cases hfa : f a with
      | some b => rfl
      | none =>
        refine ih fun b hb => ?_
        rcases List.mem_append.mp hb with hb | hb
        · exact hfound b hb
        · rw [List.mem_singleton.mp hb, hfa]

end Firsts

/-! ## Searching and unfolding -/

/-- **What was found is settled** when it does not wait again, or all that it leads to was found. -/
def Settled (next : α → List α) (found waiting : List α) : Prop :=
  ∀ a ∈ found, ¬ Reached next waiting a ∨ ∀ b, Reached next [a] b → b ∈ found

namespace Settled

variable {next : α → List α} {found waiting : List α} {a : α} {inside : Forest α}

/-- Before anything is found, everything is settled. -/
theorem nil (next : α → List α) (waiting : List α) : Settled next [] waiting := fun _ ha =>
  absurd ha List.not_mem_nil

/-- What waits behind others is reached as well. -/
theorem behind (h : Settled next found (a :: waiting)) : Settled next found waiting := fun b hb =>
  (h b hb).imp_left fun hnot hreached =>
    hnot (Reached.trans (fun _ hc => .root (List.mem_cons_of_mem a hc)) hreached)

/-- What stands below an open node does not lead back to it. -/
theorem below (h : Settled next found (a :: waiting)) (hinside : Unfolded next (next a) inside) :
    Settled next (found ++ [a]) (next a) := by
  intro b hb
  rcases List.mem_append.mp hb with hb | hb
  · rcases h b hb with hnot | hall
    · exact .inl fun hreached => hnot
        (Reached.trans (fun _ hc => .step (.root List.mem_cons_self) hc) hreached)
    · exact .inr fun c hc => List.mem_append_left [a] (hall c hc)
  · rw [List.mem_singleton.mp hb]
    exact .inl fun hreached => hinside.not_mem_below (hinside.mem_preorder_iff.mpr hreached)

/-- What stands below a node is settled when the node is closed. -/
theorem later (h : Settled next found (a :: waiting)) (hinside : Unfolded next (next a) inside)
    (new : List α) (hnew : ∀ b ∈ inside.preorder, b ∈ found ++ a :: new)
    (hsubset : new ⊆ inside.preorder) : Settled next (found ++ a :: new) waiting := by
  have hleads : ∀ b, Reached next [a] b → b ∈ found ++ a :: new := by
    intro b hb
    refine hb.mem_of_closed (S := fun c => c = a ∨ c ∈ inside.preorder) ?_ ?_ |>.elim ?_ (hnew b)
    · exact fun c hc => .inl (List.mem_singleton.mp hc)
    · rintro c (rfl | hc) d hd
      · exact .inr (hinside.mem_of_waiting hd)
      · exact .inr (hinside.next_mem hc hd)
    · rintro rfl
      simp
  intro b hb
  rcases List.mem_append.mp hb with hb | hb
  · exact (h.behind b hb).imp_right fun hall c hc => List.mem_append_left _ (hall c hc)
  · refine .inr fun c hc => ?_
    rcases List.mem_cons.mp hb with rfl | hb
    · exact hleads c hc
    · refine hnew c (hc.mem_of_closed (fun d hd => ?_) fun d hd e he => hinside.next_mem hd he)
      rw [List.mem_singleton.mp hd]
      exact hsubset hb

end Settled

/-- **A search finds what the unfolding shows**, each node at its first place:
`firsts found unfolding.preorder`. -/
theorem DepthFirst.preorder_eq_firsts [DecidableEq α] {next : α → List α} {found waiting : List α}
    {forest unfolding : Forest α} (h : DepthFirst next found waiting forest)
    (hu : Unfolded next waiting unfolding) (hs : Settled next found waiting) :
    forest.preorder = firsts found unfolding.preorder := by
  induction h generalizing unfolding with
  | done =>
    cases hu
    rfl
  | @again found waiting a _ old _ ih =>
    cases hu with
    | node below later =>
      -- all that stands below a node that waits again was found
      have hall : ∀ b, Reached next [a] b → b ∈ found :=
        (hs a old).resolve_left fun hnot => hnot (.root List.mem_cons_self)
      rw [Forest.preorder_node, firsts_cons_of_mem old, firsts_append, firsts_eq_nil fun b hb =>
        hall b (Reached.trans (fun c hc => .step (.root List.mem_cons_self) hc)
          (below.mem_preorder_iff.mp hb))]
      rw [List.append_nil, List.nil_append]
      exact ih later hs.behind
  | @fresh found waiting a inside rest new _ _ ihBelow ihLater =>
    cases hu with
    | @node _ _ unfoldedInside _ below later =>
      -- a new node is shown here first, with all that is new below it
      have hinside := ihBelow below (hs.below below)
      -- what the search finds inside is what the unfolding shows inside for the first time
      have hsettled := hs.later below inside.preorder (fun b hb => ?_) fun b hb => ?_
      · rw [Forest.preorder_node, Forest.preorder_node, firsts_cons_of_not_mem new, firsts_append,
          ← hinside, ihLater later hsettled]
        simp
      · have hplace : b ∈ found ++ [a] ∨ b ∈ firsts (found ++ [a]) unfoldedInside.preorder :=
          mem_or_mem_firsts hb
        rw [← hinside] at hplace
        simpa [or_assoc] using hplace
      · rw [hinside] at hb
        exact mem_of_mem_firsts hb

end ModuleSurface
