import ModuleSurface.Proofs.AcceptedHeads

/-! # Which trees are accepted

A tree is read as an export graph exactly where the grammar says that it is one. The reader goes from
map to map with what it has read so far, but a tree shows each of its maps once, so no map is known
when it is come to, and what is read of one part does not bear on another: each step of reading decides
a condition on the part of the tree that it reads.

* **`Store.Decides`** — a step of reading succeeds exactly under a condition, and goes through some
  maps only.
* **`Store.judges_readElement`** — an element is read where the grammar has one.
* **`Graph.ofDocument_ofTree_iff`** — a tree is read as a graph where the grammar says so. -/

namespace ModuleSurface

/-- Two kinds of elements have two names. -/
theorem ElementKind.name_injective : Function.Injective ElementKind.name := by
  intro kind other heq
  have hread := ElementKind.ofName?_name kind
  rw [heq, ElementKind.ofName?_name] at hread
  exact (Option.some.inj hread).symm

namespace Progress

/-- **None of some maps is known.** -/
def Lacks (progress : Progress) (maps : Multiset Nat) : Prop :=
  ∀ ref ∈ maps, progress.known.lookup ref = none

/-- **More is known, but no map outside of some.** -/
def Learns (before after : Progress) (maps : Multiset Nat) : Prop :=
  ∀ ref, ref ∉ maps → after.known.lookup ref = before.known.lookup ref

/-- What lacks some maps lacks a part of them. -/
theorem Lacks.mono {progress : Progress} {maps maps' : Multiset Nat} (h : progress.Lacks maps')
    (hle : maps ≤ maps') : progress.Lacks maps :=
  fun ref href => h ref (Multiset.mem_of_le hle href)

/-- What lies apart from what was learnt is still to be known. -/
theorem Lacks.of_learns {before after : Progress} {maps others : Multiset Nat}
    (h : before.Lacks others) (hlearns : before.Learns after maps) (hdisjoint : Disjoint maps others) :
    after.Lacks others := by
  intro ref href
  rw [hlearns ref fun hmem => Multiset.disjoint_left.mp hdisjoint hmem href]
  exact h ref href

end Progress

namespace Store

open Progress (Lacks Learns)

/-- **A step of reading decides a condition** within some maps: while everything read is sound and none
of the maps is known it succeeds exactly under the condition, and then it has learnt of these maps
only. -/
structure Decides (store : Store) (maps : Multiset Nat) {α : Type} (x : Reading α) (valid : Prop) :
    Prop where
  accepts (before : Progress) (sound : before.Sound store) (lacks : before.Lacks maps) :
    valid → ∃ a after, x before = .ok (a, after)
  refuses (before : Progress) (sound : before.Sound store) (lacks : before.Lacks maps) (a : α)
    (after : Progress) : x before = .ok (a, after) →
      valid ∧ after.Sound store ∧ before.Learns after maps

namespace Decides

variable {store : Store} {maps others : Multiset Nat} {α β : Type} {x : Reading α}
  {f : α → Reading β} {valid valid' : Prop}

/-- What decides with some maps decides with more of them. -/
theorem mono (h : store.Decides maps x valid) (hle : maps ≤ others) : store.Decides others x valid where
  accepts before sound lacks := h.accepts before sound (lacks.mono hle)
  refuses before sound lacks a after hrun := by
    obtain ⟨hvalid, hsound, hlearns⟩ := h.refuses before sound (lacks.mono hle) a after hrun
    exact ⟨hvalid, hsound, fun ref href => hlearns ref fun hmem => href (Multiset.mem_of_le hle hmem)⟩

/-- What decides a condition decides every equivalent one. -/
theorem congr (h : store.Decides maps x valid) (hiff : valid ↔ valid') : store.Decides maps x valid' where
  accepts before sound lacks hvalid := h.accepts before sound lacks (hiff.mpr hvalid)
  refuses before sound lacks a after hrun := by
    obtain ⟨hvalid, hrest⟩ := h.refuses before sound lacks a after hrun
    exact ⟨hiff.mp hvalid, hrest⟩

/-- A step that does nothing. -/
theorem pure (a : α) (hvalid : valid) : store.Decides 0 (Pure.pure a : Reading α) valid where
  accepts before _ _ _ := ⟨a, before, rfl⟩
  refuses before sound _ b after hrun := by
    cases hrun
    exact ⟨hvalid, sound, fun _ _ => rfl⟩

/-- A step that fails. -/
theorem throw (cause : DecodeError) (hvalid : ¬ valid) :
    store.Decides 0 (MonadExcept.throw cause : Reading α) valid where
  accepts _ _ _ h := absurd h hvalid
  refuses _ _ _ _ _ hrun := by cases hrun

/-- **Two steps** that go through different maps decide both conditions. -/
theorem bind (hx : store.Decides maps x valid) (hf : ∀ a, store.Decides others (f a) valid')
    (hdisjoint : Disjoint maps others) :
    store.Decides (maps + others) (x >>= f) (valid ∧ valid') := by
  constructor
  · rintro before sound lacks ⟨hvalid, hvalid'⟩
    obtain ⟨a, middle, hrun⟩ :=
      hx.accepts before sound (lacks.mono (Multiset.le_add_right _ _)) hvalid
    obtain ⟨-, hsound, hlearns⟩ :=
      hx.refuses before sound (lacks.mono (Multiset.le_add_right _ _)) a middle hrun
    obtain ⟨b, after, hrun'⟩ := (hf a).accepts middle hsound
      ((lacks.mono (Multiset.le_add_left _ _)).of_learns hlearns hdisjoint) hvalid'
    exact ⟨b, after, readBind_eq_ok_iff.mpr ⟨a, middle, hrun, hrun'⟩⟩
  · intro before sound lacks b after hrun
    obtain ⟨a, middle, hrun, hrun'⟩ := readBind_eq_ok_iff.mp hrun
    obtain ⟨hvalid, hsound, hlearns⟩ :=
      hx.refuses before sound (lacks.mono (Multiset.le_add_right _ _)) a middle hrun
    obtain ⟨hvalid', hsound', hlearns'⟩ := (hf a).refuses middle hsound
      ((lacks.mono (Multiset.le_add_left _ _)).of_learns hlearns hdisjoint) b after hrun'
    refine ⟨⟨hvalid, hvalid'⟩, hsound', fun ref href => ?_⟩
    rw [Multiset.mem_add, not_or] at href
    rw [hlearns' ref href.2, hlearns ref href.1]

/-- A step whose result is only put into a form. -/
theorem map (hx : store.Decides maps x valid) (g : α → β) :
    store.Decides maps (do return g (← x)) valid := by
  have hbind := hx.bind (fun a => Decides.pure (g a) trivial) (Multiset.zero_disjoint maps).symm
  rw [add_zero] at hbind
  exact hbind.congr (and_iff_left trivial)

/-- At the start nothing is known and everything is sound, so `Decides` says when `x {}` succeeds.
-/
theorem exists_iff (h : store.Decides maps x valid) :
    (∃ a after, x {} = .ok (a, after)) ↔ valid := by
  have hsound : Progress.Sound store {} :=
    ⟨fun a ha => absurd ha (Nat.not_lt_zero a), fun ref a hlookup => by cases hlookup⟩
  have hlacks : Progress.Lacks {} maps := fun _ _ => rfl
  constructor
  · rintro ⟨a, after, hrun⟩
    exact (h.refuses {} hsound hlacks a after hrun).1
  · exact h.accepts {} hsound hlacks

end Decides

variable {store : Store} {reader : ElementReader} {fuel : Nat}

/-- **A reader decides which trees are elements**, as long as they show fewer maps than some bound, and
what it reads has the kind that the tree names. -/
structure Judges (store : Store) (bound : Nat) (reader : ElementReader) : Prop where
  decides {tree inherited : Tree} {v : Value} {given : Option Value} {maps : Multiset Nat}
    (hshows : store.Shows tree v maps) (hinherited : store.Shown inherited (Value.ofOption given))
    (hnodup : maps.Nodup) (hcard : maps.card < bound) :
    store.Decides maps (reader v given) (Tree.IsElement inherited tree)
  kind {tree : Tree} {v : Value} {given : Option Value} {maps : Multiset Nat}
    (hshows : store.Shows tree v maps) {before after : Progress} {h : Handle}
    (sound : before.Sound store) (lacks : before.Lacks maps)
    (hrun : reader v given before = .ok (h, after)) :
    tree.field? "kind" = some (.text (after.element h).kind.name)

variable {tree name : Tree} {v given : Value} {maps : Multiset Nat}

/-- **The values of a map** are read by `readEntries` where all of its entries are elements. -/
theorem Judges.readEntries (hreader : store.Judges fuel reader) {trees : List (Scalar × Tree)}
    {entries : Entries} (h : ShowsFields store.Shows trees entries maps) (hnodup : maps.Nodup)
    (hcard : maps.card < fuel) : store.Decides maps (readEntries reader entries)
      (∀ entry ∈ trees, Tree.IsElement (.scalar entry.1) entry.2) := by
  induction h with
  | nil => exact .pure [] (by simp)
  | @cons key tree v maps trees entries others hfirst _ ih =>
    obtain ⟨hnodup₁, hnodup₂, hdisjoint⟩ := Multiset.nodup_add.mp hnodup
    rw [Multiset.card_add] at hcard
    refine ((hreader.decides hfirst (shown_scalar key) hnodup₁ (by omega)).bind (fun h =>
      (ih hnodup₂ (by omega)).map fun members => (key, h) :: members) hdisjoint).congr ?_
    rw [List.forall_mem_cons]

/-- **A member map** is read where it is one: `readMembers` decides `Tree.IsMembers`. -/
theorem Judges.readMembers (hreader : store.Judges fuel reader) (h : store.Shows tree v maps)
    (hnodup : maps.Nodup) (hcard : maps.card < fuel) :
    store.Decides maps (store.readMembers reader v) (tree.IsMembers Tree.IsElement) := by
  cases h with
  | scalar s =>
    cases s with
    | null => exact .pure none .null
    | _ => exact .throw _ (by rintro ⟨⟩)
  | list each => exact (Decides.throw _ (by rintro ⟨⟩)).mono (Multiset.zero_le _)
  | @map trees ref rest each =>
    rw [Multiset.card_add] at hcard
    have hentries := (hreader.readEntries each (Multiset.nodup_add.mp hnodup).2.1 (by omega)).map some
    refine (hentries.mono (Multiset.le_add_left _ _)).congr ⟨.map, ?_⟩
    rintro (_ | heach)
    exact heach

/-- **An instance** is read where its tree is an element of the sort. -/
theorem Judges.readInstance (hreader : store.Judges fuel reader) (sort : InstanceSort)
    {inherited : Tree} (given : Option Value) (h : store.Shows tree v maps)
    (hinherited : store.Shown inherited (Value.ofOption given)) (hnodup : maps.Nodup)
    (hcard : maps.card < fuel) : store.Decides maps (readInstance reader sort given v)
      (Tree.IsElement inherited tree ∧ tree.IsOfSort sort) := by
  have hdecides := hreader.decides h hinherited hnodup hcard
  -- the kind is looked at when the element has been read
  have hsort {before after : Progress} {i : Handle} (sound : before.Sound store)
      (lacks : before.Lacks maps) (hrun : reader v given before = .ok (i, after)) :
      sort.admits (after.element i).kind = true ↔ tree.IsOfSort sort := by
    have hkind := hreader.kind h sound lacks hrun
    constructor
    · intro hadmits
      exact ⟨_, hkind, hadmits⟩
    · rintro ⟨kind, hnamed, hadmits⟩
      rw [hkind, Option.some_inj] at hnamed
      rw [ElementKind.name_injective (Scalar.text.inj (Tree.scalar.inj hnamed))]
      exact hadmits
  constructor
  · rintro before sound lacks ⟨hvalid, hof⟩
    obtain ⟨i, after, hrun⟩ := hdecides.accepts before sound lacks hvalid
    refine ⟨i, after, readBind_eq_ok_iff.mpr ⟨i, after, hrun, ?_⟩⟩
    refine readBind_eq_ok_iff.mpr ⟨after.element i, after, rfl, ?_⟩
    rw [if_pos ((hsort sound lacks hrun).mpr hof)]
    rfl
  · intro before sound lacks i after hrun
    obtain ⟨j, middle, hread, hrun⟩ := readBind_eq_ok_iff.mp hrun
    obtain ⟨element, last, helement, hrun⟩ := readBind_eq_ok_iff.mp hrun
    cases helement
    obtain ⟨hvalid, hrest⟩ := hdecides.refuses before sound lacks j middle hread
    split at hrun
    · rename_i hadmits
      cases hrun
      exact ⟨⟨hvalid, (hsort sound lacks hread).mp hadmits⟩, hrest⟩
    · cases hrun

/-- The instances of a list are read where each of them is an element of the sort. -/
theorem Judges.readInstanceList (hreader : store.Judges fuel reader) (sort : InstanceSort)
    {inherited : Tree} (given : Option Value) {items : List Tree} {values : List Value}
    (h : ShowsEach store.Shows items values maps)
    (hinherited : store.Shown inherited (Value.ofOption given)) (hnodup : maps.Nodup)
    (hcard : maps.card < fuel) : store.Decides maps (readInstanceList reader sort given values)
      (∀ item ∈ items, Tree.IsElement inherited item ∧ item.IsOfSort sort) := by
  induction h with
  | nil => exact .pure [] (by simp)
  | @cons tree v maps trees entries others hfirst _ ih =>
    obtain ⟨hnodup₁, hnodup₂, hdisjoint⟩ := Multiset.nodup_add.mp hnodup
    rw [Multiset.card_add] at hcard
    refine ((hreader.readInstance sort given hfirst hinherited hnodup₁ (by omega)).bind (fun i =>
      (ih hnodup₂ (by omega)).map fun instances => i :: instances) hdisjoint).congr ?_
    rw [List.forall_mem_cons]

/-- **Instances** are read where they are such: `readInstances` decides `Tree.IsInstances`. -/
theorem Judges.readInstances (hreader : store.Judges fuel reader) (sort : InstanceSort)
    (h : store.Shows tree v maps) (hname : store.Shown name given) (hnodup : maps.Nodup)
    (hcard : maps.card < fuel) : store.Decides maps (store.readInstances reader sort given v)
      (Tree.IsInstances Tree.IsElement sort tree name) := by
  unfold Store.readInstances
  by_cases htrue : store.truthy v = true
  · have hfalsy : tree.truthy ≠ false := by rw [← h.truthy_eq, htrue]; decide
    rw [if_neg (by simp [htrue])]
    cases h with
    | scalar s => exact .throw _ (by rintro (h | _); exact hfalsy h)
    | list each =>
      refine (hreader.readInstanceList sort (some given) each hname hnodup hcard).congr ?_
      constructor
      · intro hitems
        exact .list (fun item hitem => (hitems item hitem).1) fun item hitem => (hitems item hitem).2
      · rintro (h | ⟨heach, hsorted⟩)
        · exact absurd h hfalsy
        · exact fun item hitem => ⟨heach item hitem, hsorted item hitem⟩
    | map each =>
      exact (Decides.throw _ (by rintro (h | _); exact hfalsy h)).mono (Multiset.zero_le _)
  · rw [if_pos (by simpa using htrue)]
    refine (Decides.pure [] (.falsy ?_)).mono (Multiset.zero_le _)
    rw [← h.truthy_eq]
    simpa using htrue

/-- **A base** is read where it is one: `readBase` decides `Tree.IsBase`. -/
theorem Judges.readBase (hreader : store.Judges fuel reader) (h : store.Shows tree v maps)
    (hnodup : maps.Nodup) (hcard : maps.card < fuel) :
    store.Decides maps (readBase reader v) (tree.IsBase Tree.IsElement) := by
  unfold Store.readBase
  by_cases hnull : v = .null
  · subst hnull
    cases h
    exact .pure none .null
  · have hsome : v.nonNull? = some v := by simp [Value.nonNull?, Value.isNull, hnull]
    rw [hsome]
    have hnot : tree ≠ .null := fun hnot => hnull ((h.shown.scalar_iff .null).mpr hnot)
    refine ((hreader.readInstance .classLike none h (shown_scalar .null) hnodup
      hcard).map some).congr ⟨fun h => .element h.1 h.2, ?_⟩
    rintro (_ | ⟨hbase, hsorted⟩)
    · exact absurd rfl hnot
    · exact ⟨hbase, hsorted⟩

/-! ### Elements -/

/-- **Fields are shown** by maps of their own, all of them within some maps. -/
structure ShowsParts (store : Store) (tree : Tree) (entries : Entries) (parts : String → Multiset Nat)
    (maps : Multiset Nat) : Prop where
  shows (name : String) : store.Shows (tree.field name) (entries.field name) (parts name)
  within (names : List String) : names.Nodup → (names.map parts).sum ≤ maps

/-- What shows the fields of a map shows each of its `parts`. -/
theorem ShowsFields.showsParts {trees : List (Scalar × Tree)} {entries : Entries}
    (h : ShowsFields store.Shows trees entries maps) :
    ∃ parts, store.ShowsParts (.map trees) entries parts maps := by
  obtain ⟨parts, hparts, hmissing, hwithin⟩ := h.fields
  refine ⟨parts, fun name => ?_, hwithin⟩
  obtain ⟨ht, hv⟩ | ⟨t, v, ht, hv, hshows⟩ := rel_cases (hparts name)
  · rw [Tree.field, Tree.field?_map, Entries.field, ht, hv, hmissing name hv]
    exact .scalar .null
  · rw [Tree.field, Tree.field?_map, Entries.field, ht, hv]
    exact hshows

/-- The maps by which what an element of a kind refers to is shown. -/
def linkParts (parts : String → Multiset Nat) : ElementKind → Multiset Nat
  | .functionPrototype | .classPrototype => parts "instances"
  | .classType | .interfaceType =>
    parts "base" + (parts "static_members" + parts "instance_members")
  | _ => 0

section Fields

variable {entries : Entries} {parts : String → Multiset Nat}
  (h : store.ShowsParts tree entries parts maps)
include h

/-- The members and the links of an element are shown by maps of their own. -/
theorem ShowsParts.members_add_links_le (kind : ElementKind) :
    parts "members" + linkParts parts kind ≤ maps := by
  have hmembers := h.within ["members"] (by decide)
  have hinstances := h.within ["members", "instances"] (by decide)
  have hclass := h.within ["members", "base", "static_members", "instance_members"] (by decide)
  simp only [List.map_cons, List.map_nil, List.sum_cons, List.sum_nil, add_zero] at *
  cases kind with
  | functionPrototype | classPrototype => exact hinstances
  | classType | interfaceType => exact hclass
  | _ => simpa [linkParts] using hmembers

variable (hreader : store.Judges fuel reader)
include hreader

/-- **What a class refers to** is read where its base and both of its member maps are such. -/
theorem Judges.readClassLinks
    (hnodup : (parts "base" + (parts "static_members" + parts "instance_members")).Nodup)
    (hcard : (parts "base" + (parts "static_members" + parts "instance_members")).card < fuel) :
    store.Decides (parts "base" + (parts "static_members" + parts "instance_members"))
      (store.readClassLinks reader entries)
      ((tree.field "base").IsBase Tree.IsElement ∧
        (tree.field "static_members").IsMembers Tree.IsElement ∧
        (tree.field "instance_members").IsMembers Tree.IsElement) := by
  obtain ⟨hnodup₁, hothers, hdisjoint₁⟩ := Multiset.nodup_add.mp hnodup
  obtain ⟨hnodup₂, hnodup₃, hdisjoint₂⟩ := Multiset.nodup_add.mp hothers
  simp only [Multiset.card_add] at hcard
  rw [readClassLinks_eq]
  exact (hreader.readBase (h.shows "base") hnodup₁ (by omega)).bind (fun base =>
    (hreader.readMembers (h.shows "static_members") hnodup₂ (by omega)).bind (fun statics =>
      (hreader.readMembers (h.shows "instance_members") hnodup₃ (by omega)).map _)
        hdisjoint₂) hdisjoint₁

/-- **What the body of an element refers to**, as its kind has it. -/
theorem Judges.readLinks {name : Tree} {given : Value} (hname : store.Shown name given) (body : Body)
    (hnodup : (linkParts parts body.kind).Nodup) (hcard : (linkParts parts body.kind).card < fuel) :
    store.Decides (linkParts parts body.kind) (store.readLinks reader given entries body)
      (Tree.HasLinks Tree.IsElement body.kind name tree) := by
  cases body with
  | functionPrototype =>
    refine ((hreader.readInstances .function (h.shows "instances") hname hnodup hcard).map _).congr
      ⟨.functionPrototype, ?_⟩
    rintro (hinstances | _ | ⟨⟨⟩⟩ | hleaf)
    · exact hinstances
    · simp [Body.kind] at hleaf
  | classPrototype =>
    refine ((hreader.readInstances .classLike (h.shows "instances") hname hnodup hcard).map _).congr
      ⟨.classPrototype, ?_⟩
    rintro (_ | hinstances | ⟨⟨⟩⟩ | hleaf)
    · exact hinstances
    · simp [Body.kind] at hleaf
  | classType =>
    refine ((Judges.readClassLinks h hreader hnodup hcard).map _).congr ⟨?_, ?_⟩
    · rintro ⟨hbase, hstatics, hmembers⟩
      exact .classLike rfl hbase hstatics hmembers
    · rintro (_ | _ | ⟨-, hbase, hstatics, hmembers⟩ | hleaf)
      · exact ⟨hbase, hstatics, hmembers⟩
      · simp [Body.kind] at hleaf
  | interfaceType =>
    refine ((Judges.readClassLinks h hreader hnodup hcard).map _).congr ⟨?_, ?_⟩
    · rintro ⟨hbase, hstatics, hmembers⟩
      exact .classLike rfl hbase hstatics hmembers
    · rintro (_ | _ | ⟨-, hbase, hstatics, hmembers⟩ | hleaf)
      · exact ⟨hbase, hstatics, hmembers⟩
      · simp [Body.kind] at hleaf
  | _ => exact .pure _ (.leaf (by simp [Body.kind]))

end Fields

/-- A map that is not known is allocated, and the maps that it leads to are not known either. -/
theorem lacks_allocated {before : Progress} {ref : Nat} {rest : Multiset Nat} (head : Element)
    (hnodup : ({ref} + rest).Nodup) (lacks : before.Lacks ({ref} + rest)) :
    (before.allocated ref head).Lacks rest := by
  intro other hother
  have hne : other ≠ ref := by
    rintro rfl
    exact Multiset.disjoint_left.mp (Multiset.nodup_add.mp hnodup).2.2
      (Multiset.mem_singleton_self other) hother
  rw [Progress.allocated, List.lookup_cons, beq_false_of_ne hne]
  exact lacks other (Multiset.mem_add.mpr (.inr hother))

section NewMap

variable {trees : List (Scalar × Tree)} {ref : Nat} {rest : Multiset Nat}
  {parts : String → Multiset Nat} {given : Option Value} {head : Element} {before : Progress}

/-- What has been read when the members of a new map are come to: its head. -/
theorem sound_lacks_allocated (hnodup : ({ref} + rest).Nodup) (sound : before.Sound store)
    (lacks : before.Lacks ({ref} + rest))
    (hread : store.readHead (store.entries ref) given = .ok head) :
    (before.allocated ref head).Sound store ∧ (before.allocated ref head).Lacks rest := by
  obtain ⟨hname, hbody, hnone, hbare⟩ := sound_of_readHead hread
  exact ⟨(Progress.kept_allocated sound hname hbody hnone hbare).sound,
    lacks_allocated head hnodup lacks⟩

variable (ih : store.Judges fuel (store.readElement fuel))
  (hparts : store.ShowsParts (.map trees) (store.entries ref) parts rest)
  (hcard : rest.card < fuel)
include ih hparts hcard

/-- The members of a new map are read where `Tree.IsMembers` holds of its field. -/
theorem Judges.members_of_new (hrest : rest.Nodup) :
    store.Decides (parts "members")
      (store.readMembers (store.readElement fuel) ((store.entries ref).field "members"))
      (((Tree.map trees).field "members").IsMembers Tree.IsElement) := by
  have hle : parts "members" ≤ rest :=
    (Multiset.le_add_right _ _).trans (hparts.members_add_links_le .global)
  exact ih.readMembers (hparts.shows "members") (Multiset.nodup_of_le hle hrest)
    ((Multiset.card_le_card hle).trans_lt hcard)

/-- What a new map refers to from its body is read where `Tree.HasLinks` holds of it. -/
theorem Judges.links_of_new (hrest : rest.Nodup) {name : Tree} (hname : store.Shown name head.name) :
    store.Decides (linkParts parts head.kind)
      (store.readLinks (store.readElement fuel) head.name (store.entries ref) head.body)
      (Tree.HasLinks Tree.IsElement head.kind name (.map trees)) := by
  have hle : linkParts parts head.kind ≤ rest :=
    (Multiset.le_add_left _ _).trans (hparts.members_add_links_le head.kind)
  exact Judges.readLinks hparts ih hname head.body (Multiset.nodup_of_le hle hrest)
    ((Multiset.card_le_card hle).trans_lt hcard)

/-- **What has been read when the links of a new map are come to**: its members, which are valid, and
none of the maps of its links. -/
theorem Judges.half_of_new {members : Option Members} {after : Progress}
    (hnodup : ({ref} + rest).Nodup) (sound : before.Sound store)
    (lacks : before.Lacks ({ref} + rest))
    (hread : store.readHead (store.entries ref) given = .ok head)
    (hrun : store.readMembers (store.readElement fuel) ((store.entries ref).field "members")
      (before.allocated ref head) = .ok (members, after)) :
    ((Tree.map trees).field "members").IsMembers Tree.IsElement ∧
      (after.replaced before.elements.size { head with members }).Sound store ∧
      (after.replaced before.elements.size { head with members }).Lacks
        (linkParts parts head.kind) ∧
      (before.allocated ref head).Learns after (parts "members") := by
  have hrest := (Multiset.nodup_add.mp hnodup).2.1
  have hle := hparts.members_add_links_le head.kind
  obtain ⟨hsound, hlacks⟩ := sound_lacks_allocated hnodup sound lacks hread
  obtain ⟨hvalid, -, hlearns⟩ := (Judges.members_of_new ih hparts hcard hrest).refuses _ hsound
    (hlacks.mono ((Multiset.le_add_right _ _).trans hle)) members after hrun
  have hdisjoint := (Multiset.nodup_add.mp (Multiset.nodup_of_le hle hrest)).2.2
  have hlacks' : after.Lacks (linkParts parts head.kind) :=
    (hlacks.mono ((Multiset.le_add_left _ _).trans hle)).of_learns hlearns hdisjoint
  exact ⟨hvalid, (kept_of_readMembers (readElement_keeps store fuel) sound hread hrun).1.sound,
    hlacks', hlearns⟩

end NewMap

/-- **A map is read as an element** where its tree is one. The head comes first; then the members and
the links are read, which are shown by maps of their own. -/
theorem Judges.readElement_map (ih : store.Judges fuel (store.readElement fuel))
    {trees : List (Scalar × Tree)} {ref : Nat} {rest : Multiset Nat} {inherited : Tree}
    {given : Option Value} (each : ShowsFields store.Shows trees (store.entries ref) rest)
    (hinherited : store.Shown inherited (Value.ofOption given)) (hnodup : ({ref} + rest).Nodup)
    (hcard : rest.card < fuel) :
    store.Decides ({ref} + rest) (store.readElement (fuel + 1) (.map ref) given)
      (Tree.IsElement inherited (.map trees)) := by
  obtain ⟨parts, hparts⟩ := each.showsParts
  have hrest := (Multiset.nodup_add.mp hnodup).2.1
  have hmembers_le : parts "members" ≤ rest :=
    (Multiset.le_add_right _ _).trans (hparts.members_add_links_le .global)
  have hlinks_le (kind : ElementKind) : linkParts parts kind ≤ rest :=
    (Multiset.le_add_left _ _).trans (hparts.members_add_links_le kind)
  have hmembers := Judges.members_of_new ih hparts hcard hrest
  have hname {head : Element} (hread : store.readHead (store.entries ref) given = .ok head) :
      store.Shown ((Tree.map trees).nameOr inherited) head.name := by
    rw [name_of_readHead hread]
    exact shown_getD (each.shown "name") hinherited
  have hfresh {before : Progress} (lacks : before.Lacks ({ref} + rest)) :
      before.known.lookup ref = none :=
    lacks ref (Multiset.mem_add.mpr (.inl (Multiset.mem_singleton_self ref)))
  constructor
  · rintro before sound lacks ⟨hhead, hvalid, hvalid'⟩
    obtain ⟨head, hread, rfl⟩ := (readHead_iff each.shown hinherited _).mpr hhead
    obtain ⟨hsound, hlacks⟩ := sound_lacks_allocated hnodup sound lacks hread
    obtain ⟨members, after₁, hrun⟩ :=
      hmembers.accepts _ hsound (hlacks.mono hmembers_le) hvalid
    obtain ⟨-, hsound', hlacks', -⟩ := Judges.half_of_new ih hparts hcard hnodup sound lacks hread hrun
    obtain ⟨body, after₂, hrun'⟩ := (Judges.links_of_new ih hparts hcard hrest (hname hread)).accepts
      _ hsound' hlacks' hvalid'
    exact ⟨_, _, readElement_eq_ok_iff.mpr ⟨ref, rfl, .new (hfresh lacks) hread hrun hrun'⟩⟩
  · intro before sound lacks h after hrun
    refine and_left_comm.mp ⟨(readElement_keeps store (fuel + 1) _ _ _ _ _ sound hrun).1.sound, ?_⟩
    obtain ⟨_, ⟨⟩, hreads⟩ := readElement_eq_ok_iff.mp hrun
    cases hreads with
    | known hlookup =>
      rw [hfresh lacks] at hlookup
      cases hlookup
    | @new head members body after₁ after₂ _ hread hmembers_run hlinks_run =>
      obtain ⟨hvalid, hsound, hlacks, hlearns⟩ :=
        Judges.half_of_new ih hparts hcard hnodup sound lacks hread hmembers_run
      obtain ⟨hvalid', -, hlearns'⟩ :=
        (Judges.links_of_new ih hparts hcard hrest (hname hread)).refuses _ hsound hlacks body after₂
          hlinks_run
      refine ⟨.intro ((readHead_iff each.shown hinherited _).mp ⟨head, hread, rfl⟩) hvalid hvalid', ?_⟩
      intro other hother
      rw [Multiset.mem_add, not_or, Multiset.mem_singleton] at hother
      have hmem {maps : Multiset Nat} (hle : maps ≤ rest) : other ∉ maps :=
        fun hmem => hother.2 (Multiset.mem_of_le hle hmem)
      calc after₂.known.lookup other
        _ = after₁.known.lookup other := hlearns' other (hmem (hlinks_le head.kind))
        _ = (before.allocated ref head).known.lookup other := hlearns other (hmem hmembers_le)
        _ = before.known.lookup other := by
          rw [Progress.allocated, List.lookup_cons, beq_false_of_ne hother.1]

/-- What is read of a new map has the kind that the map names:
`(store.entries ref).kind? = some (after.element h).kind`. -/
theorem kind_of_readElement {ref : Nat} {given : Option Value} {before after : Progress} {h : Handle}
    (sound : before.Sound store) (hfresh : before.known.lookup ref = none)
    (hrun : store.readElement (fuel + 1) (.map ref) given before = .ok (h, after)) :
    (store.entries ref).kind? = some (after.element h).kind := by
  obtain ⟨_, ⟨⟩, hreads⟩ := readElement_eq_ok_iff.mp hrun
  cases hreads with
  | known hlookup =>
    rw [hfresh] at hlookup
    cases hlookup
  | @new head members body after₁ after₂ _ hread hmembers hlinks =>
    obtain ⟨-, hbody, -, hbare⟩ := sound_of_readHead hread
    obtain ⟨hkept, hsize, -, -⟩ :=
      kept_of_readMembers (readElement_keeps store fuel) sound hread hmembers
    obtain ⟨hkept', -, hkind, -⟩ :=
      readLinks_keeps (readElement_keeps store fuel) hkept.sound hbody hbare hlinks
    rw [Progress.element_replaced (hsize.trans_le hkept'.more.size), if_pos rfl,
      kind_of_readHead hread]
    exact congrArg some hkind.symm

/-- **Elements are read** where the grammar has them: `readElement fuel` decides `Tree.IsElement`
for as many maps as `fuel` suffices for. -/
theorem judges_readElement (store : Store) (fuel : Nat) :
    store.Judges fuel (store.readElement fuel) := by
  induction fuel with
  | zero =>
    exact ⟨fun _ _ _ hcard => absurd hcard (Nat.not_lt_zero _), fun _ _ _ _ _ _ hrun => by cases hrun⟩
  | succ fuel ih =>
    constructor
    · intro tree inherited v given maps hshows hinherited hnodup hcard
      cases hshows with
      | scalar s => exact .throw _ (by rintro ⟨⟨h, -, -, -⟩, -, -⟩; cases h)
      | list each =>
        exact (Decides.throw _ (by rintro ⟨⟨h, -, -, -⟩, -, -⟩; cases h)).mono (Multiset.zero_le _)
      | @map trees ref rest each =>
        rw [Multiset.card_add, Multiset.card_singleton] at hcard
        exact ih.readElement_map each hinherited hnodup (by omega)
    · intro tree v given maps hshows before after h sound lacks hrun
      obtain ⟨ref, rfl, -⟩ := readElement_eq_ok_iff.mp hrun
      cases hshows with
      | map each =>
        have hfresh : before.known.lookup ref = none :=
          lacks ref (Multiset.mem_add.mpr (.inl (Multiset.mem_singleton_self ref)))
        exact (kind?_iff each.shown _).mp (kind_of_readElement sound hfresh hrun)

end Store

/-! ## Graphs -/

/-- The exports of a graph are read where they count as false or are a map of elements. -/
theorem Store.exists_readExports_iff {store : Store} {tree : Tree} {v : Value} {maps : Multiset Nat}
    (h : store.Shows tree v maps) (hnodup : maps.Nodup) (hcard : maps.card ≤ store.maps.size) :
    (∃ members after, store.readExports v {} = .ok (members, after)) ↔ tree.truthy = false ∨
      ∃ exports, tree = .map exports ∧ ∀ entry ∈ exports, Tree.IsElement (.scalar entry.1) entry.2 := by
  unfold readExports
  by_cases htrue : store.truthy v = true
  · have hfalsy : tree.truthy ≠ false := by rw [← h.truthy_eq, htrue]; decide
    rw [if_neg (by simp [htrue]), or_iff_right hfalsy]
    cases h with
    | scalar s => exact iff_of_false (by rintro ⟨_, _, h⟩; cases h) (by rintro ⟨_, h, _⟩; cases h)
    | list each => exact iff_of_false (by rintro ⟨_, _, h⟩; cases h) (by rintro ⟨_, h, _⟩; cases h)
    | @map trees ref rest each =>
      have hrest := (Multiset.nodup_add.mp hnodup).2.1
      rw [Multiset.card_add, Multiset.card_singleton] at hcard
      have hdecides := (judges_readElement store (store.maps.size + 1)).readEntries each hrest (by omega)
      simp only [hdecides.exists_iff, Tree.map.injEq, exists_eq_left']
  · rw [if_pos (by simpa using htrue)]
    exact iff_of_true ⟨_, _, rfl⟩ (.inl (by rw [← h.truthy_eq]; simpa using htrue))

/-- **The decoder accepts exactly its grammar**: a tree is read as an export graph exactly where it
is a serialized graph, `tree.IsGraph`. -/
theorem Graph.ofDocument_ofTree_iff (tree : Tree) :
    (∃ graph, Graph.ofDocument (Document.ofTree tree) = .ok graph) ↔ tree.IsGraph := by
  obtain ⟨maps, hshows, hnodup, hcard⟩ := Document.ofTree_shows tree
  generalize Document.ofTree tree = document at hshows hcard
  obtain ⟨store, root⟩ := document
  cases hshows with
  | scalar s => exact iff_of_false (by rintro ⟨_, h⟩; cases h) (by rintro ⟨⟩)
  | list each => exact iff_of_false (by rintro ⟨_, h⟩; cases h) (by rintro ⟨⟩)
  | @map trees ref rest each =>
    obtain ⟨parts, hparts⟩ := each.showsParts
    have hle : parts "exports" ≤ {ref} + rest := by
      have hwithin := hparts.within ["exports"] (by decide)
      rw [List.map_singleton, List.sum_singleton] at hwithin
      exact hwithin.trans (Multiset.le_add_left _ _)
    have hexports := Store.exists_readExports_iff (hparts.shows "exports")
      (Multiset.nodup_of_le hle hnodup) ((Multiset.card_le_card hle).trans hcard)
    have hread : (∃ graph, Graph.ofDocument ⟨store, .map ref⟩ = .ok graph) ↔
        ∃ members after, store.readExports ((store.entries ref).field "exports") {}
          = .ok (members, after) := by
      constructor
      · rintro ⟨graph, hgraph⟩
        obtain ⟨_, members, after, ⟨⟩, hrun, -⟩ := Graph.ofDocument_eq_ok_iff.mp hgraph
        exact ⟨members, after, hrun⟩
      · rintro ⟨members, after, hrun⟩
        exact ⟨_, Graph.ofDocument_eq_ok_iff.mpr ⟨ref, members, after, rfl, hrun, rfl⟩⟩
    rw [hread, hexports]
    constructor
    · rintro (hfalsy | ⟨exports, hfield, heach⟩)
      · exact .empty hfalsy
      · refine .exports ?_ heach
        rw [Tree.field, Tree.field?_map] at hfield
        cases hgiven : Tree.under? "exports" trees with
        | none => rw [hgiven] at hfield; cases hfield
        | some given => rw [hgiven] at hfield; rw [← hfield]; rfl
    · rintro (hfalsy | ⟨hgiven, heach⟩)
      · exact .inl hfalsy
      · exact .inr ⟨_, by rw [Tree.field, Tree.field?_map, hgiven]; rfl, heach⟩

end ModuleSurface
