import ModuleSurface.Proofs.ReadBack

/-! # Which maps a document is read from

A document that was read tells what was read without the state of reading: its maps are visited
depth first, each when it is first come to, and become elements in the order of these first visits.
What a map becomes depends on the map and on the name that it inherits at its first visit, and on
nothing else.

* **`Store.calls`** — the values that reading a map goes on to, in order, and the names that they
  inherit.
* **`FirstVisits`** — the search of the maps, with what each of them spells.
* **`Graph.exists_madeOf`** — a document that was read was searched in this way. -/

namespace ModuleSurface

/-- The map that a value is, when it is one. -/
def Value.map? : Value → Option Nat
  | .map r => some r
  | _ => none

/-- A value is what `nonNull?` answers of it, if it does not stand for nothing. -/
theorem Value.ofOption_nonNull? (v : Value) : Value.ofOption v.nonNull? = v := by
  by_cases hnull : v = .null
  · subst hnull
    rfl
  · simp [Value.nonNull?, Value.isNull, hnull, Value.ofOption]

namespace Store

/-! ## What a map refers to -/

/-- The values of a member map; each inherits its key. -/
def memberCalls (store : Store) : Value → List (Value × Option Value)
  | .map ref => (store.entries ref).map fun entry => (entry.2, some (.scalar entry.1))
  | _ => []

/-- The instances of a prototype; each inherits the name of the prototype. -/
def instanceCalls (store : Store) (name : Value) (v : Value) : List (Value × Option Value) :=
  if store.truthy v then
    match v with
    | .list ref => (store.items ref).map fun item => (item, some name)
    | _ => []
  else []

/-- The base of a class, which inherits no name. -/
def baseCalls (v : Value) : List (Value × Option Value) :=
  match v.nonNull? with
  | none => []
  | some v => [(v, none)]

/-- What the body of an element of a kind refers to. -/
def linkCalls (store : Store) (name : Value) (entries : Entries) :
    ElementKind → List (Value × Option Value)
  | .functionPrototype | .classPrototype =>
    store.instanceCalls name (entries.field "instances")
  | .classType | .interfaceType =>
    baseCalls (entries.field "base") ++ store.memberCalls (entries.field "static_members")
      ++ store.memberCalls (entries.field "instance_members")
  | _ => []

/-- **What reading a map goes on to**, in order, with the names inherited: its members, and then
what its body refers to. -/
def calls (store : Store) (entries : Entries) (element : Element) : List (Value × Option Value) :=
  store.memberCalls (entries.field "members") ++ store.linkCalls element.name entries element.kind

/-- What the exports of a root map refer to; every value that counts as false has none. -/
def exportCalls (store : Store) (v : Value) : List (Value × Option Value) :=
  if store.truthy v then store.memberCalls v else []

/-- The maps among the values that are gone on to. -/
def calledMaps (calls : List (Value × Option Value)) : List Nat :=
  calls.filterMap fun call => call.1.map?

/-- No calls are calls of maps: `calledMaps [] = []`. -/
@[simp] theorem calledMaps_nil : calledMaps [] = [] := rfl

/-- The map that is called first stands first. -/
@[simp] theorem calledMaps_cons_map (r : Nat) (inherited : Option Value)
    (calls : List (Value × Option Value)) :
    calledMaps ((.map r, inherited) :: calls) = r :: calledMaps calls := rfl

/-- The maps that are called stand in the order of the calls. -/
@[simp] theorem calledMaps_append (calls others : List (Value × Option Value)) :
    calledMaps (calls ++ others) = calledMaps calls ++ calledMaps others := by
  simp [calledMaps]

/-! ## What a map spells -/

/-- **A value spells instances** whose handles are references to maps: it is the list of the maps, or
there are none and it counts as false. -/
def SpellsInstances (store : Store) (v : Value) (instances : List Handle) : Prop :=
  (store.truthy v = false ∧ instances = []) ∨
    ∃ ref, v = .list ref ∧ store.items ref = instances.map Value.map

/-- **A value spells exports** whose handles are references to maps: it is their member map, or there
are none and it counts as false. -/
def SpellsExports (store : Store) (v : Value) (refs : Members) : Prop :=
  (store.truthy v = false ∧ refs = []) ∨ store.SpellsMembers v (some refs)

/-- **Entries are read as what a body refers to.** -/
def ReadsLinks (store : Store) (entries : Entries) : Body → Prop
  | .functionPrototype instances | .classPrototype instances =>
    store.SpellsInstances (entries.field "instances") instances
  | .classType links | .interfaceType links =>
    entries.field "base" = Value.ofOption (links.base.map Value.map) ∧
      store.SpellsMembers (entries.field "static_members") links.staticMembers ∧
      store.SpellsMembers (entries.field "instance_members") links.instanceMembers
  | _ => True

/-- **Entries are read as an element** whose handles are references to maps, where they inherit a
name. -/
structure ReadsAs (store : Store) (inherited : Option Value) (element : Element)
    (entries : Entries) : Prop where
  head : store.readHead entries inherited
    = .ok { name := element.name, flags := element.flags, body := element.body.bare }
  members : store.SpellsMembers (entries.field "members") element.members
  links : store.ReadsLinks entries element.body

variable {store : Store}

/-- A member map refers to the maps that it spells. -/
theorem calledMaps_memberCalls {v : Value} {refs : Option Members} (h : store.SpellsMembers v refs) :
    calledMaps (store.memberCalls v) = (refs.getD []).map (·.2) := by
  cases refs with
  | none =>
    obtain rfl : v = .null := h
    rfl
  | some refs =>
    obtain ⟨ref, rfl, hentries⟩ := h
    simp [memberCalls, hentries, calledMaps, List.filterMap_map, Function.comp_def, Value.map?]

/-- Instances refer to the maps that they spell:
`calledMaps (store.instanceCalls name v) = refs`. -/
theorem calledMaps_instanceCalls {name v : Value} {refs : List Nat}
    (h : store.SpellsInstances v refs) : calledMaps (store.instanceCalls name v) = refs := by
  obtain ⟨hfalse, rfl⟩ | ⟨ref, rfl, hitems⟩ := h
  · simp [instanceCalls, hfalse]
  · by_cases htrue : store.truthy (.list ref) = true
    · simp [instanceCalls, htrue, hitems, calledMaps, List.filterMap_map, Function.comp_def,
        Value.map?]
    · have hempty : store.items ref = [] := by simpa [truthy] using htrue
      rw [hempty] at hitems
      rw [List.map_eq_nil_iff.mp hitems.symm]
      simp [instanceCalls, htrue]

/-- A base refers to the map that it spells. -/
theorem calledMaps_baseCalls (ref : Option Nat) :
    calledMaps (baseCalls (Value.ofOption (ref.map Value.map))) = ref.toList := by
  cases ref <;> rfl

/-- Exports refer to the maps that they spell:
`calledMaps (store.exportCalls v) = refs.map (·.2)`. -/
theorem calledMaps_exportCalls {v : Value} {refs : Members} (h : store.SpellsExports v refs) :
    calledMaps (store.exportCalls v) = refs.map (·.2) := by
  obtain ⟨hfalse, rfl⟩ | h := h
  · simp [exportCalls, hfalse]
  · unfold exportCalls
    split
    · exact calledMaps_memberCalls h
    · -- an empty map counts as false
      obtain ⟨ref, rfl, hentries⟩ := h
      have hempty : refs = [] := by simpa [truthy, hentries] using ‹¬ store.truthy (.map ref) = true›
      rw [hempty]
      rfl

/-- A body refers to the maps that it spells, its `links`. -/
theorem calledMaps_linkCalls {name : Value} {entries : Entries} {body : Body}
    (h : store.ReadsLinks entries body) :
    calledMaps (store.linkCalls name entries body.kind) = body.links := by
  cases body with
  | functionPrototype refs | classPrototype refs => exact calledMaps_instanceCalls h
  | classType links | interfaceType links =>
    obtain ⟨hbase, hstatics, hmembers⟩ := h
    simp only [linkCalls, Body.kind, Body.links, calledMaps_append, hbase, calledMaps_baseCalls,
      calledMaps_memberCalls hstatics, calledMaps_memberCalls hmembers]
  | _ => rfl

/-- The maps that a body refers to do not depend on the names that they inherit. -/
theorem calledMaps_linkCalls_name (name name' : Value) (entries : Entries) (kind : ElementKind) :
    calledMaps (store.linkCalls name entries kind)
      = calledMaps (store.linkCalls name' entries kind) := by
  have hinstances : calledMaps (store.instanceCalls name (entries.field "instances"))
      = calledMaps (store.instanceCalls name' (entries.field "instances")) := by
    unfold instanceCalls
    split
    · split <;> simp [calledMaps, List.filterMap_map]
    · rfl
  cases kind with
  | functionPrototype | classPrototype => exact hinstances
  | _ => rfl

/-- **A map refers to the maps that it spells**, the `successors` of the element. -/
theorem ReadsAs.calledMaps {inherited : Option Value} {element : Element} {entries : Entries}
    (h : store.ReadsAs inherited element entries) :
    Store.calledMaps (store.calls entries element) = element.successors := by
  rw [calls, calledMaps_append, calledMaps_memberCalls h.members, Element.kind,
    calledMaps_linkCalls h.links]
  rfl

/-- **The maps that a map refers to**, in the order in which they are come to. -/
def refersTo (store : Store) (r : Nat) : List Nat :=
  let entries := store.entries r
  calledMaps (store.memberCalls (entries.field "members")) ++
    match entries.kind? with
    | some kind => calledMaps (store.linkCalls .null entries kind)
    | none => []

/-- A map that is read refers to the maps that it spells, whatever name it inherits:
`store.refersTo r = element.successors`. -/
theorem ReadsAs.refersTo {inherited : Option Value} {element : Element} {r : Nat}
    (h : store.ReadsAs inherited element (store.entries r)) :
    store.refersTo r = element.successors := by
  rw [← h.calledMaps, Store.refersTo, kind_of_readHead h.head, calls, calledMaps_append]
  simp only [Element.kind, Body.kind_bare]
  rw [calledMaps_linkCalls_name .null element.name]

end Store

/-! ## The search -/

/-- **A first visit**: the map, the name that it inherits there, and the element that it spells, with
references to maps for handles. -/
structure Visit where
  ref : Nat
  inherited : Option Value
  element : Element

/-- The maps of a forest of visits, in order. -/
def Forest.refs (forest : Forest Visit) : List Nat := forest.preorder.map Visit.ref

/-- An empty forest visits no maps: `Forest.refs .nil = []`. -/
@[simp] theorem Forest.refs_nil : Forest.refs .nil = [] := rfl

/-- A map is visited before those inside its visit, and these before the others. -/
@[simp] theorem Forest.refs_node (visit : Visit) (inside rest : Forest Visit) :
    Forest.refs (.node visit inside rest) = visit.ref :: (inside.refs ++ rest.refs) := by
  simp [refs]

/-- The maps of a forest are visited before those of the one behind it:
`(forest.append other).refs = forest.refs ++ other.refs`. -/
@[simp] theorem Forest.refs_append (forest other : Forest Visit) :
    (forest.append other).refs = forest.refs ++ other.refs := by
  simp [refs]

/-- **First visits.** Of the values that are come to, a map that is found already is passed over; any
other map is visited, then what it refers to is come to, and then what waits behind it. -/
inductive FirstVisits (store : Store) :
    List Nat → List (Value × Option Value) → Forest Visit → Prop
  | done {found : List Nat} : FirstVisits store found [] .nil
  | again {found : List Nat} {r : Nat} {inherited : Option Value}
      {waiting : List (Value × Option Value)} {forest : Forest Visit} (old : r ∈ found)
      (later : FirstVisits store found waiting forest) :
      FirstVisits store found ((.map r, inherited) :: waiting) forest
  | fresh {found : List Nat} {visit : Visit} {waiting : List (Value × Option Value)}
      {inside rest : Forest Visit} (new : visit.ref ∉ found)
      (reads : store.ReadsAs visit.inherited visit.element (store.entries visit.ref))
      (below : FirstVisits store (found ++ [visit.ref])
        (store.calls (store.entries visit.ref) visit.element) inside)
      (later : FirstVisits store (found ++ visit.ref :: inside.refs) waiting rest) :
      FirstVisits store found ((.map visit.ref, visit.inherited) :: waiting)
        (.node visit inside rest)

namespace FirstVisits

variable {store : Store} {found : List Nat} {waiting : List (Value × Option Value)}
  {forest : Forest Visit}

/-- Searching two lists one after the other. -/
theorem append {second : List (Value × Option Value)} {other : Forest Visit}
    (h : FirstVisits store found waiting forest)
    (h' : FirstVisits store (found ++ forest.refs) second other) :
    FirstVisits store found (waiting ++ second) (forest.append other) := by
  induction h with
  | done => simpa using h'
  | again old _ ih => exact .again old (ih h')
  | fresh new reads below _ _ ih => exact .fresh new reads below (ih (by simpa using h'))

/-- **First visits search the maps depth first**: they are a `DepthFirst` search along
`store.refersTo`. -/
theorem depthFirst (h : FirstVisits store found waiting forest) :
    DepthFirst store.refersTo found (Store.calledMaps waiting) (forest.map Visit.ref) := by
  induction h with
  | done => exact .done
  | again old _ ih => exact .again old ih
  | @fresh found visit waiting inside rest new reads _ _ ihBelow ihLater =>
    rw [Store.calledMaps_cons_map, Forest.map_node]
    refine .fresh new ?_ ?_
    · rwa [reads.refersTo, ← reads.calledMaps]
    · rwa [Forest.preorder_map]

/-- All that is come to is found, in `found ++ forest.refs`. -/
theorem waiting_found (h : FirstVisits store found waiting forest) {r : Nat}
    (hr : r ∈ Store.calledMaps waiting) : r ∈ found ++ forest.refs := by
  have hfound := h.depthFirst.waiting_found hr
  rwa [Forest.preorder_map, ← List.mem_append] at hfound

/-- Nothing is visited twice. -/
theorem nodup_refs (h : FirstVisits store [] waiting forest) : forest.refs.Nodup := by
  have hnodup := h.depthFirst.nodup_preorder
  rwa [Forest.preorder_map] at hnodup

/-- Every map that is visited is read as the element that it spells. -/
theorem reads (h : FirstVisits store found waiting forest) :
    ∀ visit ∈ forest.preorder,
      store.ReadsAs visit.inherited visit.element (store.entries visit.ref) := by
  induction h with
  | done => simp
  | again _ _ ih => exact ih
  | fresh _ reads _ _ ihBelow ihLater =>
    intro visit hvisit
    rw [Forest.preorder_node, List.mem_cons, List.mem_append] at hvisit
    rcases hvisit with rfl | hvisit | hvisit
    · exact reads
    · exact ihBelow visit hvisit
    · exact ihLater visit hvisit

end FirstVisits

/-! ## Reading -/

/-- **What is tracked** when some maps have been found: each of them has its place. -/
structure Tracks (found : List Nat) (progress : Progress) : Prop where
  size : progress.elements.size = found.length
  lookup (r : Nat) : progress.known.lookup r = if r ∈ found then some (found.idxOf r) else none

/-- A map that is found, and its head allocated. -/
theorem Tracks.allocated {found : List Nat} {before : Progress} (h : Tracks found before) {r : Nat}
    (hnew : r ∉ found) (head : Element) : Tracks (found ++ [r]) (before.allocated r head) where
  size := by simp [Progress.allocated, h.size]
  lookup s := by
    rw [Progress.allocated, List.lookup_cons, h.lookup, h.size]
    by_cases hs : s = r
    · subst hs
      simp [List.idxOf_append, hnew]
    · rw [beq_false_of_ne hs]
      by_cases hold : s ∈ found <;> simp [hs, hold, List.idxOf_append]

/-- A map that is found, and its element replaced. -/
theorem Tracks.replaced {found : List Nat} {before : Progress} (h : Tracks found before)
    (a : Handle) (element : Element) : Tracks found (before.replaced a element) where
  size := by simp [Progress.replaced, h.size]
  lookup := h.lookup

/-- **What reading finds**: a search of the values that it comes to, which leads from what was tracked
before to what is tracked now, and reads what the maps spell. -/
structure Finds (store : Store) (found : List Nat) (waiting : List (Value × Option Value))
    (forest : Forest Visit) (before after : Progress) : Prop where
  search : FirstVisits store found waiting forest
  tracks : Tracks (found ++ forest.refs) after
  advances (spelled : Nat → Element) :
    (∀ visit ∈ forest.preorder, spelled visit.ref = visit.element) → Known spelled found before →
      Advances spelled found forest.refs before after

namespace Finds

variable {store : Store} {found : List Nat} {waiting second : List (Value × Option Value)}
  {forest other : Forest Visit} {before middle after : Progress}

/-- Nothing is found where nothing is waiting. -/
theorem refl (h : Tracks found before) : Finds store found [] .nil before before where
  search := .done
  tracks := by simpa using h
  advances _ _ hknown := .refl hknown

/-- Reading some values and then more. -/
theorem trans (h : Finds store found waiting forest before middle)
    (h' : Finds store (found ++ forest.refs) second other middle after) :
    Finds store found (waiting ++ second) (forest.append other) before after where
  search := h.search.append h'.search
  tracks := by simpa using h'.tracks
  advances spelled hspelled hknown := by
    rw [Forest.refs_append]
    have hfirst := h.advances spelled (fun visit hvisit => hspelled visit (by simp [hvisit])) hknown
    exact hfirst.trans (h'.advances spelled (fun visit hvisit => hspelled visit (by simp [hvisit]))
      hfirst.known)

/-- What is come to keeps its place when more is found. -/
theorem idxOf_append (h : Finds store found waiting forest before after) {r : Nat}
    (hr : r ∈ Store.calledMaps waiting) (more : List Nat) :
    (found ++ forest.refs ++ more).idxOf r = (found ++ forest.refs).idxOf r :=
  List.idxOf_append_of_mem (h.search.waiting_found hr)

end Finds

namespace Store

variable {store : Store} {reader : ElementReader} {found : List Nat} {before after : Progress}

/-- **A reader that visits maps**: what it reads is a map, and it gives the place of the map. -/
def Visits (store : Store) (reader : ElementReader) : Prop :=
  ∀ (v : Value) (inherited : Option Value) (found : List Nat) (before after : Progress) (h : Handle),
    Tracks found before → reader v inherited before = .ok (h, after) →
      ∃ r forest, v = .map r ∧ h = (found ++ forest.refs).idxOf r ∧
        Finds store found [(v, inherited)] forest before after

/-- Entries that are read are maps, and become their places. -/
theorem visits_entries (hreader : Visits store reader) {entries : Entries} {members : Members}
    (htracks : Tracks found before)
    (hrun : readEntries reader entries before = .ok (members, after)) :
    ∃ refs forest, entries = refs.map (fun entry => (entry.1, Value.map entry.2)) ∧
      members = Members.rename (found ++ forest.refs).idxOf refs ∧
      Finds store found (entries.map fun entry => (entry.2, some (.scalar entry.1))) forest before
        after := by
  induction entries generalizing found before members with
  | nil =>
    cases hrun
    exact ⟨[], .nil, rfl, rfl, .refl htracks⟩
  | cons entry entries ih =>
    obtain ⟨key, v⟩ := entry
    obtain ⟨h, middle, hhead, hrun⟩ := readBind_eq_ok_iff.mp hrun
    obtain ⟨others, last, hrest, hrun⟩ := readBind_eq_ok_iff.mp hrun
    cases hrun
    obtain ⟨r, first, rfl, rfl, hfinds⟩ := hreader _ _ _ _ _ _ htracks hhead
    obtain ⟨refs, second, rfl, rfl, hfinds'⟩ := ih hfinds.tracks hrest
    refine ⟨(key, r) :: refs, first.append second, rfl, ?_, hfinds.trans hfinds'⟩
    rw [Members.rename_cons, Forest.refs_append, ← List.append_assoc,
      hfinds.idxOf_append List.mem_cons_self]

/-- The places of the maps of a member map do not move when more is found. -/
theorem rename_idxOf_append {v : Value} {refs : Option Members} {forest : Forest Visit}
    (hspells : store.SpellsMembers v refs)
    (h : Finds store found (store.memberCalls v) forest before after) (more : List Nat) :
    refs.map (Members.rename (found ++ forest.refs ++ more).idxOf)
      = refs.map (Members.rename (found ++ forest.refs).idxOf) := by
  refine Members.map_rename_congr fun r hr => h.idxOf_append ?_ more
  rwa [calledMaps_memberCalls hspells]

/-- A member map that is read is spelled, as `SpellsMembers` has it, and its maps become their
places. -/
theorem visits_members (hreader : Visits store reader) {v : Value} {members : Option Members}
    (htracks : Tracks found before)
    (hrun : store.readMembers reader v before = .ok (members, after)) :
    ∃ refs forest, store.SpellsMembers v refs ∧
      members = refs.map (Members.rename (found ++ forest.refs).idxOf) ∧
      Finds store found (store.memberCalls v) forest before after := by
  unfold readMembers at hrun
  split at hrun
  · cases hrun
    exact ⟨none, .nil, rfl, rfl, .refl htracks⟩
  · rename_i ref
    obtain ⟨entries, last, hread, hrun⟩ := readBind_eq_ok_iff.mp hrun
    cases hrun
    obtain ⟨refs, forest, hentries, rfl, hfinds⟩ := visits_entries hreader htracks hread
    exact ⟨some refs, forest, ⟨ref, rfl, hentries⟩, rfl, hfinds⟩
  · cases hrun

/-- An instance that is read is a map, and becomes its place. -/
theorem visits_instance (hreader : Visits store reader) {sort : InstanceSort}
    {inherited : Option Value} {v : Value} {h : Handle} (htracks : Tracks found before)
    (hrun : readInstance reader sort inherited v before = .ok (h, after)) :
    ∃ r forest, v = .map r ∧ h = (found ++ forest.refs).idxOf r ∧
      Finds store found [(v, inherited)] forest before after := by
  obtain ⟨i, middle, hread, hrun⟩ := readBind_eq_ok_iff.mp hrun
  obtain ⟨element, last, helement, hrun⟩ := readBind_eq_ok_iff.mp hrun
  cases helement
  split at hrun
  · cases hrun
    exact hreader _ _ _ _ _ _ htracks hread
  · cases hrun

/-- Instances that are read are maps, and become their places. -/
theorem visits_instanceList (hreader : Visits store reader) {sort : InstanceSort}
    {inherited : Option Value} {items : List Value} {instances : List Handle}
    (htracks : Tracks found before)
    (hrun : readInstanceList reader sort inherited items before = .ok (instances, after)) :
    ∃ (refs : List Nat) (forest : Forest Visit), items = refs.map Value.map ∧
      instances = refs.map (found ++ forest.refs).idxOf ∧
      Finds store found (items.map fun item => (item, inherited)) forest before after := by
  induction items generalizing found before instances with
  | nil =>
    cases hrun
    exact ⟨[], .nil, rfl, rfl, .refl htracks⟩
  | cons v items ih =>
    obtain ⟨h, middle, hhead, hrun⟩ := readBind_eq_ok_iff.mp hrun
    obtain ⟨others, last, hrest, hrun⟩ := readBind_eq_ok_iff.mp hrun
    cases hrun
    obtain ⟨r, first, rfl, rfl, hfinds⟩ := visits_instance hreader htracks hhead
    obtain ⟨refs, second, rfl, rfl, hfinds'⟩ := ih hfinds.tracks hrest
    refine ⟨r :: refs, first.append second, rfl, ?_, hfinds.trans hfinds'⟩
    rw [List.map_cons, Forest.refs_append, ← List.append_assoc,
      hfinds.idxOf_append List.mem_cons_self]

/-- The instances of a prototype that are read are spelled, and become their places. -/
theorem visits_instances (hreader : Visits store reader) {sort : InstanceSort} {name v : Value}
    {instances : List Handle} (htracks : Tracks found before)
    (hrun : store.readInstances reader sort name v before = .ok (instances, after)) :
    ∃ refs forest, store.SpellsInstances v refs ∧
      instances = refs.map (found ++ forest.refs).idxOf ∧
      Finds store found (store.instanceCalls name v) forest before after := by
  unfold readInstances at hrun
  split at hrun
  · rename_i hfalse
    rw [Bool.not_eq_true'] at hfalse
    cases hrun
    refine ⟨[], .nil, .inl ⟨hfalse, rfl⟩, rfl, ?_⟩
    simpa [instanceCalls, hfalse] using Finds.refl htracks
  rename_i htrue
  rw [Bool.not_eq_true', Bool.not_eq_false] at htrue
  split at hrun
  · rename_i ref
    obtain ⟨refs, forest, hitems, rfl, hfinds⟩ := visits_instanceList hreader htracks hrun
    refine ⟨refs, forest, .inr ⟨ref, rfl, hitems⟩, rfl, ?_⟩
    rw [instanceCalls, htrue]
    exact hfinds
  · cases hrun

/-- The base of a class that is read is nothing or a map, which becomes its place. -/
theorem visits_base (hreader : Visits store reader) {v : Value} {base : Option Handle}
    (htracks : Tracks found before) (hrun : readBase reader v before = .ok (base, after)) :
    ∃ (ref : Option Nat) (forest : Forest Visit), v = Value.ofOption (ref.map Value.map) ∧
      base = ref.map (found ++ forest.refs).idxOf ∧
      Finds store found (baseCalls v) forest before after := by
  have hvalue := v.ofOption_nonNull?
  unfold readBase at hrun
  unfold baseCalls
  cases hv : v.nonNull? with
  | none =>
    rw [hv] at hrun hvalue
    cases hrun
    exact ⟨none, .nil, hvalue.symm, rfl, .refl htracks⟩
  | some given =>
    rw [hv] at hrun hvalue
    obtain ⟨b, last, hread, hrun⟩ := readBind_eq_ok_iff.mp hrun
    cases hrun
    obtain ⟨r, forest, rfl, rfl, hfinds⟩ := visits_instance hreader htracks hread
    exact ⟨some r, forest, hvalue.symm, rfl, hfinds⟩

/-- What a class refers to, when it is read, is spelled, and becomes places. -/
theorem visits_classLinks (hreader : Visits store reader) {entries : Entries}
    {links : ClassLinks} (htracks : Tracks found before)
    (hrun : store.readClassLinks reader entries before = .ok (links, after)) :
    ∃ refs forest, store.ReadsLinks entries (.classType refs) ∧
      links = refs.map (found ++ forest.refs).idxOf ∧
      Finds store found (baseCalls (entries.field "base")
        ++ store.memberCalls (entries.field "static_members")
        ++ store.memberCalls (entries.field "instance_members")) forest before after := by
  rw [readClassLinks_eq] at hrun
  obtain ⟨_, first, hread₁, hrun⟩ := readBind_eq_ok_iff.mp hrun
  obtain ⟨_, second, hread₂, hrun⟩ := readBind_eq_ok_iff.mp hrun
  obtain ⟨_, third, hread₃, hrun⟩ := readBind_eq_ok_iff.mp hrun
  cases hrun
  obtain ⟨base, forest₁, hbase, rfl, hfinds₁⟩ := visits_base hreader htracks hread₁
  obtain ⟨statics, forest₂, hstatics, rfl, hfinds₂⟩ :=
    visits_members hreader hfinds₁.tracks hread₂
  have hfinds := hfinds₁.trans hfinds₂
  obtain ⟨members, forest₃, hmembers, rfl, hfinds₃⟩ :=
    visits_members hreader hfinds.tracks hread₃
  refine ⟨⟨base, statics, members⟩, _, ⟨hbase, hstatics, hmembers⟩, ?_, hfinds.trans hfinds₃⟩
  -- the places that were given first do not move when more maps are found
  have hbasePlace : base.map (found ++ forest₁.refs ++ (forest₂.refs ++ forest₃.refs)).idxOf
      = base.map (found ++ forest₁.refs).idxOf := by
    refine Option.map_congr fun r hr => hfinds₁.idxOf_append ?_ _
    rw [hbase, calledMaps_baseCalls]
    exact Option.mem_toList.mpr hr
  simp only [ClassLinks.map, Forest.refs_append, ← List.append_assoc] at hbasePlace ⊢
  rw [hbasePlace, rename_idxOf_append hstatics hfinds₂]

/-- What a body refers to, when it is read, is spelled, and becomes places. -/
theorem visits_links (hreader : Visits store reader) {name : Value} {entries : Entries}
    {bare body : Body} (hbare : bare.bare = bare) (htracks : Tracks found before)
    (hrun : store.readLinks reader name entries bare before = .ok (body, after)) :
    ∃ (refs : Body) (forest : Forest Visit), store.ReadsLinks entries refs ∧ refs.bare = bare ∧
      body = refs.map (found ++ forest.refs).idxOf ∧
      Finds store found (store.linkCalls name entries bare.kind) forest before after := by
  cases bare with
  | functionPrototype instances =>
    obtain ⟨_, last, hread, hrun⟩ := readBind_eq_ok_iff.mp hrun
    cases hrun
    obtain ⟨refs, forest, hspells, rfl, hfinds⟩ := visits_instances hreader htracks hread
    exact ⟨.functionPrototype refs, forest, hspells, hbare, rfl, hfinds⟩
  | classPrototype instances =>
    obtain ⟨_, last, hread, hrun⟩ := readBind_eq_ok_iff.mp hrun
    cases hrun
    obtain ⟨refs, forest, hspells, rfl, hfinds⟩ := visits_instances hreader htracks hread
    exact ⟨.classPrototype refs, forest, hspells, hbare, rfl, hfinds⟩
  | classType links =>
    obtain ⟨_, last, hread, hrun⟩ := readBind_eq_ok_iff.mp hrun
    cases hrun
    obtain ⟨refs, forest, hspells, rfl, hfinds⟩ := visits_classLinks hreader htracks hread
    exact ⟨.classType refs, forest, hspells, hbare, rfl, hfinds⟩
  | interfaceType links =>
    obtain ⟨_, last, hread, hrun⟩ := readBind_eq_ok_iff.mp hrun
    cases hrun
    obtain ⟨refs, forest, hspells, rfl, hfinds⟩ := visits_classLinks hreader htracks hread
    exact ⟨.interfaceType refs, forest, hspells, hbare, rfl, hfinds⟩
  | _ =>
    cases hrun
    refine ⟨_, .nil, ?_, hbare, rfl, .refl htracks⟩
    trivial

/-! ## Reading elements -/

/-- **A map that is new and read** is visited: it spells an element, and it becomes this element with
places for the maps that it refers to. -/
theorem finds_fresh {r : Nat} {inherited : Option Value} {head : Element} {refs : Option Members}
    {body : Body} {first second : Forest Visit} {after₁ after₂ : Progress}
    (hnew : r ∉ found)
    (hhead : store.readHead (store.entries r) inherited = .ok head)
    (hmembers : store.SpellsMembers ((store.entries r).field "members") refs)
    (hbody : store.ReadsLinks (store.entries r) body) (hbare : body.bare = head.body)
    (hfirst : Finds store (found ++ [r]) (store.memberCalls ((store.entries r).field "members"))
      first (before.allocated r head) after₁)
    (hsecond : Finds store (found ++ [r] ++ first.refs)
      (store.linkCalls head.name (store.entries r) head.kind) second
      (after₁.replaced found.length
        ⟨head.name, head.flags, refs.map (Members.rename (found ++ [r] ++ first.refs).idxOf),
          head.body⟩) after₂) :
    Finds store found [(.map r, inherited)]
      (.node ⟨r, inherited, ⟨head.name, head.flags, refs, body⟩⟩ (first.append second) .nil) before
      (after₂.replaced found.length
        ⟨head.name, head.flags, refs.map (Members.rename (found ++ [r] ++ first.refs).idxOf),
          body.map (found ++ [r] ++ first.refs ++ second.refs).idxOf⟩) := by
  have hkind : head.kind = body.kind := by rw [Element.kind, ← hbare, Body.kind_bare]
  have hreads : store.ReadsAs inherited ⟨head.name, head.flags, refs, body⟩ (store.entries r) := by
    refine ⟨?_, hmembers, hbody⟩
    rw [hhead, hbare, ← (sound_of_readHead hhead).2.2.1]
  have hbelow : FirstVisits store (found ++ [r])
      (store.calls (store.entries r) ⟨head.name, head.flags, refs, body⟩) (first.append second) := by
    rw [calls, Element.kind, ← hkind]
    exact hfirst.search.append hsecond.search
  have hwhole : found ++ r :: (first.refs ++ second.refs)
      = found ++ [r] ++ first.refs ++ second.refs := by simp
  refine ⟨@FirstVisits.fresh _ _ ⟨r, inherited, _⟩ _ _ _ hnew hreads hbelow .done, ?_,
    fun spelled hspelled hknown => ?_⟩
  · simpa using hsecond.tracks.replaced _ _
  have helement : spelled r = ⟨head.name, head.flags, refs, body⟩ :=
    hspelled ⟨r, inherited, _⟩ (by simp)
  have hsame : head.kind = (spelled r).kind := by rw [helement, hkind, Element.kind]
  -- two searches below the map, each from where the one before it ended
  have hadvances₁ := hfirst.advances spelled
    (fun visit hvisit => hspelled visit (by simp [hvisit])) (hknown.allocated hnew hsame)
  have hplace : (found ++ [r] ++ first.refs).idxOf r = found.length := by
    simp [List.idxOf_append, hnew]
  have hadvances₂ := hsecond.advances spelled
    (fun visit hvisit => hspelled visit (by simp [hvisit]))
    (hplace ▸ hadvances₁.known.replaced (by simp) hsame)
  -- the members and the links are all that the map refers to, and all of it has been found
  have hclosed : ∀ s ∈ (spelled r).successors, s ∈ found ++ r :: (first.refs ++ second.refs) := by
    intro s hs
    rw [helement, ← hreads.calledMaps] at hs
    simpa using hbelow.waiting_found hs
  have hnode := hadvances₁.node hknown hnew hclosed hadvances₂
  rw [helement, Element.map, hwhole, rename_idxOf_append hmembers hfirst] at hnode
  simpa using hnode

/-- **Reading an element** visits maps, whatever the map refers to:
`Visits store (store.readElement fuel)`. -/
theorem visits_element (store : Store) (fuel : Nat) : Visits store (store.readElement fuel) := by
  induction fuel with
  | zero =>
    intro v inherited found before after h _ hrun
    cases hrun
  | succ fuel ih =>
    intro v inherited found before after h htracks hrun
    obtain ⟨r, rfl, hreads⟩ := readElement_eq_ok_iff.mp hrun
    -- what is tracked tells whether the map has been found
    have hplace := htracks.lookup r
    cases hreads with
    | known hlookup =>
      have hr : r ∈ found := by
        by_contra hr
        rw [hlookup, if_neg hr] at hplace
        cases hplace
      rw [hlookup, if_pos hr] at hplace
      cases hplace
      exact ⟨r, .nil, rfl, by simp, .again hr .done, by simpa using htracks,
        fun _ _ hknown => .refl hknown⟩
    | @new head _ _ _ _ hlookup hread hreadMembers hreadLinks =>
      have hr : r ∉ found := by
        intro hr
        rw [hlookup, if_pos hr] at hplace
        cases hplace
      obtain ⟨-, -, hnone, hbare⟩ := sound_of_readHead hread
      obtain ⟨refs, first, hmembers, rfl, hfirst⟩ :=
        visits_members ih (htracks.allocated hr head) hreadMembers
      obtain ⟨body, second, hbody, hbare', rfl, hsecond⟩ :=
        visits_links ih hbare (hfirst.tracks.replaced _ _) hreadLinks
      rw [htracks.size] at hsecond ⊢
      refine ⟨r, _, rfl, ?_, finds_fresh hr hread hmembers hbody hbare' hfirst hsecond⟩
      simp [List.idxOf_append, hr]

/-- The exports of a root map that are read are spelled, as `SpellsExports` has it, and become
places. -/
theorem visits_exports {v : Value} {exports : Members} (htracks : Tracks found before)
    (hrun : store.readExports v before = .ok (exports, after)) :
    ∃ (refs : Members) (forest : Forest Visit), store.SpellsExports v refs ∧
      exports = refs.rename (found ++ forest.refs).idxOf ∧
      Finds store found (store.exportCalls v) forest before after := by
  unfold readExports at hrun
  split at hrun
  · rename_i hfalse
    rw [Bool.not_eq_true'] at hfalse
    cases hrun
    refine ⟨[], .nil, .inl ⟨hfalse, rfl⟩, rfl, ?_⟩
    simpa [exportCalls, hfalse] using Finds.refl htracks
  rename_i htrue
  rw [Bool.not_eq_true', Bool.not_eq_false] at htrue
  split at hrun
  · rename_i ref
    obtain ⟨refs, forest, hentries, rfl, hfinds⟩ :=
      visits_entries (visits_element store _) htracks hrun
    refine ⟨refs, forest, .inr ⟨ref, rfl, hentries⟩, rfl, ?_⟩
    rw [exportCalls, htrue]
    exact hfinds
  · cases hrun

end Store

/-! ## Reading documents -/

/-- Visits of different maps say what each of them spells. -/
theorem exists_spelled {visits : List Visit} (hnodup : (visits.map Visit.ref).Nodup) :
    ∃ spelled : Nat → Element, ∀ visit ∈ visits, spelled visit.ref = visit.element := by
  classical
  refine ⟨fun r => if h : ∃ visit ∈ visits, visit.ref = r then h.choose.element else default,
    fun visit hvisit => ?_⟩
  have hexists : ∃ other ∈ visits, other.ref = visit.ref := ⟨visit, hvisit, rfl⟩
  obtain ⟨hmem, href⟩ := hexists.choose_spec
  simp only
  rw [dif_pos hexists, List.inj_on_of_nodup_map hnodup hmem hvisit href]

namespace Document

/-- What reading a document starts with. -/
def calls (document : Document) : List (Value × Option Value) :=
  match document.root with
  | .map ref => document.store.exportCalls ((document.store.entries ref).field "exports")
  | _ => []

/-- The maps that a document exports. -/
def exportedMaps (document : Document) : List Nat := Store.calledMaps document.calls

/-- **The maps that a document reaches** from its exports. -/
def Reaches (document : Document) : Nat → Prop :=
  Reached document.store.refersTo document.exportedMaps

/-- **A document spells exports** whose handles are references to maps. -/
def SpellsExports (document : Document) (refs : Members) : Prop :=
  ∃ ref, document.root = .map ref ∧
    document.store.SpellsExports ((document.store.entries ref).field "exports") refs

/-- A document exports the maps that it spells: `exportedMaps` are those of `refs`. -/
theorem SpellsExports.exportedMaps {document : Document} {refs : Members}
    (h : document.SpellsExports refs) : document.exportedMaps = refs.map (·.2) := by
  obtain ⟨ref, hroot, h⟩ := h
  rw [Document.exportedMaps, calls, hroot, Store.calledMaps_exportCalls h]

end Document

/-- **A graph that is made of first visits**: the maps of a document are searched from the exports,
and each is an element, with the places of the maps that it refers to. -/
structure Graph.MadeOf (graph : Graph) (document : Document) (forest : Forest Visit) : Prop where
  search : FirstVisits document.store [] document.calls forest
  size : graph.size = forest.refs.length
  element : ∀ visit ∈ forest.preorder,
    graph.element (forest.refs.idxOf visit.ref) = visit.element.map forest.refs.idxOf
  exports : ∃ refs, document.SpellsExports refs ∧ graph.exports = refs.rename forest.refs.idxOf

/-- **A document that was read** was searched from its exports: the graph is `MadeOf` a forest of
first visits. -/
theorem Graph.exists_madeOf {document : Document} {graph : Graph}
    (h : ofDocument document = .ok graph) : ∃ forest, graph.MadeOf document forest := by
  obtain ⟨ref, members, progress, hroot, hexports, rfl⟩ := ofDocument_eq_ok_iff.mp h
  have hempty : Tracks [] {} := ⟨rfl, fun r => by simp⟩
  obtain ⟨refs, forest, hspells, rfl, hfinds⟩ := Store.visits_exports hempty hexports
  obtain ⟨spelled, hspelled⟩ := exists_spelled hfinds.search.nodup_refs
  have hadvances := hfinds.advances spelled hspelled
    ⟨rfl, fun r => by simp, fun r hr => absurd hr List.not_mem_nil⟩
  refine ⟨forest, ?_, ?_, fun visit hvisit => ?_, refs, ⟨ref, hroot, hspells⟩, rfl⟩
  · rw [Document.calls, hroot]
    exact hfinds.search
  · have hsize := hadvances.known.size
    rwa [List.nil_append] at hsize
  · have hplace := hadvances.read visit.ref (List.mem_map_of_mem hvisit)
    rwa [hspelled visit hvisit, List.nil_append] at hplace

end ModuleSurface
