import ModuleSurface.Proofs.Decoding

/-! # Maps that spell elements

An element whose handles are references to maps is spelled by a map of a document when reading the
map gives the element back, provided that what it refers to is read as those references say. What
a map spells says nothing about the order in which maps are read.

* **`Element.map`** — an element with the handles in it renamed.
* **`Element.eq_map_of_shape`** — an element is made of its shape and of what it refers to.
* **`Store.Spells`** — the entries of a map spell an element. -/

namespace ModuleSurface

variable {f g : Handle → Handle}

/-- A member map with its handles renamed. -/
def Members.rename (f : Handle → Handle) (members : Members) : Members :=
  members.map fun entry => (entry.1, f entry.2)

/-- What a class refers to with its handles renamed. -/
def ClassLinks.map (f : Handle → Handle) (links : ClassLinks) : ClassLinks where
  base := links.base.map f
  staticMembers := links.staticMembers.map (Members.rename f)
  instanceMembers := links.instanceMembers.map (Members.rename f)

/-- A body with its handles renamed. -/
def Body.map (f : Handle → Handle) : Body → Body
  | .functionPrototype instances => .functionPrototype (instances.map f)
  | .classPrototype instances => .classPrototype (instances.map f)
  | .classType links => .classType (links.map f)
  | .interfaceType links => .interfaceType (links.map f)
  | body => body

/-- **An element with its handles renamed.** Everything else stays, also whether there is a member
map. -/
def Element.map (f : Handle → Handle) (element : Element) : Element :=
  { element with
    members := element.members.map (Members.rename f)
    body := element.body.map f }

/-! ## Renaming -/

namespace Members

/-- No members are renamed to none: `rename f [] = []`. -/
@[simp] theorem rename_nil (f : Handle → Handle) : rename f [] = [] := rfl

/-- Each member is renamed under its key. -/
@[simp] theorem rename_cons (f : Handle → Handle) (entry : Scalar × Handle) (members : Members) :
    rename f (entry :: members) = (entry.1, f entry.2) :: rename f members := rfl

/-- Renaming leaves no members only where there are none: `rename f members = [] ↔ members = []`. -/
@[simp] theorem rename_eq_nil {members : Members} : rename f members = [] ↔ members = [] :=
  List.map_eq_nil_iff

/-- What members refer to is renamed with them:
`(rename f members).map (·.2) = (members.map (·.2)).map f`. -/
theorem map_snd_rename (f : Handle → Handle) (members : Members) :
    (rename f members).map (·.2) = (members.map (·.2)).map f := by
  simp [rename, Function.comp_def]

/-- Members that are renamed twice are renamed by both functions, one after the other. -/
theorem rename_rename (members : Members) :
    rename f (rename g members) = rename (fun h => f (g h)) members := by
  simp [rename, Function.comp_def]

/-- Renamings that agree on the members rename them alike: `rename f members = rename g members`. -/
theorem rename_congr {members : Members} (h : ∀ a ∈ members.map (·.2), f a = g a) :
    rename f members = rename g members := by
  refine List.map_congr_left fun entry hentry => ?_
  rw [h entry.2 (List.mem_map_of_mem hentry)]

/-- So they do with members that may be missing:
`members.map (rename f) = members.map (rename g)`. -/
theorem map_rename_congr {members : Option Members}
    (h : ∀ a ∈ (members.getD []).map (·.2), f a = g a) :
    members.map (rename f) = members.map (rename g) := by
  cases members with
  | none => rfl
  | some members => exact congrArg some (rename_congr h)

/-- Members that may be missing are renamed where they are there. -/
@[simp] theorem getD_map_rename (f : Handle → Handle) (members : Option Members) :
    (members.map (rename f)).getD [] = rename f (members.getD []) := by
  cases members <;> rfl

end Members

namespace Body

/-- Renaming keeps the kind of a body: `(body.map f).kind = body.kind`. -/
@[simp] theorem kind_map (f : Handle → Handle) (body : Body) : (body.map f).kind = body.kind := by
  cases body <;> rfl

/-- A bare body has the kind of the body: `body.bare.kind = body.kind`. -/
@[simp] theorem kind_bare (body : Body) : body.bare.kind = body.kind := by
  cases body <;> rfl

/-- Renaming changes nothing in a bare body: `(body.map f).bare = body.bare`. -/
@[simp] theorem bare_map (f : Handle → Handle) (body : Body) : (body.map f).bare = body.bare := by
  cases body <;> rfl

/-- What a body refers to is renamed with it: `(body.map f).links = body.links.map f`. -/
theorem links_map (f : Handle → Handle) (body : Body) : (body.map f).links = body.links.map f := by
  cases body with
  | classType links | interfaceType links =>
    obtain ⟨base, statics, members⟩ := links
    cases base <;> simp [Body.map, ClassLinks.map, Body.links, Members.map_snd_rename]
  | _ => rfl

/-- Two renamings that agree on what a body refers to rename it alike: `body.map f = body.map g`. -/
theorem map_congr {body : Body} (h : ∀ a ∈ body.links, f a = g a) : body.map f = body.map g := by
  cases body with
  | functionPrototype instances | classPrototype instances =>
    simp only [Body.map]
    exact congrArg _ (List.map_congr_left h)
  | classType links | interfaceType links =>
    have hinside : ∀ a, a ∈ links.base ∨ a ∈ (links.staticMembers.getD []).map (·.2) ∨
        a ∈ (links.instanceMembers.getD []).map (·.2) → f a = g a := by
      intro a ha
      refine h a ?_
      simp only [Body.links, List.mem_append, Option.mem_toList]
      tauto
    have hlinks : links.map f = links.map g := by
      simp only [ClassLinks.map, Option.map_congr fun a ha => hinside a (.inl ha),
        Members.map_rename_congr fun a ha => hinside a (.inr (.inl ha)),
        Members.map_rename_congr fun a ha => hinside a (.inr (.inr ha))]
    simp only [Body.map, hlinks]
  | _ => rfl

/-- A body that is renamed twice is renamed by both functions, one after the other:
`(body.map g).map f = body.map fun h => f (g h)`. -/
theorem map_map (body : Body) : (body.map g).map f = body.map fun h => f (g h) := by
  cases body with
  | classType links | interfaceType links =>
    obtain ⟨base, statics, members⟩ := links
    cases base <;> cases statics <;> cases members <;>
      simp [Body.map, ClassLinks.map, Members.rename_rename]
  | functionPrototype instances | classPrototype instances =>
    simp [Body.map, Function.comp_def]
  | _ => rfl

/-- Renaming keeps a body sorted, if the new handles are of the old kinds. -/
theorem Sorted.map {kind kind' : Handle → ElementKind} {body : Body} (h : body.Sorted kind)
    (hkind : ∀ a ∈ body.links, kind' (f a) = kind a) : (body.map f).Sorted kind' := by
  cases body with
  | functionPrototype instances | classPrototype instances =>
    intro i hi
    obtain ⟨a, ha, rfl⟩ := List.mem_map.mp hi
    rw [hkind a ha]
    exact h a ha
  | classType links | interfaceType links =>
    intro b hb
    obtain ⟨a, ha, rfl⟩ := Option.map_eq_some_iff.mp hb
    rw [hkind a (by simp [Body.links, ha])]
    exact h a ha
  | _ => trivial

end Body

namespace Element

/-- Renaming keeps the name: `(e.map f).name = e.name`. -/
@[simp] theorem name_map (f : Handle → Handle) (e : Element) : (e.map f).name = e.name := rfl

/-- Renaming keeps the flags: `(e.map f).flags = e.flags`. -/
@[simp] theorem flags_map (f : Handle → Handle) (e : Element) : (e.map f).flags = e.flags := rfl

/-- Renaming renames the members: `(e.map f).members = e.members.map (Members.rename f)`. -/
@[simp] theorem members_map (f : Handle → Handle) (e : Element) :
    (e.map f).members = e.members.map (Members.rename f) := rfl

/-- Renaming renames the body: `(e.map f).body = e.body.map f`. -/
@[simp] theorem body_map (f : Handle → Handle) (e : Element) : (e.map f).body = e.body.map f := rfl

/-- Renaming keeps the kind of an element: `(e.map f).kind = e.kind`. -/
@[simp] theorem kind_map (f : Handle → Handle) (e : Element) : (e.map f).kind = e.kind := by
  simp [kind]

/-- Renaming keeps whether an element is compiled: `(e.map f).isCompiled = e.isCompiled`. -/
@[simp] theorem isCompiled_map (f : Handle → Handle) (e : Element) :
    (e.map f).isCompiled = e.isCompiled := rfl

/-- The items of the members are renamed:
`(e.map f).memberItems = Members.rename f e.memberItems`. -/
theorem memberItems_map (f : Handle → Handle) (e : Element) :
    (e.map f).memberItems = Members.rename f e.memberItems := by
  simp [memberItems, Element.map]

/-- What an element refers to is renamed with it: `(e.map f).successors = e.successors.map f`. -/
theorem successors_map (f : Handle → Handle) (e : Element) :
    (e.map f).successors = e.successors.map f := by
  rw [successors, memberItems_map, Members.map_snd_rename, body_map, Body.links_map, successors,
    List.map_append]

/-- Two renamings that agree on what an element refers to rename it alike: `e.map f = e.map g`. -/
theorem map_congr {e : Element} (h : ∀ a ∈ e.successors, f a = g a) : e.map f = e.map g := by
  have hmembers : e.members.map (Members.rename f) = e.members.map (Members.rename g) :=
    Members.map_rename_congr fun a ha => h a (List.mem_append_left _ ha)
  simp only [Element.map, hmembers, Body.map_congr fun a ha => h a (List.mem_append_right _ ha)]

/-- An element that is renamed twice is renamed by both functions, one after the other:
`(e.map g).map f = e.map fun h => f (g h)`. -/
theorem map_map (e : Element) : (e.map g).map f = e.map fun h => f (g h) := by
  simp only [Element.map, Body.map_map, Option.map_map]
  congr 1
  cases e.members <;> simp [Members.rename_rename]

end Element

/-! ## Shapes -/

/-- **The shape** of a body: everything but the handles in it. -/
def Body.shape (body : Body) : Body := body.map fun _ => 0

/-- The shape of an element: everything but the handles in it. -/
def Element.shape (element : Element) : Element := element.map fun _ => 0

/-- The shape of a member map: its names. -/
def Members.shape (members : Members) : Members := members.rename fun _ => 0

/-- A member map is made of its `shape`, the names, and its handles. -/
theorem Members.eq_rename_of_shape {members members' : Members} (hshape : members'.shape = members.shape)
    (h : members'.map (·.2) = (members.map (·.2)).map f) : members' = members.rename f := by
  induction members generalizing members' with
  | nil => simpa using h
  | cons entry members ih =>
    cases members' with
    | nil => simp at h
    | cons entry' members' =>
      simp only [shape, rename_cons, List.cons.injEq, Prod.mk.injEq, and_true, List.map_cons] at hshape h
      rw [rename_cons, ← ih hshape.2 h.2, ← h.1, ← hshape.1]

/-- Member maps of one shape are of one length: `members'.length = members.length`. -/
theorem Members.length_of_shape {members members' : Members}
    (hshape : members'.shape = members.shape) : members'.length = members.length := by
  simpa [shape, rename] using congrArg List.length hshape

/-- An optional member map is made of its names and its handles:
`members' = members.map (Members.rename f)`. -/
theorem Members.eq_map_rename_of_shape {members members' : Option Members}
    (hshape : members'.map Members.shape = members.map Members.shape)
    (h : (members'.getD []).map (·.2) = ((members.getD []).map (·.2)).map f) :
    members' = members.map (Members.rename f) := by
  cases members <;> cases members' <;> simp at hshape h ⊢
  rename_i members members'
  exact eq_rename_of_shape hshape (by simpa using h)

/-- So are member maps that may be missing. -/
theorem Members.length_getD_of_shape {members members' : Option Members}
    (hshape : members'.map Members.shape = members.map Members.shape) :
    (members'.getD []).length = (members.getD []).length := by
  cases members <;> cases members' <;> simp at hshape ⊢
  exact length_of_shape hshape

/-- What a class refers to is made of its shape and its handles: `links' = links.map f`. -/
theorem ClassLinks.eq_map_of_shape {links links' : ClassLinks}
    (hshape : (links'.map fun _ => 0) = links.map fun _ => 0)
    (h : (Body.classType links').links = (Body.classType links).links.map f) :
    links' = links.map f := by
  obtain ⟨base, statics, members⟩ := links
  obtain ⟨base', statics', members'⟩ := links'
  simp only [ClassLinks.map, ClassLinks.mk.injEq] at hshape
  obtain ⟨hbase, hstatics, hmembers⟩ := hshape
  simp only [Body.links, List.map_append] at h
  have hlengths := Members.length_getD_of_shape hmembers
  obtain ⟨h, hlast⟩ := List.append_inj' h (by simpa using hlengths)
  have hlengths' := Members.length_getD_of_shape hstatics
  obtain ⟨hfirst, hmiddle⟩ := List.append_inj' h (by simpa using hlengths')
  have hbase' : base' = base.map f := by
    simpa using congrArg List.head? hfirst
  rw [ClassLinks.map, hbase', Members.eq_map_rename_of_shape hstatics hmiddle,
    Members.eq_map_rename_of_shape hmembers hlast]

/-- A body is made of its `shape` and of what it refers to, its `links`. -/
theorem Body.eq_map_of_shape {body body' : Body} (hshape : body'.shape = body.shape)
    (h : body'.links = body.links.map f) : body' = body.map f := by
  cases body with
  | functionPrototype instances | classPrototype instances =>
    cases body' <;> injection hshape
    simp only [links] at h
    rw [h, Body.map]
  | classType given | interfaceType given =>
    cases body' <;> injection hshape
    rename_i hlinks
    rw [Body.map, ClassLinks.eq_map_of_shape hlinks h]
  | _ =>
    cases body' <;> cases hshape
    rfl

/-- **An element is made of its `shape` and of what it refers to**, its `successors`. -/
theorem Element.eq_map_of_shape {e e' : Element} (hshape : e'.shape = e.shape)
    (h : e'.successors = e.successors.map f) : e' = e.map f := by
  obtain ⟨name, flags, members, body⟩ := e
  obtain ⟨name', flags', members', body'⟩ := e'
  simp only [shape, Element.map, Element.mk.injEq] at hshape
  obtain ⟨rfl, rfl, hmembers, hbody⟩ := hshape
  simp only [successors, memberItems, List.map_append] at h
  have hlengths := Members.length_getD_of_shape hmembers
  obtain ⟨hfirst, hsecond⟩ := List.append_inj h (by simpa using hlengths)
  rw [Element.map, Members.eq_map_rename_of_shape hmembers hfirst, Body.eq_map_of_shape hbody hsecond]

/-- A body of the same shape is sorted, if it refers to elements of the same kinds. -/
theorem Body.Sorted.of_shape {kind kind' : Handle → ElementKind} {body body' : Body}
    (h : body.Sorted kind) (hshape : body'.shape = body.shape)
    (hlinks : List.Forall₂ (fun a b => kind' b = kind a) body.links body'.links) :
    body'.Sorted kind' := by
  cases body with
  | functionPrototype instances | classPrototype instances =>
    cases body' <;> injection hshape
    intro i hi
    obtain ⟨a, ha, hkind⟩ := exists_of_mem_forall₂ hlinks.flip hi
    rw [show kind' i = kind a from hkind]
    exact h a ha
  | classType links | interfaceType links =>
    cases body' <;> injection hshape
    rename_i links' hclass
    intro b hb
    obtain ⟨base, statics, members⟩ := links
    obtain ⟨base', statics', members'⟩ := links'
    cases hb
    simp only [ClassLinks.map, ClassLinks.mk.injEq, Option.map_some] at hclass
    obtain ⟨a, rfl, -⟩ := Option.map_eq_some_iff.mp hclass.1.symm
    -- the base comes first among the links, so its counterpart is the first one, too
    cases hlinks with
    | cons hkind _ =>
      rw [hkind]
      exact h a rfl
  | _ =>
    cases body' <;> cases hshape
    trivial

/-- The members of an element of the same shape are as many:
`e'.memberItems.length = e.memberItems.length`. -/
theorem Element.length_memberItems_of_shape {e e' : Element} (hshape : e'.shape = e.shape) :
    e'.memberItems.length = e.memberItems.length :=
  Members.length_getD_of_shape (congrArg Element.members hshape)

/-! ## Spelling -/

namespace Store

/-- **A value spells a member map** whose handles are references to maps: it is nothing where there
is none, and otherwise a map from the names to those maps. -/
def SpellsMembers (store : Store) (v : Value) : Option Members → Prop
  | none => v = .null
  | some members => ∃ ref, v = .map ref ∧
      store.entries ref = members.map fun entry => (entry.1, Value.map entry.2)

/-- **Entries spell what a body refers to.** -/
def SpellsLinks (store : Store) (entries : Entries) : Body → Prop
  | .functionPrototype instances | .classPrototype instances => ∃ ref,
      entries.field "instances" = .list ref ∧ store.items ref = instances.map Value.map
  | .classType links | .interfaceType links =>
      entries.field "base" = Value.ofOption (links.base.map Value.map) ∧
      store.SpellsMembers (entries.field "static_members") links.staticMembers ∧
      store.SpellsMembers (entries.field "instance_members") links.instanceMembers
  | _ => True

/-- **Entries spell an element** whose handles are references to maps: its head is read from them,
and the members and links are spelled in their fields. -/
structure Spells (store : Store) (element : Element) (entries : Entries) : Prop where
  head (inherited : Option Value) : store.readHead entries inherited
    = .ok { name := element.name, flags := element.flags, body := element.body.bare }
  members : store.SpellsMembers (entries.field "members") element.members
  links : store.SpellsLinks entries element.body

/-! ### What is spelled -/

variable {store : Store} {entries : Entries}

/-- Different lists of maps are different values. -/
theorem map_value_map_injective {refs refs' : List Nat} (h : refs.map Value.map = refs'.map Value.map) :
    refs = refs' :=
  List.map_injective_iff.mpr (fun _ _ => Value.map.inj) h

/-- A value spells one member map only. -/
theorem SpellsMembers.unique {v : Value} {members members' : Option Members}
    (h : store.SpellsMembers v members) (h' : store.SpellsMembers v members') :
    members = members' := by
  cases members with
  | none =>
    obtain rfl : v = .null := h
    cases members' with
    | none => rfl
    | some members' =>
      obtain ⟨ref, hnull, -⟩ := h'
      cases hnull
  | some members =>
    obtain ⟨ref, rfl, hentries⟩ := h
    cases members' with
    | none => cases h'
    | some members' =>
      obtain ⟨_, href, hentries'⟩ := h'
      cases href
      refine congrArg some (List.map_injective_iff.mpr ?_ (hentries.symm.trans hentries'))
      rintro ⟨key, r⟩ ⟨key', r'⟩ hsame
      simpa using hsame

/-- Entries spell one body only, among those of a sort. -/
theorem SpellsLinks.unique {body body' : Body} (h : store.SpellsLinks entries body)
    (h' : store.SpellsLinks entries body') (hbare : body.bare = body'.bare) : body = body' := by
  -- the items of the list are the places, so the list tells the instances
  have hinstances {refs refs' : List Nat}
      (h : ∃ ref, entries.field "instances" = .list ref ∧ store.items ref = refs.map Value.map)
      (h' : ∃ ref, entries.field "instances" = .list ref ∧ store.items ref = refs'.map Value.map) :
      refs = refs' := by
    obtain ⟨ref, hfield, hitems⟩ := h
    obtain ⟨ref', hfield', hitems'⟩ := h'
    rw [hfield] at hfield'
    cases hfield'
    exact map_value_map_injective (hitems.symm.trans hitems')
  have hclass {links links' : ClassLinks} (h : store.SpellsLinks entries (.classType links))
      (h' : store.SpellsLinks entries (.classType links')) : links = links' := by
    obtain ⟨base, statics, members⟩ := links
    obtain ⟨base', statics', members'⟩ := links'
    obtain ⟨hbase, hstatics, hmembers⟩ := h
    obtain ⟨hbase', hstatics', hmembers'⟩ := h'
    have hsame : base = base' := by
      rw [hbase] at hbase'
      cases base <;> cases base' <;> simp_all [Value.ofOption]
    have hsameStatics : statics = statics' := hstatics.unique hstatics'
    have hsameMembers : members = members' := hmembers.unique hmembers'
    rw [hsame, hsameStatics, hsameMembers]
  cases body with
  | functionPrototype refs | classPrototype refs =>
    cases body' <;> cases hbare
    rw [hinstances h h']
  | classType links | interfaceType links =>
    cases body' <;> cases hbare
    rw [hclass h h']
  | _ =>
    cases body' <;> cases hbare
    rfl

/-- **Entries spell one element only**: `Spells` determines it. -/
theorem Spells.unique {element element' : Element} (h : store.Spells element entries)
    (h' : store.Spells element' entries) : element = element' := by
  have hhead := (h.head none).symm.trans (h'.head none)
  obtain ⟨name, flags, members, body⟩ := element
  obtain ⟨name', flags', members', body'⟩ := element'
  simp only [Except.ok.injEq, Element.mk.injEq, true_and] at hhead
  obtain ⟨rfl, rfl, hbare⟩ := hhead
  have hmembers : members = members' := h.members.unique h'.members
  have hbody : body = body' := h.links.unique h'.links hbare
  rw [hmembers, hbody]

end Store

end ModuleSurface
