import ModuleSurface.Proofs.Coverage
import ModuleSurface.Proofs.Offences
import ModuleSurface.Proofs.Stopping

/-! # What the dialects agree on

The dialects go on to the same members, except for those of globals. In a graph whose compiled
globals have no members they therefore declare the same elements in the same order, and since they
spell the same kinds, something stands against an element in both of them or in neither. TypeScript
marks the values of the enums as well.

* **`Graph.Agree`** — what the builds of the two dialects have in common.
* **`Graph.builds_agree`** — the builds of a graph that was read agree. -/

namespace ModuleSurface

/-- **The classes of failures** that a graph can be blamed for: an element that cannot be declared on
its own, and a type without a spelling. -/
inductive FailureClass
  | element | type
deriving DecidableEq

/-- The class of a failure; a failure that no graph is blamed for has none. -/
def RenderError.failureClass? : RenderError → Option FailureClass
  | .unsupportedElement .. => some .element
  | .referenceType _ | .unspelledKind .. => some .type
  | _ => none

namespace Graph

variable {graph : Graph} {dialect : Dialect} {h : Handle} {forest : Forest Handle}

/-! ## The same search -/

/-- A declared element is compiled, or an enum value. -/
theorem isCompiled_of_resolved {m a : Handle} (ha : a ∈ graph.resolved m) :
    (graph.element a).isCompiled = true ∨ graph.isEnumValue a = true := by
  unfold resolved at ha
  cases hbody : (graph.element m).body with
  | functionPrototype instances | classPrototype instances =>
    rw [hbody] at ha
    exact .inl (List.mem_filter.mp ha).2
  | enumValue value =>
    rw [hbody] at ha
    rw [List.mem_singleton.mp ha]
    exact .inr (by simp [isEnumValue, Element.kind, hbody, Body.kind])
  | _ =>
    simp only [hbody] at ha
    split at ha
    · rename_i hcompiled
      exact .inl (by rwa [List.mem_singleton.mp ha])
    · exact absurd ha List.not_mem_nil

/-- **No compiled global has members.** -/
def PlainGlobals (graph : Graph) : Prop :=
  ∀ h, (graph.element h).kind = .global → (graph.element h).isCompiled = true →
    (graph.element h).memberItems = []

/-- Where globals have no members, both dialects go on to the same elements:
`next .typescript h = next .webidl h`. -/
theorem PlainGlobals.next_eq (hg : graph.PlainGlobals)
    (ha : Reached (graph.next dialect) graph.roots h) :
    graph.next .typescript h = graph.next .webidl h := by
  obtain ⟨m, hm⟩ := exists_resolved_of_reached ha
  unfold next expanded
  cases hbody : (graph.element h).body with
  | global type constant =>
    have hkind : (graph.element h).kind = .global := congrArg Body.kind hbody
    have hcompiled := (isCompiled_of_resolved hm).resolve_right (by simp [isEnumValue, hkind])
    simp [hg h hkind hcompiled]
  | _ => rfl

/-- **The dialects search alike.** -/
theorem PlainGlobals.search (hg : graph.PlainGlobals)
    (hforest : DepthFirst (graph.next .webidl) [] graph.roots forest) :
    DepthFirst (graph.next .typescript) [] graph.roots forest :=
  hforest.congr fun _ ha => hg.next_eq ha

/-! ## The same failures -/

/-- What stands against the lines of an element is its `firstOffence?`. -/
theorem failure?_eq (hp : graph.Printable dialect h) (hsound : ∀ a, (graph.element a).body.Sound)
    (hdeclarable : graph.isEnumValue h = true ∨ (graph.element h).body.sort? ≠ none) :
    graph.failure? dialect h = graph.firstOffence? dialect (graph.items dialect h) := by
  have hsettles := settles_opening hp hsound hdeclarable
  unfold failure?
  cases hopening : graph.opening dialect h with
  | error cause =>
    rw [hopening] at hsettles
    cases hfirst : graph.firstOffence? dialect (graph.items dialect h) with
    | none => rw [hfirst] at hsettles; cases hsettles
    | some other => rw [hfirst] at hsettles; cases hsettles; rfl
  | ok opening =>
    rw [hopening] at hsettles
    cases hfirst : graph.firstOffence? dialect (graph.items dialect h) with
    | none => rfl
    | some cause => rw [hfirst] at hsettles; cases hsettles

/-- Both dialects write the same types, in their orders. -/
theorem mem_types_iff {type : Option ValueType} :
    type ∈ graph.types .typescript h ↔ type ∈ graph.types .webidl h := by
  unfold types
  cases (graph.element h).body <;> simp [or_comm]

/-- Both dialects have a spelling of a type, or neither has one. -/
theorem offence?_type_eq_none (type : Option ValueType) :
    graph.offence? .typescript (.type type) = none ↔ graph.offence? .webidl (.type type) = none := by
  simp only [offence?_type_eq_none_iff, Dialect.isSome_spelling?]

/-- What stands against a type is of the class of types: `cause.failureClass? = some .type`. -/
theorem failureClass?_type {type : Option ValueType} {cause : RenderError}
    (h : graph.offence? dialect (.type type) = some cause)
    (htype : ∃ t, type = some t ∧ t.spelling?.isSome = true) : cause.failureClass? = some .type := by
  have hblames := blames_of_offence? h fun other heq => by
    cases heq
    exact htype
  cases hblames <;> rfl

/-- **What stands against an element in both dialects**: nothing, or failures of one class. -/
inductive SameClass : Option RenderError → Option RenderError → Prop
  | none : SameClass none none
  | some {cause cause' : RenderError} (sort : FailureClass) (first : cause.failureClass? = some sort)
      (second : cause'.failureClass? = some sort) : SameClass (some cause) (some cause')

/-- Either something stands against both or nothing against either:
`cause? = Option.none ↔ cause?' = Option.none`. -/
theorem SameClass.eq_none_iff {cause? cause?' : Option RenderError} (h : SameClass cause? cause?') :
    cause? = Option.none ↔ cause?' = Option.none := by
  cases h <;> simp

/-- **The same stands against an element** in both dialects. -/
theorem sameClass_failure? (hp : ∀ dialect, graph.Printable dialect h)
    (hsound : ∀ a, (graph.element a).body.Sound)
    (hdeclarable : graph.isEnumValue h = true ∨ (graph.element h).body.sort? ≠ none) :
    SameClass (graph.failure? .webidl h) (graph.failure? .typescript h) := by
  rw [failure?_eq (hp .webidl) hsound hdeclarable, failure?_eq (hp .typescript) hsound hdeclarable]
  cases hvalue : graph.isEnumValue h with
  | true =>
    simp only [items, hvalue, if_true, firstOffence?_cons, offence?, Option.or]
    exact .some .element rfl rfl
  | false =>
    have hclass (dialect : Dialect) {cause : RenderError}
        (h : graph.firstOffence? dialect (graph.items dialect h) = Option.some cause) :
        cause.failureClass? = Option.some .type := by
      simp only [items, hvalue, Bool.false_eq_true, if_false, firstOffence?] at h
      obtain ⟨item, hitem, hoffence⟩ := List.exists_of_findSome?_eq_some h
      obtain ⟨type, htype, rfl⟩ := List.mem_map.mp hitem
      exact failureClass?_type hoffence ((hp dialect).types type htype)
    -- both dialects spell the same kinds, so they refuse the same types
    have hnone : graph.firstOffence? .typescript (graph.items .typescript h) = Option.none ↔
        graph.firstOffence? .webidl (graph.items .webidl h) = Option.none := by
      simp only [items, hvalue, Bool.false_eq_true, if_false, firstOffence?,
        List.findSome?_eq_none_iff, List.mem_map, forall_exists_index, and_imp,
        forall_apply_eq_imp_iff₂, mem_types_iff, offence?_type_eq_none]
    cases hwebidl : graph.firstOffence? .webidl (graph.items .webidl h) with
    | none => rw [hnone.mpr hwebidl]; exact .none
    | some cause =>
      cases htypescript : graph.firstOffence? .typescript (graph.items .typescript h) with
      | none => rw [hnone.mp htypescript] at hwebidl; cases hwebidl
      | some cause' => exact .some .type (hclass .webidl hwebidl) (hclass .typescript htypescript)

/-! ## Builds that succeed -/

/-- The enum values that an element lists, if it is an enum. -/
def valuesOf (graph : Graph) (h : Handle) : List Handle :=
  if (graph.element h).kind = .enumeration
    then (graph.enumValues (graph.element h).memberItems).map (·.2) else []

/-- The values of an enum are enum values: `graph.isEnumValue v = true`. -/
theorem isEnumValue_of_valuesOf {v : Handle} (hv : v ∈ graph.valuesOf h) :
    graph.isEnumValue v = true := by
  unfold valuesOf at hv
  split at hv
  · obtain ⟨entry, hentry, rfl⟩ := List.mem_map.mp hv
    exact (List.mem_filter.mp hentry).2
  · exact absurd hv List.not_mem_nil

/-- WebIDL marks the element that it declares, and nothing else:
`graph.markedBy .webidl h = [h]`. -/
@[simp] theorem markedBy_webidl (graph : Graph) (h : Handle) : graph.markedBy .webidl h = [h] := by
  simp [markedBy]

/-- TypeScript also marks the values of the element, `graph.valuesOf h`. -/
@[simp] theorem markedBy_typescript (graph : Graph) (h : Handle) :
    graph.markedBy .typescript h = h :: graph.valuesOf h := by
  simp [markedBy, valuesOf]

/-- What marking leaves marked is what was marked before and what `markIn` is given. -/
theorem mem_foldl_markIn {handles visited : List Handle} {a : Handle} :
    a ∈ handles.foldl markIn visited ↔ a ∈ visited ∨ a ∈ handles := by
  induction handles generalizing visited with
  | nil => simp
  | cons b handles ih =>
    rw [List.foldl_cons, ih, markIn]
    split
    · grind
    · simp [or_assoc]

/-- The last entry in the log of a build that succeeds is `built`, which counts the marked elements.
-/
theorem getLast?_log_of_build {text : String} {before after : BuildState}
    (hbuild : graph.build dialect before = .ok text after) : ∃ fragments,
    after.log.getLast? = some (.built dialect fragments after.visited.length) := by
  rw [build_eq, stateBind_apply] at hbuild
  cases hframe : graph.frame dialect { before with visited := [], text := {} } with
  | error cause middle => rw [hframe] at hbuild; cases hbuild
  | ok _ middle =>
    rw [hframe] at hbuild
    obtain ⟨last, hvisited, hlog, hfinish⟩ := finish_apply dialect middle
    simp only [hfinish] at hbuild
    cases htext : joined? middle.text.fragments.toList with
    | none => rw [htext] at hbuild; cases hbuild
    | some joined =>
      rw [htext] at hbuild
      cases hbuild
      exact ⟨_, by rw [hlog, hvisited, List.getLast?_concat]⟩

/-- **A build succeeds** where `failure?` finds nothing against what is reached. -/
theorem exists_built (hs : graph.WellSorted) (hsound : ∀ a, (graph.element a).body.Sound)
    (hp : ∀ a, Reached (graph.next dialect) graph.roots a → graph.Printable dialect a)
    (hforest : DepthFirst (graph.next dialect) [] graph.roots forest)
    (hgood : ∀ a ∈ forest.preorder, graph.failure? dialect a = none) (before : BuildState) :
    ∃ text after, graph.build dialect before = .ok text after ∧
      graph.declared after.visited = forest.preorder ∧
      after.visited = (graph.marks dialect forest).foldl markIn [] := by
  have hbuild := build_apply hs hforest before
  -- `settles_lines` says when the lines are there, `build_apply` what is made of them
  cases hlines : graph.lines dialect 1 forest with
  | error cause =>
    rw [lines_eq_error_iff, List.findSome?_eq_none_iff.mpr hgood] at hlines
    cases hlines
  | ok lines =>
    have hsettles := settles_lines hsound (fun a ha => hp a (hforest.reached ha))
      (fun a ha => (exists_resolved_of_reached (hforest.reached ha)).elim
        fun _ hm => hs.declarable hm) 1
    rw [hlines] at hsettles hbuild
    obtain ⟨after, hdeclared, hvisited, hbuild⟩ := hbuild
    cases hfirst : graph.firstOffence? dialect (forest.preorder.flatMap (graph.items dialect)) with
    | some cause => rw [hfirst] at hsettles; cases hsettles
    | none =>
      rw [hfirst] at hsettles
      cases hsettles with
      | ok htexts =>
        -- all fragments are texts, as everything that is reached can be printed
        obtain ⟨text, htext⟩ := Option.isSome_iff_exists.mp ((isSome_page dialect).mpr htexts)
        rw [htext] at hbuild
        exact ⟨text, after, hbuild, hdeclared, hvisited⟩

/-- **A build stops** where `failure?` finds something against what is reached. -/
theorem exists_stopped (hs : graph.WellSorted)
    (hforest : DepthFirst (graph.next dialect) [] graph.roots forest)
    (hbad : ¬ ∀ a ∈ forest.preorder, graph.failure? dialect a = none) (before : BuildState) :
    ∃ cause after, graph.build dialect before = .error cause after ∧
      graph.Stopped dialect [] forest.preorder cause after := by
  cases hlines : graph.lines dialect 1 forest with
  | ok lines => exact absurd (failure?_of_lines hlines) hbad
  | error cause => exact ⟨cause, build_stopped hs hforest hlines before⟩

/-! ## Agreement -/

/-- **What the builds of the two dialects have in common.** Either both succeed: WebIDL has marked
what the search finds, TypeScript the same in the same order and the values of the enums in between,
and the counts in the log differ by the number of these values. Or both fail at one element, before
which nothing stands against any, with failures of one class. -/
inductive Agree (graph : Graph) (forest : Forest Handle) :
    EStateM.Result RenderError BuildState String → EStateM.Result RenderError BuildState String →
      Prop
  | built {text text' : String} {after after' : BuildState} (fragments fragments' : Nat)
      (order : after.visited = forest.preorder)
      (order' : graph.declared after'.visited = after.visited)
      (values : ∀ v, v ∈ after'.visited ∧ graph.isEnumValue v = true ↔
        ∃ e ∈ after.visited, v ∈ graph.valuesOf e)
      (count : after'.visited.length
        = after.visited.length + (after.visited.flatMap graph.valuesOf).dedup.length)
      (log : after.log.getLast? = some (.built .webidl fragments after.visited.length))
      (log' : after'.log.getLast? = some (.built .typescript fragments' after'.visited.length)) :
      Agree graph forest (.ok text after) (.ok text' after')
  | stopped {cause cause' : RenderError} {after after' : BuildState} (before rest : List Handle)
      (h : Handle) (sort : FailureClass) (split : forest.preorder = before ++ h :: rest)
      (webidl : graph.StoppedAt .webidl [] before h cause after)
      (typescript : graph.StoppedAt .typescript [] before h cause' after')
      (first : cause.failureClass? = some sort) (second : cause'.failureClass? = some sort) :
      Agree graph forest (.error cause after) (.error cause' after')

/-- The enum values that TypeScript marks are those of the enums that it declares,
`graph.valuesOf e`. -/
theorem enumValue_marked_iff (hplain : ∀ a ∈ forest.preorder, graph.isEnumValue a = false)
    {v : Handle} :
    v ∈ (graph.marks .typescript forest).foldl markIn [] ∧ graph.isEnumValue v = true ↔
      ∃ e ∈ forest.preorder, v ∈ graph.valuesOf e := by
  rw [mem_foldl_markIn, marks]
  simp only [List.not_mem_nil, false_or, List.mem_flatMap, markedBy_typescript, List.mem_cons]
  constructor
  · rintro ⟨⟨e, he, rfl | hv⟩, hvalue⟩
    · rw [hplain v he] at hvalue
      cases hvalue
    · exact ⟨e, he, hv⟩
  · rintro ⟨e, he, hv⟩
    exact ⟨⟨e, he, .inr hv⟩, isEnumValue_of_valuesOf hv⟩

/-- Builds that succeed agree. -/
theorem agree_of_ok {text text' : String} {before before' after after' : BuildState}
    (hbuild : graph.build .webidl before = .ok text after)
    (hbuild' : graph.build .typescript before' = .ok text' after')
    (hdeclared : graph.declared after.visited = forest.preorder)
    (hdeclared' : graph.declared after'.visited = forest.preorder)
    (hvisited : after.visited = (graph.marks .webidl forest).foldl markIn [])
    (hvisited' : after'.visited = (graph.marks .typescript forest).foldl markIn []) :
    Agree graph forest (.ok text after) (.ok text' after') := by
  have hplain : ∀ a ∈ forest.preorder, graph.isEnumValue a = false := fun a ha => by
    rw [← hdeclared] at ha
    simpa using (List.mem_filter.mp ha).2
  have horder : after.visited = forest.preorder := by
    rw [← hdeclared, declared, List.filter_eq_self.mpr]
    intro a ha
    rw [hvisited, mem_foldl_markIn, marks] at ha
    simpa using hplain a (by simpa using ha)
  have hvalues : ∀ v, v ∈ after'.visited ∧ graph.isEnumValue v = true ↔
      ∃ e ∈ after.visited, v ∈ graph.valuesOf e := by
    intro v
    rw [hvisited', horder]
    exact enumValue_marked_iff hplain
  obtain ⟨fragments, hlog⟩ := getLast?_log_of_build hbuild
  obtain ⟨fragments', hlog'⟩ := getLast?_log_of_build hbuild'
  refine .built fragments fragments' horder (hdeclared'.trans horder.symm) hvalues ?_ hlog hlog'
  -- nothing is marked twice, so the marked values can be counted as a set
  have hnodup : after'.visited.Nodup := hvisited' ▸ nodup_foldl_markIn _ List.nodup_nil
  have hperm : (after'.visited.filter (graph.isEnumValue ·)).Perm
      (after.visited.flatMap graph.valuesOf).dedup := by
    refine (List.perm_ext_iff_of_nodup (hnodup.filter _) (List.nodup_dedup _)).mpr fun v => ?_
    rw [List.mem_filter, hvalues, List.mem_dedup, List.mem_flatMap]
  rw [← hperm.length_eq, horder, ← hdeclared', declared,
    List.length_eq_length_filter_add (graph.isEnumValue ·)]
  exact Nat.add_comm _ _

/-- A list is split in one way only before the first item of a sort. -/
theorem split_unique {α : Type} {good : α → Prop} {before before' rest rest' : List α} {a a' : α}
    (heq : before ++ a :: rest = before' ++ a' :: rest') (hbefore : ∀ b ∈ before, good b)
    (ha : ¬ good a) (hbefore' : ∀ b ∈ before', good b) (ha' : ¬ good a') :
    before = before' ∧ a = a' := by
  induction before generalizing before' with
  | nil =>
    cases before' with
    | nil => exact ⟨rfl, (List.cons.inj heq).1⟩
    | cons b before' =>
      obtain rfl := (List.cons.inj heq).1
      exact absurd (hbefore' _ List.mem_cons_self) ha
  | cons b before ih =>
    cases before' with
    | nil =>
      obtain rfl := (List.cons.inj heq).1
      exact absurd (hbefore _ List.mem_cons_self) ha'
    | cons b' before' =>
      obtain ⟨rfl, htail⟩ := List.cons.inj heq
      obtain ⟨rfl, rfl⟩ := ih htail (fun c hc => hbefore c (List.mem_cons_of_mem _ hc))
        fun c hc => hbefore' c (List.mem_cons_of_mem _ hc)
      exact ⟨rfl, rfl⟩

/-- Builds that fail agree: they stop at the first element that something stands against, and that is
the same one in both dialects. -/
theorem agree_of_error {cause cause' : RenderError} {after after' : BuildState}
    (hsame : ∀ a ∈ forest.preorder,
      SameClass (graph.failure? .webidl a) (graph.failure? .typescript a))
    (hstopped : graph.Stopped .webidl [] forest.preorder cause after)
    (hstopped' : graph.Stopped .typescript [] forest.preorder cause' after') :
    Agree graph forest (.error cause after) (.error cause' after') := by
  obtain ⟨first, h, rest, hsplit, hstopped⟩ := hstopped
  obtain ⟨first', h', rest', hsplit', hstopped'⟩ := hstopped'
  have hmem : ∀ a ∈ first', a ∈ forest.preorder := fun a ha => by simp [hsplit', ha]
  have hbad : ¬ graph.failure? .webidl h = none := by rw [hstopped.bad]; simp
  have hbad' : ¬ graph.failure? .webidl h' = none := fun hnone => by
    have := (hsame h' (by simp [hsplit'])).eq_none_iff.mp hnone
    rw [hstopped'.bad] at this
    cases this
  -- the same elements are refused, so both first ones split the order at one place
  obtain ⟨rfl, rfl⟩ := split_unique (hsplit.symm.trans hsplit') hstopped.good hbad
    (fun a ha => (hsame a (hmem a ha)).eq_none_iff.mpr (hstopped'.good a ha)) hbad'
  have hclass := hsame h (by simp [hsplit])
  rw [hstopped.bad, hstopped'.bad] at hclass
  cases hclass with
  | some sort hfirst hsecond =>
    exact .stopped first rest h sort hsplit hstopped hstopped' hfirst hsecond

/-- **The builds of a graph that was read agree**, as `Agree` has it, if what is reached in it can
be printed and its compiled globals have no members. -/
theorem builds_agree {document : Document} (hread : ofDocument document = .ok graph)
    (hp : ∀ dialect a, Reached (graph.next dialect) graph.roots a → graph.Printable dialect a)
    (hg : graph.PlainGlobals) (before before' : BuildState) :
    ∃ forest, DepthFirst (graph.next .webidl) [] graph.roots forest ∧
      DepthFirst (graph.next .typescript) [] graph.roots forest ∧
      Agree graph forest (graph.build .webidl before) (graph.build .typescript before') := by
  obtain ⟨hsound, -⟩ := sound_of_ofDocument hread
  have hs := hsound.wellSorted
  obtain ⟨forest, hforest⟩ := graph.exists_forest .webidl
  have hforest' := hg.search hforest
  refine ⟨forest, hforest, hforest', ?_⟩
  have hsame : ∀ a ∈ forest.preorder,
      SameClass (graph.failure? .webidl a) (graph.failure? .typescript a) := by
    intro a ha
    obtain ⟨m, hm⟩ := exists_resolved_of_reached (hforest.reached ha)
    refine sameClass_failure? (fun dialect => ?_) hsound.body (hs.declarable hm)
    cases dialect with
    | webidl => exact hp _ a (hforest.reached ha)
    | typescript => exact hp _ a (hforest'.reached ha)
  -- where nothing stands against the elements in one dialect, nothing does in the other
  by_cases hgood : ∀ a ∈ forest.preorder, graph.failure? .webidl a = none
  · have hgood' : ∀ a ∈ forest.preorder, graph.failure? .typescript a = none := fun a ha =>
      (hsame a ha).eq_none_iff.mp (hgood a ha)
    obtain ⟨text, after, hbuild, hdeclared, hvisited⟩ :=
      exists_built hs hsound.body (hp .webidl) hforest hgood before
    obtain ⟨text', after', hbuild', hdeclared', hvisited'⟩ :=
      exists_built hs hsound.body (hp .typescript) hforest' hgood' before'
    rw [hbuild, hbuild']
    exact agree_of_ok hbuild hbuild' hdeclared hdeclared' hvisited hvisited'
  · have hbad : ¬ ∀ a ∈ forest.preorder, graph.failure? .typescript a = none := fun hgood' =>
      hgood fun a ha => (hsame a ha).eq_none_iff.mpr (hgood' a ha)
    obtain ⟨cause, after, hbuild, hstopped⟩ := exists_stopped hs hforest hgood before
    obtain ⟨cause', after', hbuild', hstopped'⟩ := exists_stopped hs hforest' hbad before'
    rw [hbuild, hbuild']
    exact agree_of_error hsame hstopped hstopped'

/-- A document with an enum that is exported under two names. -/
def twiceDocument : Document where
  store := { lists := #[[.text "compiled"], [.text "inlined"]], maps := #[
    [(.text "kind", .text "enum_value"), (.text "flags", .list 1), (.text "value", .int 3)],
    [(.text "Red", .map 0)],
    [(.text "kind", .text "enum"), (.text "flags", .list 0), (.text "members", .map 1)],
    [(.text "Color", .map 2), (.text "Colour", .map 2)],
    [(.text "exports", .map 3)]] }
  root := .map 4

/-- The graph of the document. -/
def twiceGraph : Graph where
  store := twiceDocument.store
  elements := #[
    { name := .text "Color", flags := { compiled := true }, members := some [(.text "Red", 1)],
      body := .enumeration },
    { name := .text "Red", flags := { inlined := true }, body := .enumValue (.int 3) }]
  exports := [(.text "Color", 0), (.text "Colour", 0)]

/-- The texts and numbers of `twiceGraph` can be printed in either dialect. -/
theorem printable_twiceGraph (dialect : Dialect) : twiceGraph.Printable dialect 0 := by
  have htypes : twiceGraph.types dialect 0 = [] := rfl
  have hvalues : twiceGraph.enumValues (twiceGraph.element 0).memberItems = [(.text "Red", 1)] := rfl
  have hvalue : (twiceGraph.element 1).body = .enumValue (.int 3) := rfl
  refine ⟨fun _ => rfl, by simp [htypes], nofun, nofun, fun _ => ?_, fun _ => ?_, nofun⟩
  · simp [hvalues, Value.text?]
  · intro entry hentry _ hbody
    rw [hvalues, List.mem_singleton] at hentry
    subst hentry
    rw [hvalue] at hbody
    cases hbody
    exact (by decide : (toString (3 : Int).natAbs).length ≤ integerDigitLimit)

/-- Both builds mark the enum once, and TypeScript marks its value. -/
theorem builds_agree_twice :
    ofDocument twiceDocument = .ok twiceGraph ∧
      (∀ dialect a, Reached (twiceGraph.next dialect) twiceGraph.roots a →
        twiceGraph.Printable dialect a) ∧
      twiceGraph.PlainGlobals ∧
      ∃ forest, Agree twiceGraph forest (twiceGraph.build .webidl {})
        (twiceGraph.build .typescript {}) := by
  have hread : ofDocument twiceDocument = .ok twiceGraph := rfl
  have hp : ∀ dialect a, Reached (twiceGraph.next dialect) twiceGraph.roots a →
      twiceGraph.Printable dialect a := by
    intro dialect a ha
    have hzero : a = 0 := by
      refine ha.mem_of_closed (S := fun b => b = 0) (by decide) ?_
      rintro a rfl
      cases dialect <;> decide
    exact hzero ▸ printable_twiceGraph dialect
  have hg : twiceGraph.PlainGlobals := by
    intro h hkind _
    rcases h with _ | _ | h
    · cases hkind
    · cases hkind
    · rfl
  obtain ⟨forest, -, -, hagree⟩ := builds_agree hread hp hg {} {}
  exact ⟨hread, hp, hg, forest, hagree⟩

end Graph

end ModuleSurface
