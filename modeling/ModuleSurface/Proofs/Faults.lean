import ModuleSurface.Proofs.Messages
import ModuleSurface.Proofs.ReaderCalls
import ModuleSurface.Proofs.Representation

/-! # What reading a document stops for

A document that is not read as a graph is at fault, and its fault is told in a sentence. There are two
ways around that. A payload may leave the range of its sort: an infinity where an integer is wanted,
or an integer beyond the largest double. And a sentence may have to show an integer that is too long
to be written. Nothing else stops the reading; above all it comes to an end on every document, whatever
its maps refer to, since each new map takes away one of the finitely many that are not known.

* **`Store.OutOfRange`** — a payload of a map leaves the range of its sort.
* **`Store.guards_readElement`** — what reading an element stops for is warranted.
* **`Graph.ofDocument_outcome`** — what comes of reading a document. -/

namespace ModuleSurface

/-! ## Causes -/

namespace Store

/-- **A payload of a map leaves the range of its sort**: the value of an enum value, or the value of
the constant of a global. -/
inductive OutOfRange (store : Store) (entries : Entries) (cause : NumberError) : Prop
  | enumValue {v : Value} (kind : entries.kind? = some .enumValue)
      (given : entries.field? "value" = some v) (number : v.toInt = .error cause)
  | constant {ref : Nat} {sort : ConstantKind} {v : Value} (kind : entries.kind? = some .global)
      (constant : entries.field "constant" = .map ref)
      (named : (((store.entries ref).field? "kind").getD (.text ConstantKind.integer.name)).text?.bind
        ConstantKind.ofName? = some sort)
      (given : (store.entries ref).field? "value" = some v) (number : readPayload sort v = .error cause)

/-- **A warranted cause**: a fault that is told, or a payload out of range of a map among some. -/
inductive Warrants (store : Store) (reached : Nat → Prop) : DecodeError → Prop
  | format {fault : FormatError} (told : store.Tells fault) : Warrants store reached (.format fault)
  | outOfRange {ref : Nat} {cause : NumberError} (hreached : reached ref)
      (overflow : cause.isOverflow = true) (payload : store.OutOfRange (store.entries ref) cause) :
      Warrants store reached (.outOfRange cause)

/-- **A step that stops for a warranted cause only.** -/
def Stops (store : Store) (reached : Nat → Prop) {α : Type} (x : Except DecodeError α) : Prop :=
  ∀ cause, x = .error cause → store.Warrants reached cause

namespace Stops

variable {store : Store} {reached : Nat → Prop} {α β : Type} {x : Except DecodeError α}
  {f : α → Except DecodeError β}

/-- A step that succeeds stops for no cause. -/
theorem ok (a : α) : store.Stops reached (Except.ok a) := by
  intro cause h
  cases h

/-- A fault that is told. -/
theorem refuse {fault : FormatError} (told : store.Tells fault) :
    store.Stops reached (refuse fault : Except DecodeError α) := by
  intro cause h
  cases h
  exact .format told

/-- A step after a step stops for the causes of both. -/
theorem bind (hx : store.Stops reached x) (hf : ∀ a, x = .ok a → store.Stops reached (f a)) :
    store.Stops reached (x >>= f) := by
  intro cause h
  rcases bind_eq_error_iff.mp h with h | ⟨a, ha, h⟩
  · exact hx cause h
  · exact hf a ha cause h

/-- A step for every item stops for the causes of each. -/
theorem mapM {f : α → Except DecodeError β} {items : List α}
    (h : ∀ a ∈ items, store.Stops reached (f a)) : store.Stops reached (items.mapM f) := by
  induction items with
  | nil => exact .ok []
  | cons a items ih =>
    rw [List.forall_mem_cons] at h
    rw [List.mapM_cons]
    exact h.1.bind fun b _ => (ih h.2).bind fun others _ => .ok _

end Stops

/-! ## Heads -/

section Heads

variable {store : Store} {reached : Nat → Prop}

/-- A fault that has a sentence is told. -/
theorem tells_of_message {fault : FormatError} {sentence : String}
    (h : fault.message? store = some sentence) : store.Tells fault := .inr (by rw [h]; rfl)

/-- Kinds of types stop for warranted causes only. -/
theorem stops_readTypeKind {v : Value} (hv : store.Tellable v) :
    store.Stops reached (readTypeKind v) := by
  unfold readTypeKind
  split
  · exact .ok _
  · exact .refuse (tells_of_display rfl hv)

/-- Types stop for warranted causes only. -/
theorem stops_readType {v : Value} (hv : store.Tellable v) :
    store.Stops reached (store.readType v) := by
  unfold readType
  split
  · exact .ok _
  · exact (stops_readTypeKind hv).bind fun _ _ => .ok _
  · exact (stops_readTypeKind (tellable_field _ _)).bind fun _ _ => .ok _
  · exact .refuse (tells_of_display rfl hv)

/-- Names of flags stop for warranted causes only. -/
theorem stops_readFlagNames {values : List Value} (h : ∀ v ∈ values, store.Tellable v)
    (flags : Flags) : store.Stops reached (readFlagNames values flags) := by
  induction values generalizing flags with
  | nil => exact .ok flags
  | cons v values ih =>
    rw [List.forall_mem_cons] at h
    rw [readFlagNames]
    split
    · exact ih h.2 _
    · exact .refuse (tells_of_display rfl h.1)

/-- Flags stop for warranted causes only, whatever value is given. -/
theorem stops_readFlags (v : Value) : store.Stops reached (store.readFlags v) := by
  unfold readFlags
  split
  · exact .ok _
  · exact stops_readFlagNames (fun v hv => tellable_item hv) _
  · exact .refuse (tells_of_message rfl)

/-- What is wrong with a parameter is a warranted cause. -/
theorem stops_parameter {α : Type} (x : Except ParameterError α) :
    store.Stops reached (parameter x) := by
  cases x with
  | ok a => exact .ok a
  | error cause => exact .refuse (tells_of_message rfl)

/-- A field of a parameter is one of a map. -/
theorem tellable_parameterField {p v : Value} {name : String}
    (h : parameter (store.parameterField name p) = .ok v) : store.Tellable v := by
  cases p with
  | map ref =>
    rw [parameterField] at h
    cases hfield : (store.entries ref).field? name with
    | none => rw [hfield] at h; cases h
    | some w =>
      rw [hfield] at h
      cases h
      exact tellable_field? hfield
  | scalar s => cases s <;> cases h
  | _ => cases h

/-- Signatures stop for warranted causes only, whatever value is given. -/
theorem stops_readSignature (v : Value) : store.Stops reached (store.readSignature v) := by
  unfold readSignature
  split
  · exact .ok _
  split
  · rename_i ref _
    have hrest (parameters : List Value) : store.Stops reached (do
        let types ← parameters.mapM fun p => do
          store.readType (← parameter (store.parameterField "type" p))
        let names ← parameters.mapM fun p => parameter (store.parameterField "name" p)
        let result ← store.readType (((store.entries ref).field? "return_type").getD (.text "void"))
        return (⟨types, names, result⟩ : Signature)) := by
      refine Stops.bind (.mapM fun p _ => (stops_parameter _).bind fun v hv =>
        stops_readType (tellable_parameterField hv)) fun types _ => ?_
      refine Stops.bind (.mapM fun p _ => stops_parameter _) fun names _ => ?_
      refine Stops.bind (stops_readType ?_) fun result _ => .ok _
      exact tellable_getD (fun _ => tellable_field?) (tellable_text "void")
    simp only
    split
    · exact (stops_parameter _).bind fun parameters _ => hrest parameters
    · exact hrest []
  · exact .refuse (tells_of_message rfl)

variable {ref : Nat} {name : Value}

/-- The payload of an enum value stops for warranted causes only, `readEnumValue` with the field
`"value"`. -/
theorem stops_readEnumValue (hreached : reached ref) (hkind : (store.entries ref).kind? = some .enumValue)
    (hname : store.Tellable name) :
    store.Stops reached (readEnumValue name ((store.entries ref).field? "value")) := by
  unfold readEnumValue
  cases hgiven : (store.entries ref).field? "value" with
  | none => exact .ok _
  | some v =>
    rw [Option.getD_some]
    cases hnumber : v.toInt with
    | ok n => exact .ok _
    | error cause =>
      simp only
      split
      · rename_i hoverflow
        rintro _ ⟨⟩
        exact .outOfRange hreached hoverflow (.enumValue hkind hgiven hnumber)
      · exact .refuse (tells_of_inSentence rfl hname)

/-- The constant of a global stops for warranted causes only, `readConstant` with the field
`"constant"`. -/
theorem stops_readConstant (hreached : reached ref) (hkind : (store.entries ref).kind? = some .global)
    (hname : store.Tellable name) :
    store.Stops reached (store.readConstant name ((store.entries ref).field "constant")) := by
  unfold readConstant
  split
  · exact .ok _
  cases hconstant : (store.entries ref).field "constant" with
  | map inner =>
    simp only
    cases hsort : (((store.entries inner).field? "kind").getD
        (.text ConstantKind.integer.name)).text?.bind ConstantKind.ofName? with
    | none =>
      exact .refuse (tells_of_display rfl (tellable_getD (fun _ => tellable_field?) (tellable_text _)))
    | some sort =>
      simp only
      cases hgiven : (store.entries inner).field? "value" with
      | none => exact .refuse (tells_of_inSentence rfl hname)
      | some v =>
        simp only
        cases hnumber : readPayload sort v with
        | ok value => exact .ok _
        | error cause =>
          simp only
          split
          · rename_i hoverflow
            rintro _ ⟨⟩
            exact .outOfRange hreached hoverflow
              (.constant hkind hconstant hsort hgiven hnumber)
          · exact .refuse (tells_of_inSentence rfl hname)
  | _ => exact .refuse (tells_of_inSentence rfl hname)

/-- Bodies stop for warranted causes only, of the kind that the entries name. -/
theorem stops_readBody (hreached : reached ref) {kind : ElementKind}
    (hkind : (store.entries ref).kind? = some kind) (hname : store.Tellable name) :
    store.Stops reached (store.readBody kind name (store.entries ref)) := by
  cases kind with
  | global =>
    refine (stops_readConstant hreached hkind hname).bind fun constant _ => ?_
    cases htype : (store.entries ref).field? "type" with
    | none => exact .refuse (tells_of_inSentence rfl hname)
    | some type => exact (stops_readType (tellable_field? htype)).bind fun _ _ => .ok _
  | enumValue => exact (stops_readEnumValue hreached hkind hname).bind fun _ _ => .ok _
  | function => exact (stops_readSignature _).bind fun _ _ => .ok _
  | _ => exact .ok _

/-- **Heads** stop for warranted causes only: `readHead` `Stops` at maps that are reached. -/
theorem stops_readHead (hreached : reached ref) {inherited : Option Value}
    (hinherited : store.Tellable (Value.ofOption inherited)) :
    store.Stops reached (store.readHead (store.entries ref) inherited) := by
  unfold readHead
  simp only
  split
  · exact .refuse (tells_of_display rfl (tellable_field _ _))
  · rename_i kind hkind
    split
    · exact .refuse (tells_of_message rfl)
    · have hname : store.Tellable
          (((store.entries ref).field? "name").getD (Value.ofOption inherited)) :=
        tellable_getD (fun _ => tellable_field?) hinherited
      exact (stops_readFlags _).bind fun flags _ =>
        (stops_readBody hreached hkind hname).bind fun body _ => .ok _

end Heads

/-! ## Reading -/

/-- The maps of the store that are not known. -/
def unknown (store : Store) (progress : Progress) : Finset Nat :=
  {ref ∈ Finset.range store.maps.size | progress.known.lookup ref = none}

/-- **What has been read leaves room**: fewer maps are unknown than some bound, and the names of all
elements can be told. -/
structure Ready (store : Store) (bound : Nat) (progress : Progress) : Prop where
  room : (store.unknown progress).card < bound
  names (h : Handle) : store.Tellable (progress.element h).name

/-- **A step of reading that stops for a warranted cause only**, and leaves room when it does not. -/
def Guards (store : Store) (reached : Nat → Prop) (bound : Nat) {α : Type} (x : Reading α) : Prop :=
  ∀ before, store.Ready bound before → (∀ a after, x before = .ok (a, after) → store.Ready bound after) ∧
    store.Stops reached (x before)

variable {store : Store} {reached : Nat → Prop} {bound : Nat}

namespace Guards

variable {α β : Type} {x : Reading α} {f : α → Reading β}

/-- A step that does nothing guards. -/
theorem pure (a : α) : store.Guards reached bound (Pure.pure a : Reading α) := by
  intro before hready
  refine ⟨fun b after h => ?_, .ok _⟩
  cases h
  exact hready

/-- A step that fails for a fault that is told guards. -/
theorem throw {fault : FormatError} (told : store.Tells fault) :
    store.Guards reached bound (MonadExcept.throw (.format fault) : Reading α) :=
  fun _ _ => ⟨fun _ _ h => (by cases h), .refuse told⟩

/-- A step after a step guards when both do. -/
theorem bind (hx : store.Guards reached bound x) (hf : ∀ a, store.Guards reached bound (f a)) :
    store.Guards reached bound (x >>= f) := by
  intro before hready
  obtain ⟨hafter, hstops⟩ := hx before hready
  constructor
  · intro b after hrun
    obtain ⟨a, middle, hrun, hrun'⟩ := readBind_eq_ok_iff.mp hrun
    exact (hf a middle (hafter a middle hrun)).1 b after hrun'
  · exact hstops.bind fun ⟨a, middle⟩ hrun => (hf a middle (hafter a middle hrun)).2

/-- Looking at an element, whose name can be told. -/
theorem element {h : Handle} {f : Element → Reading β}
    (hf : ∀ element, store.Tellable element.name → store.Guards reached bound (f element)) :
    store.Guards reached bound (Reading.element h >>= f) :=
  fun before hready => hf (before.element h) (hready.names h) before hready

end Guards

/-- **A reader of elements that guards**, on maps among some, with names that can be told. -/
def GuardsElements (store : Store) (reached : Nat → Prop) (bound : Nat) (reader : ElementReader) :
    Prop :=
  ∀ (v : Value) (inherited : Option Value), (∀ ref, v = .map ref → reached ref) →
    store.Tellable (Value.ofOption inherited) → store.Guards reached bound (reader v inherited)

/-- Steps of reading that guard make up a reading that does: `Guards` is `Congruent`. -/
theorem guards_congruent :
    Reading.Congruent store fun x _ => store.Guards reached bound x where
  pure a := .pure a
  throw told := .throw (tells_of_message told)
  bind hx hf := hx.bind hf
  checkSort sort h := Guards.element fun element hname => by
    split
    · exact .pure h
    · exact .throw (tells_of_inSentence rfl hname)

/-- A reader guards on calls of maps, where the names that they inherit can be told. -/
theorem GuardsElements.relatedOn {reader : ElementReader}
    (hreader : store.GuardsElements reached bound reader) {calls : List (Value × Option Value)}
    (hreached : ∀ r ∈ calledMaps calls, reached r)
    (hnames : ∀ call ∈ calls, store.Tellable (Value.ofOption call.2)) :
    Reading.RelatedOn (fun x _ => store.Guards reached bound x) reader reader calls :=
  fun call hcall => hreader call.1 call.2 (fun _ hr => hreached _ (mem_calledMaps hcall hr))
    (hnames call hcall)

/-- Members inherit their keys. -/
theorem tellable_memberCalls {v : Value} :
    ∀ call ∈ store.memberCalls v, store.Tellable (Value.ofOption call.2) := by
  intro call hcall
  cases v with
  | map ref =>
    obtain ⟨entry, hentry, rfl⟩ := List.mem_map.mp hcall
    exact tellable_key hentry
  | _ => cases hcall

/-- The instances of a prototype inherit its name, and a base none. -/
theorem tellable_linkCalls {name : Value} (hname : store.Tellable name) (entries : Entries)
    (kind : ElementKind) :
    ∀ call ∈ store.linkCalls name entries kind, store.Tellable (Value.ofOption call.2) := by
  have hinstances : ∀ call ∈ store.instanceCalls name (entries.field "instances"),
      store.Tellable (Value.ofOption call.2) := by
    intro call hcall
    unfold instanceCalls at hcall
    split at hcall
    · split at hcall
      · obtain ⟨item, -, rfl⟩ := List.mem_map.mp hcall
        exact hname
      · cases hcall
    · cases hcall
  have hbase : ∀ call ∈ baseCalls (entries.field "base"),
      store.Tellable (Value.ofOption call.2) := by
    intro call hcall
    unfold baseCalls at hcall
    split at hcall
    · cases hcall
    · obtain rfl := List.mem_singleton.mp hcall
      exact tellable_null
  cases kind with
  | functionPrototype | classPrototype => exact hinstances
  | classType | interfaceType =>
    exact List.forall_mem_append.mpr
      ⟨List.forall_mem_append.mpr ⟨hbase, tellable_memberCalls⟩, tellable_memberCalls⟩
  | _ => exact fun _ hcall => by cases hcall

/-! ### Elements -/

/-- What is left to know shrinks when a map of the store is allocated. -/
theorem Ready.allocated {before : Progress} {ref : Nat} {head : Element}
    (h : store.Ready (bound + 1) before) (hinside : ref < store.maps.size)
    (hfresh : before.known.lookup ref = none) (hname : store.Tellable head.name) :
    store.Ready bound (before.allocated ref head) := by
  constructor
  · have hshrinks : (store.unknown (before.allocated ref head)).card < (store.unknown before).card := by
      refine card_filter_lt (fun other hother => ?_) (Finset.mem_range.mpr hinside) hfresh ?_
      · exact (Progress.lookup_allocated_eq_none_iff.mp hother).2
      · exact fun hknown => (Progress.lookup_allocated_eq_none_iff.mp hknown).1 rfl
    exact hshrinks.trans_le (Nat.le_of_lt_succ h.room)
  · intro a
    rw [Progress.element_allocated]
    split
    · exact hname
    · exact h.names a

/-- An element may be put in place under its name. -/
theorem Ready.replaced {progress : Progress} {a : Handle} {element : Element}
    (h : store.Ready bound progress) (hname : store.Tellable element.name) :
    store.Ready bound (progress.replaced a element) := by
  refine ⟨h.room, fun b => ?_⟩
  by_cases hsize : a < progress.elements.size
  · rw [Progress.element_replaced hsize]
    split
    · exact hname
    · exact h.names b
  · rw [Progress.replaced, Array.setIfInBounds_eq_of_size_le (Nat.le_of_not_lt hsize)]
    exact h.names b

/-- A map with a head is a map of the store; beyond the store there are empty maps only. -/
theorem inside_of_readHead {ref : Nat} {inherited : Option Value} {head : Element}
    (h : store.readHead (store.entries ref) inherited = .ok head) : ref < store.maps.size := by
  by_contra hbeyond
  have hempty : store.entries ref = [] := by
    rw [entries, Array.getD_eq_getD_getElem?, Array.getElem?_eq_none (Nat.le_of_not_lt hbeyond)]
    rfl
  rw [hempty] at h
  cases h

section NewMap

variable {fuel ref : Nat} {head : Element}
  (ih : store.GuardsElements reached fuel (store.readElement fuel))
  (hrefers : ∀ r ∈ store.refersTo ref, reached r)
include ih hrefers

/-- The members of a new map are read with as many calls as are left, `fuel`. -/
theorem guards_members_of_new : store.Guards reached fuel
    (store.readMembers (store.readElement fuel) ((store.entries ref).field "members")) := by
  refine guards_congruent.readMembers (ih.relatedOn (fun r hr => hrefers r ?_) tellable_memberCalls)
  exact List.mem_append_left _ hr

/-- What a new map refers to from its body. -/
theorem guards_links_of_new {inherited : Option Value} (hname : store.Tellable head.name)
    (hread : store.readHead (store.entries ref) inherited = .ok head) : store.Guards reached fuel
      (store.readLinks (store.readElement fuel) head.name (store.entries ref) head.body) := by
  refine guards_congruent.readLinks
    (ih.relatedOn (fun r hr => hrefers r ?_) (tellable_linkCalls hname _ _))
  rw [Store.refersTo, kind_of_readHead hread]
  rw [calledMaps_linkCalls_name head.name .null] at hr
  exact List.mem_append_right _ hr

end NewMap

/-- **Reading an element** stops for a warranted cause only. Each new map takes away one of those
that are not known, so the reading never nests deeper than `fuel`. -/
theorem guards_readElement (hclosed : ∀ r, reached r → ∀ s ∈ store.refersTo r, reached s)
    (fuel : Nat) : store.GuardsElements reached fuel (store.readElement fuel) := by
  induction fuel with
  | zero => exact fun _ _ _ _ before hready => absurd hready.room (Nat.not_lt_zero _)
  | succ fuel ih =>
    intro v inherited hreached hinherited before hready
    cases v with
    | map ref =>
      cases hlookup : before.known.lookup ref with
      | some h =>
        rw [readElement_known hlookup]
        refine ⟨fun a after ha => ?_, .ok _⟩
        cases ha
        exact hready
      | none =>
        rw [readElement_new hlookup]
        have hrefers := hclosed ref (hreached ref rfl)
        have hnamed (head : Element) (hread : store.readHead (store.entries ref) inherited = .ok head) :
            store.Tellable head.name := by
          rw [name_of_readHead hread]
          exact tellable_getD (fun _ => tellable_field?) hinherited
        -- the head shrinks what is unknown, and the rest is read with less room
        have hstart {head : Element} (hread : store.readHead (store.entries ref) inherited = .ok head) :
            store.Ready fuel (before.allocated ref head) :=
          hready.allocated (inside_of_readHead hread) hlookup (hnamed head hread)
        have hmembers := guards_members_of_new ih hrefers
        have hbetween {head : Element} {members : Option Members} {after₁ : Progress}
            (hread : store.readHead (store.entries ref) inherited = .ok head)
            (hrun : store.readMembers (store.readElement fuel) ((store.entries ref).field "members")
              (before.allocated ref head) = .ok (members, after₁)) :
            store.Ready fuel (after₁.replaced before.elements.size { head with members }) :=
          ((hmembers _ (hstart hread)).1 members after₁ hrun).replaced (hnamed head hread)
        constructor
        · intro a after hrun
          obtain ⟨head, hread, hrun⟩ := bind_eq_ok_iff.mp hrun
          obtain ⟨⟨members, after₁⟩, hmembers_run, hrun⟩ := bind_eq_ok_iff.mp hrun
          obtain ⟨⟨body, after₂⟩, hlinks_run, hrun⟩ := bind_eq_ok_iff.mp hrun
          cases hrun
          have hlinks := guards_links_of_new ih hrefers (hnamed head hread) hread
          have hready₂ := (hlinks _ (hbetween hread hmembers_run)).1 body after₂ hlinks_run
          have hready₃ : store.Ready fuel
              (after₂.replaced before.elements.size { head with members, body }) :=
            hready₂.replaced (hnamed head hread)
          exact ⟨Nat.lt_succ_of_lt hready₃.room, hready₃.names⟩
        · refine (stops_readHead (hreached ref rfl) hinherited).bind fun head hread => ?_
          refine (hmembers _ (hstart hread)).2.bind fun read hmembers_run => ?_
          obtain ⟨members, after₁⟩ := read
          have hlinks := guards_links_of_new ih hrefers (hnamed head hread) hread
          exact (hlinks _ (hbetween hread hmembers_run)).2.bind fun _ _ => .ok _
    | _ => exact Guards.throw (tells_of_message rfl) before hready

end Store

/-! ## Documents -/

namespace Store

variable {store : Store}

/-- Exports stop for warranted causes only: `readExports` `Stops` at maps that are reached. -/
theorem stops_readExports {reached : Nat → Prop} {v : Value}
    (hclosed : ∀ r, reached r → ∀ s ∈ store.refersTo r, reached s)
    (hreached : ∀ r ∈ calledMaps (store.exportCalls v), reached r) :
    store.Stops reached (store.readExports v {}) := by
  have hready : store.Ready (store.maps.size + 1) {} := by
    refine ⟨Nat.lt_succ_of_le ?_, fun h => ?_⟩
    · exact (Finset.card_filter_le _ _).trans_eq (Finset.card_range _)
    · exact tellable_null
  have hnames : ∀ call ∈ store.exportCalls v, store.Tellable (Value.ofOption call.2) := by
    unfold exportCalls
    split
    · exact tellable_memberCalls
    · exact fun _ hcall => by cases hcall
  have hcalls := (guards_readElement hclosed (store.maps.size + 1)).relatedOn hreached hnames
  rw [readExports_eq_by]
  exact (guards_congruent.readExportsBy hcalls {} hready).2

/-- A map with a head holds no payload that is `OutOfRange`. -/
theorem not_outOfRange_of_readHead {entries : Entries} {inherited : Option Value} {head : Element}
    (h : store.readHead entries inherited = .ok head) (cause : NumberError) :
    ¬ store.OutOfRange entries cause := by
  have hkind := kind_of_readHead h
  have hbody := (readHead_eq_ok_iff.mp h).body
  rintro (⟨kind, given, number⟩ | ⟨kind, constant, named, given, number⟩)
  · rw [hkind, Option.some_inj] at kind
    rw [kind, readBody, given, readEnumValue, Option.getD_some, number] at hbody
    obtain ⟨value, hvalue, -⟩ := bind_eq_ok_iff.mp hbody
    simp only at hvalue
    split at hvalue <;> cases hvalue
  · rw [hkind, Option.some_inj] at kind
    rw [kind, readBody, constant] at hbody
    obtain ⟨value, hvalue, -⟩ := bind_eq_ok_iff.mp hbody
    unfold readConstant at hvalue
    simp only [Value.isNull, named, given, number] at hvalue
    split at hvalue
    · contradiction
    · split at hvalue <;> cases hvalue

end Store

namespace Document

/-- **The document reaches a payload out of range.** -/
def ReachesOutOfRange (document : Document) (cause : NumberError) : Prop :=
  ∃ ref, document.Reaches ref ∧ cause.isOverflow = true ∧
    document.store.OutOfRange (document.store.entries ref) cause

end Document

namespace Graph

/-- **What comes of reading a document**: a graph, or a fault that is told in a sentence, unless an
integer is too long for that, or a failure of arithmetic, for a payload out of range. A document that
reaches such a payload is no graph. -/
theorem ofDocument_outcome (document : Document) :
    (∃ graph, ofDocument document = .ok graph ∧ ∀ cause, ¬ document.ReachesOutOfRange cause) ∨
    (∃ fault, ofDocument document = .error (.format fault) ∧
      ((∃ message, fault.message? document.store = some message) ∨ document.store.TooLong)) ∨
    ∃ cause, ofDocument document = .error (.outOfRange cause) ∧ document.ReachesOutOfRange cause := by
  have hstops : document.store.Stops document.Reaches (ofDocument document) := by
    obtain ⟨store, root⟩ := document
    cases root with
    | map ref =>
      rw [ofDocument_map]
      refine Store.Stops.bind ?_ fun read _ => .ok _
      exact Store.stops_readExports (fun r hr s hs => .step hr hs) fun r hr => .root hr
    | _ => exact .refuse (Store.tells_of_message rfl)
  cases hread : ofDocument document with
  | ok graph =>
    refine .inl ⟨graph, rfl, fun cause ⟨ref, hreached, _, hpayload⟩ => ?_⟩
    obtain ⟨forest, hmade⟩ := exists_madeOf hread
    obtain ⟨visit, hvisit, rfl⟩ := hmade.exists_visit hreached
    exact Store.not_outOfRange_of_readHead (hmade.search.reads visit hvisit).head cause hpayload
  | error cause =>
    right
    cases hstops cause hread with
    | @format fault told =>
      refine .inl ⟨fault, rfl, ?_⟩
      rw [or_comm]
      exact told.imp_right Option.isSome_iff_exists.mp
    | @outOfRange ref cause hreached overflow payload =>
      exact .inr ⟨cause, rfl, ref, hreached, overflow, payload⟩

/-- The value of an enum value is an infinity. -/
example : ofDocument {
    store := { maps := #[
      [(.text "kind", .text "enum_value"), (.text "value", .float (.infinity false))],
      [(.text "E", .map 0)],
      [(.text "exports", .map 1)]] }
    root := .map 2 } = .error (.outOfRange .integerOfInfinity) := rfl

end Graph

end ModuleSurface
