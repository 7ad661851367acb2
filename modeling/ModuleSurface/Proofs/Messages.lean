import ModuleSurface.Proofs.Demands

/-! # Which faults can be told

The sentence about a fault of a document shows values of it, and every value has a display but an
integer that is too long to be written. So a fault of a document without such an integer is told.

* **`Store.TooLong`** — a store holds an integer that is too long to be written.
* **`Store.display?_isSome`** — without one, every value of the document is displayed.
* **`Store.Tells`** — a fault has its sentence, or there is such an integer. -/

namespace ModuleSurface

/-- A result that is put into a form is there when the result is. -/
theorem isSome_bind_pure {α β : Type} {x : Option α} (f : α → β) (h : x.isSome = true) :
    (x >>= fun a => pure (f a)).isSome = true := by
  obtain ⟨a, rfl⟩ := Option.isSome_iff_exists.mp h
  rfl

/-- A value that is no integer too long to be written. -/
def Value.Short (v : Value) : Prop := ∀ n, v = .int n → Writable n

/-- Every scalar is displayed by `display?` but an integer that is too long. -/
theorem Scalar.display?_isSome {s : Scalar} (h : (Value.scalar s).Short) :
    s.display?.isSome = true := by
  cases s with
  | int n =>
    rw [display?, Numeral.intText?, if_neg (Nat.not_lt.mpr (h n rfl))]
    rfl
  | bool b => cases b <;> rfl
  | _ => rfl

namespace Store

/-- **A scalar is held** as an item of a list, or as a key or a value of a map. -/
inductive Contains (store : Store) (s : Scalar) : Prop
  | item {ref : Nat} (h : .scalar s ∈ store.items ref)
  | key {ref : Nat} {entry : Scalar × Value} (h : entry ∈ store.entries ref) (key : entry.1 = s)
  | value {ref : Nat} {entry : Scalar × Value} (h : entry ∈ store.entries ref)
      (value : entry.2 = .scalar s)

/-- **The store holds an integer that is too long** to be written. -/
def TooLong (store : Store) : Prop := ∃ n, store.Contains (.int n) ∧ ¬ Writable n

variable {store : Store}

/-- In a store without integers that are too long every value is short. -/
theorem short_of_contains (hshort : ¬ store.TooLong) {v : Value}
    (h : ∀ s, v = .scalar s → store.Contains s) : v.Short := by
  intro n hn
  by_contra hlong
  exact hshort ⟨n, h _ hn, hlong⟩

/-- **Every value of the document is displayed**, at any depth, if the store holds no integer that
is `TooLong`. -/
theorem displayWithin?_isSome (hshort : ¬ store.TooLong) (fuel : Nat) (path : List Value) {v : Value}
    (hv : v.Short) : (store.displayWithin? fuel path v).isSome = true := by
  have hkey {ref : Nat} {entry : Scalar × Value} (hentry : entry ∈ store.entries ref) :
      entry.1.display?.isSome = true := by
    refine Scalar.display?_isSome (short_of_contains hshort fun s hs => .key hentry ?_)
    exact Value.scalar.inj hs
  have hset (ref : Nat) :
      ((store.entries ref).mapM fun entry : Scalar × Value => entry.1.display?).isSome = true :=
    isSome_mapM_iff.mpr fun entry hentry => hkey hentry
  induction fuel generalizing path v with
  | zero =>
    cases v with
    | scalar s => exact Scalar.display?_isSome hv
    | set ref => exact isSome_bind_pure _ (hset ref)
    | _ => rfl
  | succ fuel ih =>
    have hitems (ref : Nat) (path : List Value) :
        ((store.items ref).mapM (store.displayWithin? fuel path)).isSome = true :=
      isSome_mapM_iff.mpr fun v hv => ih path (short_of_contains hshort fun s hs => .item (hs ▸ hv))
    cases v with
    | scalar s => exact Scalar.display?_isSome hv
    | set ref => exact isSome_bind_pure _ (hset ref)
    | list ref | pair ref =>
      rw [displayWithin?]
      split
      · rfl
      · exact isSome_bind_pure _ (hitems ref _)
    | map ref =>
      rw [displayWithin?]
      split
      · rfl
      · refine isSome_bind_pure _ (isSome_mapM_iff.mpr fun entry hentry => ?_)
        obtain ⟨key, hkey⟩ := Option.isSome_iff_exists.mp (hkey hentry)
        have hvalue := ih (.map ref :: path) (short_of_contains hshort fun s hs => .value hentry hs)
        simp only [hkey]
        exact isSome_bind_pure _ hvalue

/-! ## Values of the document -/

/-- **A value can be told** in a sentence, unless the store holds an integer that is too long. -/
def Tellable (store : Store) (v : Value) : Prop := store.TooLong ∨ (store.display? v).isSome = true

/-- A value can be told if the store contains it, where it is a scalar. -/
theorem tellable_of_contains {v : Value} (h : ∀ s, v = .scalar s → store.Contains s) :
    store.Tellable v := by
  by_cases hlong : store.TooLong
  · exact .inl hlong
  · exact .inr (displayWithin?_isSome hlong _ [] (short_of_contains hlong h))

/-- The items of a list of the store can be told. -/
theorem tellable_item {ref : Nat} {v : Value} (h : v ∈ store.items ref) : store.Tellable v :=
  tellable_of_contains fun _ hs => .item (hs ▸ h)

/-- The values of a map of the store can be told. -/
theorem tellable_value {ref : Nat} {entry : Scalar × Value} (h : entry ∈ store.entries ref) :
    store.Tellable entry.2 :=
  tellable_of_contains fun _ hs => .value h hs

/-- The keys of a map of the store can be told. -/
theorem tellable_key {ref : Nat} {entry : Scalar × Value} (h : entry ∈ store.entries ref) :
    store.Tellable (.scalar entry.1) :=
  tellable_of_contains fun _ hs => .key h (Value.scalar.inj hs)

/-- The null can be told. -/
theorem tellable_null : store.Tellable .null := .inr (by rw [display?_scalar]; rfl)

/-- A text can be told. -/
theorem tellable_text (s : String) : store.Tellable (.text s) :=
  .inr (by rw [display?_scalar]; rfl)

/-- A field of a map can be told. -/
theorem tellable_field? {ref : Nat} {name : String} {v : Value}
    (h : (store.entries ref).field? name = some v) : store.Tellable v := by
  obtain ⟨entry, hentry, rfl⟩ := Option.map_eq_some_iff.mp h
  exact tellable_value (List.mem_of_find?_eq_some hentry)

/-- A value that may be missing can be told if it can be told where it is there, and its replacement
as well. -/
theorem tellable_getD {v : Option Value} {w : Value} (h : ∀ u, v = some u → store.Tellable u)
    (h' : store.Tellable w) : store.Tellable (v.getD w) := by
  cases v with
  | none => exact h'
  | some v => exact h v rfl

/-- A field of a map can be told, also where it is missing. -/
theorem tellable_field (ref : Nat) (name : String) :
    store.Tellable ((store.entries ref).field name) := by
  rw [Entries.field]
  cases hfield : (store.entries ref).field? name with
  | none => exact tellable_null
  | some v => exact tellable_field? hfield

/-- **A fault is told** by its sentence, unless the store holds an integer that is too long. -/
def Tells (store : Store) (fault : FormatError) : Prop :=
  store.TooLong ∨ (fault.message? store).isSome = true

/-- A fault that shows a value by `display?` is told. -/
theorem tells_of_display {v : Value} {fault : FormatError} {sentence : String → String}
    (hfault : fault.message? store = (store.display? v).map sentence) (h : store.Tellable v) :
    store.Tells fault := by
  refine h.imp_right fun hshown => ?_
  rw [hfault, Option.isSome_map]
  exact hshown

/-- A fault that names a value in a sentence by `inSentence?` is told. -/
theorem tells_of_inSentence {v : Value} {fault : FormatError} {sentence : String → String}
    (hfault : fault.message? store = (store.inSentence? v).map sentence) (h : store.Tellable v) :
    store.Tells fault := by
  refine h.imp_right fun hshown => ?_
  rw [hfault, Option.isSome_map]
  unfold inSentence?
  split
  · rfl
  · rfl
  · exact hshown

end Store

end ModuleSurface
