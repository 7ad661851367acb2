import ModuleSurface.Proofs.WrittenOut

/-! # The same data in two stores

Two documents may hold the same data at different places. A relation between the values of two stores
says which values are the same data: related values are the same scalar, or are kept in the same way
and hold related values in one order. Values may contain themselves, so the relation is not built up
from scalars but given as a whole; and what contains itself on one side does so on the other one.

* **`Store.Corresponds`** — a relation between the values of two stores that keeps the data.
* **`Store.Corresponds.inSentence?_eq`** — the same data is told in the same words. -/

namespace ModuleSurface

/-! ## Scalars -/

/-- **Two scalars are alike**: they are the same, but for the place where a moment was written. -/
inductive Scalar.Alike : Scalar → Scalar → Prop
  | refl (s : Scalar) : Alike s s
  | moment (m : Moment) (place place' : Nat) : Alike (.moment m place) (.moment m place')

namespace Scalar.Alike

variable {s s' : Scalar}

/-- Scalars are alike in both directions. -/
theorem symm (h : s.Alike s') : s'.Alike s := by
  cases h with
  | refl => exact .refl _
  | moment m place place' => exact .moment m place' place

/-- Scalars that are alike count as true together: `s'.truthy = s.truthy`. -/
theorem truthy_eq (h : s.Alike s') : s'.truthy = s.truthy := by
  cases h <;> rfl

/-- Scalars that are alike are displayed alike: `s'.display? = s.display?`. -/
theorem display?_eq (h : s.Alike s') : s'.display? = s.display? := by
  cases h <;> rfl

/-- Scalars that are alike are converted to the same integer: `s'.toInt = s.toInt`. -/
theorem toInt_eq (h : s.Alike s') : s'.toInt = s.toInt := by
  cases h <;> rfl

/-- Scalars that are alike are converted to the same double: `s'.toDouble = s.toDouble`. -/
theorem toDouble_eq (h : s.Alike s') : s'.toDouble = s.toDouble := by
  cases h <;> rfl

/-- Scalars that are alike give the same text, or none:
`(Value.scalar s').text? = (Value.scalar s).text?`. -/
theorem text?_eq (h : s.Alike s') : (Value.scalar s').text? = (Value.scalar s).text? := by
  cases h <;> rfl

/-- What stands for nothing is like nothing else: `s' = .null ↔ s = .null`. -/
theorem null_iff (h : s.Alike s') : s' = .null ↔ s = .null := by
  cases h with
  | refl => exact Iff.rfl
  | moment => exact iff_of_false nofun nofun

end Scalar.Alike

namespace Store

/-! ## Shapes -/

section Relation

variable (store store' : Store) (same : Value → Value → Prop)

/-- **Two values have one shape**: they are scalars that are alike, or they are kept in the same way
and what they hold is related, in one order. -/
inductive OneShape : Value → Value → Prop
  | scalar {s s' : Scalar} (alike : s.Alike s') : OneShape (.scalar s) (.scalar s')
  | list {r r' : Nat} (items : List.Forall₂ same (store.items r) (store'.items r')) :
      OneShape (.list r) (.list r')
  | pair {r r' : Nat} (items : List.Forall₂ same (store.items r) (store'.items r')) :
      OneShape (.pair r) (.pair r')
  | map {r r' : Nat} (entries : List.Forall₂ (fun entry entry' : Scalar × Value =>
      entry.1.Alike entry'.1 ∧ same entry.2 entry'.2) (store.entries r) (store'.entries r')) :
      OneShape (.map r) (.map r')
  | set {r r' : Nat} (members : List.Forall₂ (fun entry entry' : Scalar × Value =>
      entry.1.Alike entry'.1) (store.entries r) (store'.entries r')) :
      OneShape (.set r) (.set r')

/-- The values that a value holds; a set holds scalars only. -/
def parts (store : Store) : Value → List Value
  | .list ref | .pair ref => store.items ref
  | .map ref => (store.entries ref).map (·.2)
  | _ => []

/-- **A value is inside another one**, at any depth. -/
inductive Inside (store : Store) : Value → Value → Prop
  | part {v w : Value} (held : v ∈ store.parts w) : Inside store v w
  | deeper {u v w : Value} (held : u ∈ store.parts v) (outside : Inside store v w) : Inside store u w

/-- **Two stores correspond** along a relation between their values, which relates scalars that are
alike and else values of one shape. Going inside comes back to a value on both sides or on none, and a
place holds a list or a pair and never both. -/
structure Corresponds : Prop where
  scalar {s s' : Scalar} : s.Alike s' → same (.scalar s) (.scalar s')
  shape {v v' : Value} : same v v' → OneShape store store' same v v'
  loops {v v' w w' : Value} : same v v' → same w w' → store.Inside v w → store'.Inside v' w' →
    (v = w ↔ v' = w')
  apart {r r' t t' : Nat} : same (.list r) (.list r') → same (.pair t) (.pair t') → r ≠ t ∧ r' ≠ t'

end Relation

variable {store store' : Store} {same : Value → Value → Prop} {v v' : Value}

namespace OneShape

/-- Values have one shape in both directions. -/
theorem symm (h : OneShape store store' same v v') : OneShape store' store (flip same) v' v := by
  cases h with
  | scalar alike => exact .scalar alike.symm
  | list items => exact .list items.flip
  | pair items => exact .pair items.flip
  | map entries =>
    refine .map (entries.flip.imp ?_)
    intro entry' entry hentry
    exact ⟨hentry.1.symm, hentry.2⟩
  | set members =>
    refine .set (members.flip.imp ?_)
    intro entry' entry hentry
    exact hentry.symm

/-- Related lists are empty together: `others.isEmpty = items.isEmpty`. -/
theorem isEmpty_eq {α β : Type} {R : α → β → Prop} {items : List α} {others : List β}
    (h : List.Forall₂ R items others) : others.isEmpty = items.isEmpty := by
  cases h <;> rfl

/-- Values of one shape count as true together: `store'.truthy v' = store.truthy v`. -/
theorem truthy_eq (h : OneShape store store' same v v') : store'.truthy v' = store.truthy v := by
  cases h with
  | scalar alike => exact alike.truthy_eq
  | list items => simp only [truthy, isEmpty_eq items]
  | pair items => simp only [truthy, isEmpty_eq items]
  | map entries => simp only [truthy, isEmpty_eq entries]
  | set members => simp only [truthy, isEmpty_eq members]

/-- Values of one shape give the same text, or none: `v'.text? = v.text?`. -/
theorem text?_eq (h : OneShape store store' same v v') : v'.text? = v.text? := by
  cases h with
  | scalar alike => exact alike.text?_eq
  | _ => rfl

/-- Values of one shape are converted to the same integer: `v'.toInt = v.toInt`. -/
theorem toInt_eq (h : OneShape store store' same v v') : v'.toInt = v.toInt := by
  cases h with
  | scalar alike => exact alike.toInt_eq
  | _ => rfl

/-- Values of one shape are converted to the same double: `v'.toDouble = v.toDouble`. -/
theorem toDouble_eq (h : OneShape store store' same v v') : v'.toDouble = v.toDouble := by
  cases h with
  | scalar alike => exact alike.toDouble_eq
  | _ => rfl

/-- Values of one shape are null together: `v' = .null ↔ v = .null`. -/
theorem null_iff (h : OneShape store store' same v v') : v' = .null ↔ v = .null := by
  cases h with
  | scalar alike =>
    rw [Value.scalar.injEq, Value.scalar.injEq]
    exact alike.null_iff
  | _ => exact iff_of_false nofun nofun

end OneShape

/-! ## Displays -/

/-- The place of a value: a pair is kept where a list is. -/
def held : Value → Value
  | .pair r => .list r
  | v => v

/-- Two values at one place are the same, or a list and a pair. -/
theorem held_eq_cases {v w : Value} (h : held w = held v) :
    w = v ∨ (∃ r, w = .list r ∧ v = .pair r) ∨ ∃ r, w = .pair r ∧ v = .list r := by
  cases w with
  | list r =>
    cases v with
    | pair t =>
      obtain rfl : r = t := Value.list.inj h
      exact .inr (.inl ⟨r, rfl, rfl⟩)
    | _ => exact .inl h
  | pair r =>
    cases v with
    | list t =>
      obtain rfl : r = t := Value.list.inj h
      exact .inr (.inr ⟨r, rfl, rfl⟩)
    | pair t =>
      obtain rfl : r = t := Value.list.inj h
      exact .inl rfl
    | _ => cases h
  | _ =>
    cases v with
    | pair t => cases h
    | _ => exact .inl h

/-- **A path of values** that contain each other: they are in the store, at different places. -/
structure OnPath (store : Store) (path : List Value) : Prop where
  nodup : (path.map held).Nodup
  inside : ∀ v ∈ path, held v ∈ store.containers

/-- No path is longer than what the store holds: `path.length ≤ store.size`. -/
theorem OnPath.length_le {path : List Value} (h : store.OnPath path) :
    path.length ≤ store.size := by
  have hsubset : (path.map held).toFinset ⊆ store.containers := by
    intro w hw
    obtain ⟨v, hv, rfl⟩ := List.mem_map.mp (List.mem_toFinset.mp hw)
    exact h.inside v hv
  calc path.length = (path.map held).toFinset.card := by
        rw [List.toFinset_card_of_nodup h.nodup, List.length_map]
    _ ≤ store.containers.card := Finset.card_le_card hsubset
    _ ≤ store.size := store.card_containers_le

/-- A value that holds something is in the store: `held v ∈ store.containers`. -/
theorem held_mem_containers {v w : Value} (h : w ∈ store.parts v) : held v ∈ store.containers := by
  have hlist {r : Nat} (hitem : w ∈ store.items r) : Value.list r ∈ store.containers := by
    have hlt : r < store.lists.size := by
      by_contra hge
      rw [items, Array.getD_eq_getD_getElem?, Array.getElem?_eq_none (Nat.le_of_not_lt hge)] at hitem
      exact List.not_mem_nil hitem
    simp [containers, hlt]
  cases v with
  | list r | pair r => exact hlist h
  | map r =>
    have hlt : r < store.maps.size := by
      by_contra hge
      rw [parts, entries, Array.getD_eq_getD_getElem?,
        Array.getElem?_eq_none (Nat.le_of_not_lt hge)] at h
      exact List.not_mem_nil h
    simp [containers, held, hlt]
  | _ => exact absurd h List.not_mem_nil

/-- Items that are related, with the lists that they are from. -/
theorem forall₂_and_mem {α β : Type} {R : α → β → Prop} {items : List α} {others : List β}
    (h : List.Forall₂ R items others) :
    List.Forall₂ (fun a b => R a b ∧ a ∈ items ∧ b ∈ others) items others := by
  refine List.forall₂_iff_zip.mpr ⟨h.length_eq, fun {a b} hmem => ?_⟩
  exact ⟨(List.forall₂_iff_zip.mp h).2 hmem, List.of_mem_zip hmem⟩

namespace Corresponds

/-- Stores correspond in both directions. -/
theorem symm (h : Corresponds store store' same) : Corresponds store' store (flip same) where
  scalar alike := h.scalar alike.symm
  shape hsame := (h.shape hsame).symm
  loops hsame hother hinside hinside' := (h.loops hsame hother hinside' hinside).symm
  apart hlist hpair := (h.apart hlist hpair).symm

/-- A value comes back to a path of values that it is inside of on both sides or on none. -/
theorem mem_iff (h : Corresponds store store' same) {path path' : List Value}
    (hpaths : List.Forall₂ same path path') (hsame : same v v')
    (hinside : ∀ w ∈ path, store.Inside v w) (hinside' : ∀ w ∈ path', store'.Inside v' w) :
    v' ∈ path' ↔ v ∈ path := by
  induction hpaths with
  | nil => exact iff_of_false List.not_mem_nil List.not_mem_nil
  | cons hfirst _ ih =>
    rw [List.forall_mem_cons] at hinside hinside'
    rw [List.mem_cons, List.mem_cons, ih hinside.2 hinside'.2,
      h.loops hsame hfirst hinside.1 hinside'.1]

/-- A value goes on a path that it is not on. -/
theorem onPath_cons (h : Corresponds store store' same) {path path' : List Value}
    (hpaths : List.Forall₂ same path path') (hpath : store.OnPath path) (hsame : same v v')
    (hnew : v ∉ path) (hinside : held v ∈ store.containers) : store.OnPath (v :: path) where
  nodup := by
    rw [List.map_cons, List.nodup_cons]
    refine ⟨?_, hpath.nodup⟩
    intro hmem
    obtain ⟨w, hw, hheld⟩ := List.mem_map.mp hmem
    obtain ⟨w', -, hother⟩ := exists_of_mem_forall₂ hpaths hw
    -- a place holds a list or a pair and never both, so the two values are the same
    rcases held_eq_cases hheld with rfl | ⟨r, rfl, rfl⟩ | ⟨r, rfl, rfl⟩
    · exact hnew hw
    · cases h.shape hother with
      | list =>
        cases h.shape hsame with
        | pair => exact (h.apart hother hsame).1 rfl
    · cases h.shape hother with
      | pair =>
        cases h.shape hsame with
        | list => exact (h.apart hsame hother).1 rfl
  inside := List.forall_mem_cons.mpr ⟨hinside, hpath.inside⟩

/-- **The same data is displayed alike** where both displays have depth enough left, `fuel` and
`fuel'`. -/
theorem displayWithin?_eq (h : Corresponds store store' same) {fuel fuel' : Nat}
    {path path' : List Value} (hpaths : List.Forall₂ same path path') (hpath : store.OnPath path)
    (hpath' : store'.OnPath path') (hfuel : store.size < fuel + path.length)
    (hfuel' : store'.size < fuel' + path'.length) (hsame : same v v')
    (hinside : ∀ w ∈ path, store.Inside v w) (hinside' : ∀ w ∈ path', store'.Inside v' w) :
    store'.displayWithin? fuel' path' v' = store.displayWithin? fuel path v := by
  induction fuel generalizing fuel' path path' v v' with
  | zero =>
    have hlength := hpath.length_le
    omega
  | succ fuel ih =>
    obtain _ | fuel' := fuel'
    · have hlength := hpath'.length_le
      omega
    have hmem := h.mem_iff hpaths hsame hinside hinside'
    -- inside a value that is not on the path yet, both paths get longer by it
    have hdeeper (hnew : v ∉ path) (w w' : Value) (hpart : same w w') (hw : w ∈ store.parts v)
        (hw' : w' ∈ store'.parts v') :
        store'.displayWithin? fuel' (v' :: path') w' = store.displayWithin? fuel (v :: path) w := by
      refine ih (.cons hsame hpaths)
        (h.onPath_cons hpaths hpath hsame hnew (held_mem_containers hw))
        (h.symm.onPath_cons hpaths.flip hpath' hsame (mt hmem.mp hnew) (held_mem_containers hw'))
        ?_ ?_ hpart ?_ ?_
      · rw [List.length_cons]
        omega
      · rw [List.length_cons]
        omega
      · exact List.forall_mem_cons.mpr ⟨.part hw, fun u hu => .deeper hw (hinside u hu)⟩
      · exact List.forall_mem_cons.mpr ⟨.part hw', fun u hu => .deeper hw' (hinside' u hu)⟩
    cases h.shape hsame with
    | scalar alike =>
      rw [displayWithin?, displayWithin?]
      exact alike.display?_eq
    | set members =>
      rw [displayWithin?, displayWithin?, mapM_congr_forall₂ members]
      intro entry entry' halike
      exact halike.display?_eq
    | list items | pair items =>
      rw [displayWithin?, displayWithin?]
      split
      · rename_i hold
        rw [if_pos (hmem.mp hold)]
      · rename_i hnew
        rw [if_neg (mt hmem.mpr hnew), mapM_congr_forall₂ (forall₂_and_mem items)]
        rintro w w' ⟨hpart, hw, hw'⟩
        exact hdeeper (mt hmem.mpr hnew) w w' hpart hw hw'
    | map entries =>
      rw [displayWithin?, displayWithin?]
      split
      · rename_i hold
        rw [if_pos (hmem.mp hold)]
      · rename_i hnew
        rw [if_neg (mt hmem.mpr hnew), mapM_congr_forall₂ (forall₂_and_mem entries)]
        rintro entry entry' ⟨⟨hkey, hvalue⟩, hentry, hentry'⟩
        rw [hkey.display?_eq, hdeeper (mt hmem.mpr hnew) _ _ hvalue (List.mem_map_of_mem hentry)
          (List.mem_map_of_mem hentry')]

/-- **The same data is told in the same words** by `inSentence?`. -/
theorem inSentence?_eq (h : Corresponds store store' same) (hsame : same v v') :
    store'.inSentence? v' = store.inSentence? v := by
  have hdisplay : store'.display? v' = store.display? v := by
    refine h.displayWithin?_eq .nil ?_ ?_ ?_ ?_ hsame ?_ ?_
    · exact ⟨List.nodup_nil, fun w hw => absurd hw List.not_mem_nil⟩
    · exact ⟨List.nodup_nil, fun w hw => absurd hw List.not_mem_nil⟩
    · rw [List.length_nil]
      omega
    · rw [List.length_nil]
      omega
    · exact fun w hw => absurd hw List.not_mem_nil
    · exact fun w hw => absurd hw List.not_mem_nil
  cases h.shape hsame with
  | scalar alike =>
    -- texts and moments are told as they are, without quotes
    cases alike with
    | refl =>
      rename_i s
      cases s with
      | text | moment => rfl
      | _ => exact hdisplay
    | moment => rfl
  | _ => exact hdisplay

end Corresponds

end Store

end ModuleSurface
