import Mathlib.Data.List.Forall2
import ModuleSurface.Definitions.Build
import ModuleSurface.Schema.Decode

/-! # Steps that may fail

How the steps of a computation that may fail, with or without a state, are taken apart: a result
goes on to the next step, a failure ends the computation. -/

namespace ModuleSurface

variable {ε σ α β : Type}

/-- What goes on from a result gets it: `(Except.ok a >>= f) = f a`. -/
@[simp] theorem ok_bind (a : α) (f : α → Except ε β) : (Except.ok a >>= f) = f a := rfl

/-- Nothing goes on from a failure: `(Except.error cause >>= f) = .error cause`. -/
@[simp] theorem error_bind (cause : ε) (f : α → Except ε β) :
    (Except.error cause >>= f) = .error cause := rfl

/-- A result is put into a form: `(f <$> Except.ok a : Except ε β) = .ok (f a)`. -/
@[simp] theorem map_ok (f : α → β) (a : α) : (f <$> Except.ok a : Except ε β) = .ok (f a) := rfl

/-- A failure has no result to be put into a form:
`(f <$> Except.error cause : Except ε β) = .error cause`. -/
@[simp] theorem map_error (f : α → β) (cause : ε) :
    (f <$> Except.error cause : Except ε β) = .error cause := rfl

/-- A step that does nothing succeeds: `(pure a : Except ε α) = .ok a`. -/
theorem pure_eq_ok (a : α) : (pure a : Except ε α) = .ok a := rfl

/-- Two steps have a result when the first one has one that the second one goes on from. -/
theorem bind_eq_ok_iff {x : Except ε α} {f : α → Except ε β} {b : β} :
    (x >>= f) = .ok b ↔ ∃ a, x = .ok a ∧ f a = .ok b := by
  cases x with
  | ok a => simp
  | error cause => simp

/-- Two steps fail when the first one does, or the second one from the result of the first. -/
theorem bind_eq_error_iff {x : Except ε α} {f : α → Except ε β} {cause : ε} :
    (x >>= f) = .error cause ↔ x = .error cause ∨ ∃ a, x = .ok a ∧ f a = .error cause := by
  cases x with
  | ok a => simp
  | error other => simp

/-- A result that is put into a form. -/
theorem map_eq_ok_iff {f : α → β} {x : Except ε α} {b : β} :
    (f <$> x) = .ok b ↔ ∃ a, x = .ok a ∧ f a = b := by
  cases x with
  | ok a => simp
  | error cause => simp

/-- Another cause of a failure does not make a result: `x.mapError f = .ok a ↔ x = .ok a`. -/
theorem mapError_eq_ok_iff {ε' : Type} {f : ε → ε'} {x : Except ε α} {a : α} :
    x.mapError f = .ok a ↔ x = .ok a := by
  cases x <;> simp [Except.mapError]

/-- A step for every item gives a result for every item, `f a = .ok b` for each pair. -/
theorem forall₂_of_mapM {f : α → Except ε β} {items : List α} {results : List β}
    (h : items.mapM f = .ok results) : List.Forall₂ (fun a b => f a = .ok b) items results := by
  induction items generalizing results with
  | nil =>
    cases h
    exact .nil
  | cons a items ih =>
    rw [List.mapM_cons] at h
    obtain ⟨b, hb, h⟩ := bind_eq_ok_iff.mp h
    obtain ⟨others, hothers, h⟩ := bind_eq_ok_iff.mp h
    cases h
    exact .cons hb (ih hothers)

/-- A result for every item gives the results of all, `items.mapM f = .ok results`. -/
theorem mapM_of_forall₂ {f : α → Except ε β} {items : List α} {results : List β}
    (h : List.Forall₂ (fun a b => f a = .ok b) items results) : items.mapM f = .ok results := by
  induction h with
  | nil => rfl
  | cons hfirst _ ih =>
    rw [List.mapM_cons, hfirst, ok_bind, ih]
    rfl

/-- Items that are related have the same results: `others.mapM g = items.mapM f`. -/
theorem mapM_congr_forall₂ {m : Type → Type} [Monad m] [LawfulMonad m] {γ : Type}
    {R : α → β → Prop} {f : α → m γ} {g : β → m γ}
    {items : List α} {others : List β} (h : List.Forall₂ R items others)
    (heq : ∀ a b, R a b → g b = f a) : others.mapM g = items.mapM f := by
  induction h with
  | nil => rfl
  | cons hfirst _ ih => rw [List.mapM_cons, List.mapM_cons, heq _ _ hfirst, ih]

/-- What holds of each pair may be weakened with the first item at hand. -/
theorem forall₂_imp_of_mem {R S : α → β → Prop} {items : List α} {others : List β}
    (h : List.Forall₂ R items others) (himp : ∀ a ∈ items, ∀ b, R a b → S a b) :
    List.Forall₂ S items others := by
  induction h with
  | nil => exact .nil
  | cons hfirst _ ih =>
    exact .cons (himp _ List.mem_cons_self _ hfirst)
      (ih fun a ha => himp a (List.mem_cons_of_mem _ ha))

/-- What an item is related to. -/
theorem exists_of_mem_forall₂ {R : α → β → Prop} {items : List α} {others : List β}
    (h : List.Forall₂ R items others) {a : α} (ha : a ∈ items) : ∃ b ∈ others, R a b := by
  induction h with
  | nil => exact absurd ha List.not_mem_nil
  | cons hfirst _ ih =>
    rcases List.mem_cons.mp ha with rfl | ha
    · exact ⟨_, List.mem_cons_self, hfirst⟩
    · obtain ⟨b, hb, hrelated⟩ := ih ha
      exact ⟨b, List.mem_cons_of_mem _ hb, hrelated⟩

/-- Two lists whose items are related to the same things are equal, if the things tell the items
apart. -/
theorem eq_of_forall₂ {R : α → β → Prop} {items others : List α} {things : List β}
    (h : List.Forall₂ R items things) (h' : List.Forall₂ R others things)
    (heq : ∀ a ∈ items, ∀ a' ∈ others, ∀ b, R a b → R a' b → a = a') : items = others := by
  induction h generalizing others with
  | nil =>
    cases h'
    rfl
  | cons hfirst _ ih =>
    cases h' with
    | cons hfirst' hrest' =>
      rw [heq _ List.mem_cons_self _ List.mem_cons_self _ hfirst hfirst', ih hrest' fun a ha a' ha' =>
        heq a (List.mem_cons_of_mem _ ha) a' (List.mem_cons_of_mem _ ha')]

/-- Each result is the result of an item. -/
theorem exists_of_mem_mapM {f : α → Except ε β} {items : List α} {results : List β}
    (h : items.mapM f = .ok results) {b : β} (hb : b ∈ results) : ∃ a ∈ items, f a = .ok b := by
  have hpairs := forall₂_of_mapM h
  clear h
  induction hpairs with
  | nil => simp at hb
  | @cons a other items results hfirst _ ih =>
    rcases List.mem_cons.mp hb with rfl | hb
    · exact ⟨a, List.mem_cons_self, hfirst⟩
    · obtain ⟨c, hc, hresult⟩ := ih hb
      exact ⟨c, List.mem_cons_of_mem a hc, hresult⟩

/-- A partial function has its results on a list when it has one for every item: `mapM f` is there
when each `f a` is. -/
theorem isSome_mapM_iff {f : α → Option β} {items : List α} :
    (items.mapM f).isSome = true ↔ ∀ a ∈ items, (f a).isSome = true := by
  induction items with
  | nil => simp
  | cons a items ih =>
    rw [List.mapM_cons, List.forall_mem_cons, ← ih]
    cases f a with
    | none => simp
    | some b => cases items.mapM f <;> simp

/-- Two steps succeed together when each does, if the second one does not depend on the result of the
first. -/
theorem exists_bind_iff {x : Except ε α} {f : α → Except ε β} {valid : Prop}
    (h : ∀ a, x = .ok a → ((∃ b, f a = .ok b) ↔ valid)) :
    (∃ b, (x >>= f) = .ok b) ↔ (∃ a, x = .ok a) ∧ valid := by
  simp only [bind_eq_ok_iff]
  constructor
  · rintro ⟨b, a, hx, hf⟩
    exact ⟨⟨a, hx⟩, (h a hx).mp ⟨b, hf⟩⟩
  · rintro ⟨⟨a, hx⟩, hvalid⟩
    obtain ⟨b, hf⟩ := (h a hx).mpr hvalid
    exact ⟨b, a, hx, hf⟩

/-- A step for every item, where each fails for one cause or has the result of some thing: it fails for
this cause, or it has the results of such things. -/
theorem mapM_eq_error_or {γ : Type} {f : α → Except ε β} {cause : ε} {R : γ → α → Prop} {g : γ → β}
    {items : List α}
    (h : ∀ a ∈ items, f a = .error cause ∨ ∃ c, R c a ∧ f a = .ok (g c)) :
    items.mapM f = .error cause ∨
      ∃ things, List.Forall₂ R things items ∧ items.mapM f = .ok (things.map g) := by
  induction items with
  | nil => exact .inr ⟨[], .nil, rfl⟩
  | cons a items ih =>
    rw [List.forall_mem_cons] at h
    rw [List.mapM_cons]
    rcases h.1 with hfirst | ⟨c, hc, hfirst⟩
    · left
      rw [hfirst, error_bind]
    · rw [hfirst, ok_bind]
      rcases ih h.2 with hrest | ⟨things, hthings, hrest⟩
      · left
        rw [hrest, error_bind]
      · right
        refine ⟨c :: things, .cons hc hthings, ?_⟩
        rw [hrest]
        rfl

/-- A step for every item succeeds when the step for each item does. -/
theorem exists_mapM_iff {f : α → Except ε β} {items : List α} :
    (∃ results, items.mapM f = .ok results) ↔ ∀ a ∈ items, ∃ b, f a = .ok b := by
  induction items with
  | nil => simpa using ⟨[], rfl⟩
  | cons a items ih =>
    rw [List.mapM_cons, List.forall_mem_cons, ← ih]
    refine exists_bind_iff fun b _ => ?_
    refine (exists_bind_iff fun others _ => ?_).trans (and_iff_left trivial)
    exact iff_of_true ⟨_, rfl⟩ trivial

/-- Two options are related when both are missing, or both are there and related. -/
theorem rel_cases {R : α → β → Prop} {a : Option α} {b : Option β}
    (h : Option.Rel R a b) : (a = none ∧ b = none) ∨ ∃ x y, a = some x ∧ b = some y ∧ R x y := by
  cases h with
  | none => exact .inl ⟨rfl, rfl⟩
  | some h => exact .inr ⟨_, _, rfl, rfl, h⟩

/-- What follows a choice follows both of its sides. -/
theorem ite_bind {m : Type → Type} [Monad m] (c : Prop) [Decidable c] (x y : m α) (f : α → m β) :
    (if c then x else y) >>= f = if c then x >>= f else y >>= f := by
  split <;> rfl

/-- Two steps with a state. -/
theorem stateBind_apply (x : EStateM ε σ α) (f : α → EStateM ε σ β) (s : σ) :
    (x >>= f) s = match x s with
      | .ok a s' => f a s'
      | .error cause s' => .error cause s' := rfl

/-- What goes on from a result gets it, and the state behind it: `(x >>= f) s = f a s'`. -/
theorem stateBind_of_ok {x : EStateM ε σ α} {s s' : σ} {a : α} (h : x s = .ok a s')
    (f : α → EStateM ε σ β) : (x >>= f) s = f a s' := by
  rw [stateBind_apply, h]

/-- A step that needs no state, from a state. -/
theorem lift_apply (x : Except ε α) (s : σ) :
    (liftM x : StateT σ (Except ε) α) s = x >>= fun a => .ok (a, s) := rfl

/-- Two steps of a computation that goes on from what has been read:
`(x >>= f) s = x s >>= fun read => f read.1 read.2`. -/
theorem readBind_apply (x : StateT σ (Except ε) α) (f : α → StateT σ (Except ε) β) (s : σ) :
    (x >>= f) s = x s >>= fun read => f read.1 read.2 := rfl

/-- What goes on from a result gets it, and what has been read: `(x >>= f) s = f a s'`. -/
theorem readBind_of_ok {x : StateT σ (Except ε) α} {s s' : σ} {a : α} (h : x s = .ok (a, s'))
    (f : α → StateT σ (Except ε) β) : (x >>= f) s = f a s' := by
  rw [readBind_apply, h, ok_bind]

/-- Two steps that go on from what has been read have a result when both have one. -/
theorem readBind_eq_ok_iff {x : StateT σ (Except ε) α} {f : α → StateT σ (Except ε) β} {s s' : σ}
    {b : β} : (x >>= f) s = .ok (b, s') ↔ ∃ a t, x s = .ok (a, t) ∧ f a t = .ok (b, s') := by
  rw [readBind_apply, bind_eq_ok_iff]
  constructor
  · rintro ⟨⟨a, t⟩, hx, hf⟩
    exact ⟨a, t, hx, hf⟩
  · rintro ⟨a, t, hx, hf⟩
    exact ⟨(a, t), hx, hf⟩

end ModuleSurface
