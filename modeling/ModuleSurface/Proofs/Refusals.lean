import ModuleSurface.Proofs.Lines

/-! # Which elements are refused

Opening lines may fail for many reasons, but only enum values are refused as elements that cannot be
declared on their own. A failure that refuses an element therefore names an enum value. -/

namespace ModuleSurface

/-- A step that refuses an element. -/
def Refuses {α : Type} (x : Except RenderError α) : Prop :=
  ∃ kind name, x = .error (.unsupportedElement kind name)

namespace Refuses

variable {α β : Type}

/-- A result is no refusal. -/
theorem not_ok (a : α) : ¬ Refuses (.ok a : Except RenderError α) := by
  rintro ⟨_, _, h⟩
  cases h

/-- A step after a step refuses nothing when neither does. -/
theorem not_bind {x : Except RenderError α} {f : α → Except RenderError β} (h : ¬ Refuses x)
    (h' : ∀ a, ¬ Refuses (f a)) : ¬ Refuses (x >>= f) := by
  rintro ⟨kind, name, hfail⟩
  rcases bind_eq_error_iff.mp hfail with hfirst | ⟨a, _, hsecond⟩
  · exact h ⟨kind, name, hfirst⟩
  · exact h' a ⟨kind, name, hsecond⟩

/-- A step for every item refuses nothing when none of the steps does. -/
theorem not_mapM {f : α → Except RenderError β} (h : ∀ a, ¬ Refuses (f a)) (items : List α) :
    ¬ Refuses (items.mapM f) := by
  induction items with
  | nil => exact not_ok []
  | cons a items ih =>
    rw [List.mapM_cons]
    exact not_bind (h a) fun b => not_bind ih fun others => not_ok (b :: others)

/-- What is wrong with a payload is no refusal. -/
theorem not_payload (x : Except PayloadFault α) : ¬ Refuses (x.mapError RenderError.payload) := by
  rintro ⟨_, _, h⟩
  cases x <;> cases h

/-- What is wrong with a type is no refusal. -/
theorem not_spellType (dialect : Dialect) (is64Bit : Bool) (type : Option ValueType) :
    ¬ Refuses (dialect.spellType is64Bit type) := by
  rintro ⟨_, _, h⟩
  unfold Dialect.spellType at h
  grind

end Refuses

namespace Graph

open Refuses

variable {dialect : Dialect} {graph : Graph} {h : Handle}

/-- The `parameterWords` of a signature fail by spelling a type. -/
theorem not_refuses_parameterWords (dialect : Dialect) (is64Bit : Bool) (signature : Signature)
    (types : List (Option ValueType)) (place : Nat) :
    ¬ Refuses (parameterWords dialect is64Bit signature place types) := by
  induction types generalizing place with
  | nil => exact not_ok []
  | cons type types ih =>
    exact not_bind (not_spellType dialect is64Bit type) fun _ => not_bind (ih _) fun _ => not_ok _

/-- The payload of an enum value is not refused. -/
theorem not_refuses_enumValueText (body : Body) : ¬ Refuses (enumValueText body) := by
  unfold enumValueText
  split
  · exact not_payload _
  · rintro ⟨_, _, h⟩
    cases h

/-- The `valueWords` of an entry fail by its payload. -/
theorem not_refuses_valueWords (dialect : Dialect) (entry : Scalar × Handle) :
    ¬ Refuses (graph.valueWords dialect entry) := by
  unfold valueWords
  split
  · exact not_bind (not_refuses_enumValueText _) fun _ => not_ok _
  · exact not_ok _

/-- The payload of a constant is not refused. -/
theorem WebIdl.not_refuses_payloadWords (element : Element) (constant : Option Constant) :
    ¬ Refuses (WebIdl.payloadWords element constant) := by
  unfold WebIdl.payloadWords
  split
  · exact not_bind (not_payload _) fun _ => not_ok _
  · exact not_ok _

/-- **Only enum values are refused**: an `opening` of any other kind does not fail for its element.
-/
theorem not_refuses_opening (hkind : (graph.element h).kind ≠ .enumValue) :
    ¬ Refuses (graph.opening dialect h) := by
  cases dialect with
  | webidl =>
    rw [opening_webidl, WebIdl.opening]
    cases hbody : (graph.element h).body with
    | enumValue value => exact absurd (congrArg Body.kind hbody) hkind
    | global type constant =>
      exact not_bind (not_bind (not_spellType _ _ _) fun _ =>
        not_bind (WebIdl.not_refuses_payloadWords _ _) fun _ => not_ok _) fun _ => not_ok _
    | enumeration => exact not_bind (not_mapM (not_refuses_valueWords .webidl) _) fun _ => not_ok _
    | function signature =>
      exact not_bind (not_bind (not_spellType _ _ _) fun _ =>
        not_bind (not_refuses_parameterWords _ _ _ _ _) fun _ => not_ok _) fun _ => not_ok _
    | functionPrototype | classPrototype => rintro ⟨_, _, h⟩; cases h
    | _ => exact not_ok _
  | typescript =>
    rw [opening_typescript, TypeScript.opening]
    cases hbody : (graph.element h).body with
    | enumValue value => exact absurd (congrArg Body.kind hbody) hkind
    | global type constant =>
      exact not_bind (not_bind (not_spellType _ _ _) fun _ => not_ok _) fun _ => not_ok _
    | enumeration => exact not_bind (not_mapM (not_refuses_valueWords .typescript) _) fun _ => not_ok _
    | function signature =>
      exact not_bind (not_bind (not_refuses_parameterWords _ _ _ _ _) fun _ =>
        not_bind (not_spellType _ _ _) fun _ => not_ok _) fun _ => not_ok _
    | functionPrototype | classPrototype => rintro ⟨_, _, h⟩; cases h
    | _ => exact not_ok _

end Graph

end ModuleSurface
