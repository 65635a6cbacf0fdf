import Scriptlet.Proofs.Machine.Evaluation

/-!
# Hints: what an expected type does to an evaluation

Without a hint, a vector literal takes the type of its first item. A hint for another type makes it
refuse its items; a hint for its own type, or for no vector at all, makes no difference, and neither
does any hint for an expression that is no vector literal.
-/

namespace Scriptlet

/-- The expression is a vector literal, and the hint is for vectors of another type than `v`. -/
def Expr.Misled (e : Expr) (hint : Option Ty) (v : Value) : Prop :=
  (∃ elems span, e = .vec elems span) ∧ ∃ t, itemHint hint = some t ∧ v.type ≠ t.vecOf

/-- A hint for vectors is a hint for the items of a literal. -/
theorem itemHint_eq_some_iff {s t : Ty} : itemHint (some s) = some t ↔ s = t.vecOf := by
  obtain ⟨scalar, dims⟩ := s
  cases dims with
  | zero => exact ⟨nofun, fun h => Nat.noConfusion (congrArg Ty.dims h)⟩
  | succ n =>
    constructor
    · intro h
      rw [← Option.some.inj h]
      rfl
    · rintro h
      rw [h]
      rfl

theorem Expr.not_misled_own (e : Expr) (v : Value) : ¬ e.Misled (some v.type) v := by
  rintro ⟨-, t, ht, hne⟩
  exact hne (itemHint_eq_some_iff.1 ht)

theorem Expr.misled_vec_iff {elems : List Expr} {span : Span} {hint : Option Ty} {t u : Ty}
    {items : List Value} (hu : itemHint hint = some u) :
    Expr.Misled (.vec elems span) hint (.vec t items) ↔ u ≠ t := by
  constructor
  · rintro ⟨-, w, hw, hne⟩ rfl
    cases hu.symm.trans hw
    exact hne rfl
  · intro hne
    exact ⟨⟨elems, span, rfl⟩, u, hu, fun h => hne (congrArg Ty.elem h).symm⟩

namespace Exec

variable {b : Budget} {n : Nat} {m k : Machine}

/-- The evaluation stops since a value is of another type than a vector literal was to hold. -/
def RefusesItem {α : Type} (r : EStateM.Result Halt Machine α) : Prop :=
  ∃ want got span k, r = .error (.fault ⟨.wrongType want got, span⟩) k

theorem RefusesItem.bind {α β : Type} {x : Exec α} (h : RefusesItem (x m)) (f : α → Exec β) :
    RefusesItem ((x >>= f) m) := by
  obtain ⟨want, got, span, k, hx⟩ := h
  exact ⟨want, got, span, k, bind_eq_of_error hx⟩

theorem eval_of_not_vec {e : Expr} (h : ∀ elems span, e ≠ .vec elems span)
    (hint hint' : Option Ty) : eval b n hint e = eval b n hint' e := by
  cases n with
  | zero => rw [eval_zero, eval_zero]
  | succ n =>
    cases e with
    | vec elems span => exact absurd rfl (h elems span)
    | int | str | bool | ident | neg | binary | call | index => rw [eval, eval]

/-- Items that are held to a type are of this type. -/
theorem type_of_evalItems {t : Ty} {es : List Expr} {r : Option Ty × List Value}
    (h : evalItems b n (some t) es m = .ok r k) : r.1 = some t := by
  induction n generalizing es m r k with
  | zero => rw [evalItems_zero] at h; cases h
  | succ n ih =>
    cases es with
    | nil => rw [evalItems] at h; cases h; rfl
    | cons e rest =>
      rw [evalItems] at h
      obtain ⟨v, l, -, h⟩ := exists_of_bind_ok h
      by_cases hv : v.type ≠ t
      · rw [Option.getD_some, if_pos hv] at h
        cases h
      · rw [Option.getD_some, if_neg hv] at h
        obtain ⟨⟨t', items⟩, l', hrest, h⟩ := exists_of_bind_ok h
        cases h
        have ht' : t' = some t := ih hrest
        exact ht'

/-- What a hint does to the evaluation of `e` to `v`. -/
structure Hinted (hint : Option Ty) (e : Expr) (v : Value) (k : Machine)
    (r : EStateM.Result Halt Machine Value) : Prop where
  same : ¬ e.Misled hint v → r = .ok v k
  misled : e.Misled hint v → RefusesItem r

section Step

variable (ih : ∀ {e m v k}, eval b n none e m = .ok v k →
  ∀ hint, Hinted hint e v k (eval b n hint e m))
include ih

/-- Items of one type are given also if held to this type, and refused if held to another. -/
theorem evalItems_hinted {es : List Expr} {t : Ty} {items : List Value}
    (h : evalItems b (n + 1) none es m = .ok (some t, items) k) (u : Ty) :
    (u = t → evalItems b (n + 1) (some u) es m = .ok (some t, items) k) ∧
      (u ≠ t → RefusesItem (evalItems b (n + 1) (some u) es m)) := by
  cases es with
  | nil => rw [evalItems] at h; cases h
  | cons e rest =>
    rw [evalItems] at h ⊢
    obtain ⟨v, l, he, h⟩ := exists_of_bind_ok h
    rw [Option.getD_none, if_neg (fun hne => hne rfl)] at h
    -- The first item decides the type, so that the hint matters for this item alone.
    have ht : v.type = t := by
      obtain ⟨⟨t', items'⟩, o, hr, h⟩ := exists_of_bind_ok h
      cases h
      exact (Option.some.inj (type_of_evalItems hr)).symm
    have hfirst := ih he (some u)
    constructor
    · intro hu
      subst hu ht
      rw [bind_eq_of_ok (hfirst.same (e.not_misled_own v))]
      rw [Option.getD_some, if_neg (fun hne => hne rfl)]
      exact h
    · intro hu
      by_cases hmisled : e.Misled (some u) v
      · exact (hfirst.misled hmisled).bind _
      · rw [bind_eq_of_ok (hfirst.same hmisled)]
        rw [Option.getD_some, if_pos (fun hv => hu (hv.symm.trans ht))]
        exact ⟨u, v.type, e.span, l, rfl⟩

end Step

/-- A hint for vectors of another type makes a vector literal refuse its items; no hint makes any
other difference to what can be evaluated without one. -/
theorem eval_hinted {e : Expr} {v : Value} (h : eval b n none e m = .ok v k) (hint : Option Ty) :
    Hinted hint e v k (eval b n hint e m) := by
  -- The induction is on the fuel, two units of it for a literal within a literal.
  induction n using Nat.strongRecOn generalizing e m v k hint with
  | ind n ih =>
    by_cases hvec : ∃ elems span, e = .vec elems span
    · obtain ⟨elems, span, rfl⟩ := hvec
      match n, ih, h with
      | 0, _, h => rw [eval_zero] at h; cases h
      | 1, _, h => rw [eval, evalItems_zero] at h; cases h
      | n + 2, ih, h =>
        rw [eval] at h ⊢
        obtain ⟨⟨t, items⟩, l, hitems, h⟩ := exists_of_bind_ok h
        cases t with
        | none => cases h
        | some t =>
          cases h
          change evalItems b (n + 1) none elems m = .ok (some t, items) k at hitems
          cases hu : itemHint hint with
          | none =>
            refine ⟨fun _ => bind_eq_of_ok hitems, fun hmisled => ?_⟩
            obtain ⟨-, u, hsome, -⟩ := hmisled
            rw [hu] at hsome
            cases hsome
          | some u =>
            obtain ⟨hsame, hother⟩ := evalItems_hinted (fun h => ih n (by omega) h) hitems u
            have hmisled : Expr.Misled (.vec elems span) hint (.vec t items) ↔ u ≠ t :=
              Expr.misled_vec_iff hu
            constructor
            · intro hfits
              have hut : u = t := Decidable.of_not_not fun hne => hfits (hmisled.2 hne)
              exact bind_eq_of_ok (hsame hut)
            · intro hmis
              exact (hother (hmisled.1 hmis)).bind _
    · have hsame : ∀ elems span, e ≠ .vec elems span :=
        fun elems span he => hvec ⟨elems, span, he⟩
      refine ⟨fun _ => ?_, fun hmisled => absurd hmisled.1 hvec⟩
      rw [eval_of_not_vec hsame hint none]
      exact h

end Exec
end Scriptlet
