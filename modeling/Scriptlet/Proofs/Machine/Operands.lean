import Scriptlet.Proofs.Machine.Hints

/-!
# Operands: what the binary operators take and what they refuse

An operator is for certain types of operands. On those it gives its result, unless there is none, as
for a quotient by zero; on all others the operands are mismatched. The left operand is evaluated
first, and the right one with a hint for its type. This hint makes itself felt in one place only: a
vector literal that is compared, or otherwise joined, with a vector of another type is refused as a
literal before the operator looks at it.
-/

namespace Scriptlet

namespace BinOp

/-- The types of operands that the operator is for. -/
def Admits : BinOp → Ty → Ty → Prop
  | .add, s, t => s = t ∧ (s = .int ∨ s = .str)
  | .sub, s, t | .mul, s, t | .div, s, t | .pow, s, t => s = .int ∧ t = .int
  | .eq, s, t | .ne, s, t | .gt, s, t | .lt, s, t | .ge, s, t | .le, s, t => s = t

/-- There is no result: a quotient by zero, or a power with a negative exponent. -/
def Undefined : BinOp → Value → Value → Prop
  | .div, _, b => b = .int 0
  | .pow, _, b => ∃ n, b = .int n ∧ n < 0
  | _, _, _ => False

/-- The orders of its operands for which a comparison is true. -/
def accepts? : BinOp → Option (Ordering → Bool)
  | .eq => some Ordering.isEq
  | .ne => some Ordering.isNe
  | .gt => some Ordering.isGT
  | .lt => some Ordering.isLT
  | .ge => some Ordering.isGE
  | .le => some Ordering.isLE
  | .add | .sub | .mul | .div | .pow => none

/-- The result of the operator on two values. -/
inductive Computes : BinOp → Value → Value → Value → Prop
  | addInt (x y : Int64) : Computes .add (.int x) (.int y) (.int (x + y))
  | addStr (x y : Bytes) : Computes .add (.str x) (.str y) (.str (x ++ y))
  | sub (x y : Int64) : Computes .sub (.int x) (.int y) (.int (x - y))
  | mul (x y : Int64) : Computes .mul (.int x) (.int y) (.int (x * y))
  | div (x : Int64) {y : Int64} (h : y ≠ 0) : Computes .div (.int x) (.int y) (.int (x / y))
  | pow (x : Int64) {y : Int64} (h : 0 ≤ y) :
    Computes .pow (.int x) (.int y) (.int (power x y.toInt.toNat))
  | compare {op : BinOp} {accepts : Ordering → Bool} {a b : Value} {o : Ordering}
    (hop : op.accepts? = some accepts) (ho : Value.order? a b = some o) :
    Computes op a b (.bool (accepts o))

/-- What the operator has to answer on two values. -/
structure Answers (op : BinOp) (a b : Value) (r : Except (Side × Fault) Value) : Prop where
  result : op.Admits a.type b.type → ¬ op.Undefined a b → ∃ v, op.Computes a b v ∧ r = .ok v
  undefined : op.Admits a.type b.type → op.Undefined a b →
    ∃ side fault, r = .error (side, fault) ∧ fault.code = .arithmetic
  mismatch : ¬ op.Admits a.type b.type →
    ∃ side fault, r = .error (side, fault) ∧ fault.code = .mismatchedTypes

theorem reject_eq (side : Side) (need : Need) (got : Value) :
    ∃ side' fault, reject side need got = .error (side', fault) ∧
      fault.code = .mismatchedTypes := ⟨side, _, rfl, rfl⟩

theorem answers_sum (a b : Value) : Answers .add a b (sum a b) := by
  have hundefined : ¬ Undefined .add a b := fun h => h
  constructor
  · rintro ⟨htype, hint | hstr⟩ -
    · obtain ⟨x, rfl⟩ := Value.type_eq_int_iff.1 hint
      obtain ⟨y, rfl⟩ := Value.type_eq_int_iff.1 (htype.symm.trans hint)
      exact ⟨_, .addInt x y, rfl⟩
    · obtain ⟨x, rfl⟩ := Value.type_eq_str_iff.1 hstr
      obtain ⟨y, rfl⟩ := Value.type_eq_str_iff.1 (htype.symm.trans hstr)
      exact ⟨_, .addStr x y, rfl⟩
  · exact fun _ h => absurd h hundefined
  · intro hadmits
    cases a with
    | int x =>
      cases b with
      | int y => exact absurd ⟨rfl, .inl rfl⟩ hadmits
      | str _ | bool _ | vec _ _ => exact reject_eq ..
    | str x =>
      cases b with
      | str y => exact absurd ⟨rfl, .inr rfl⟩ hadmits
      | int _ | bool _ | vec _ _ => exact reject_eq ..
    | bool _ | vec _ _ => exact reject_eq ..

/-- An operator on integers answers as it has to if it does on integers. -/
theorem answers_arithmetic {op : BinOp} {g : Int64 → Int64 → Except (Side × Fault) Int64}
    (hadmits : ∀ s t, op.Admits s t ↔ s = .int ∧ t = .int)
    (hresult : ∀ x y, ¬ op.Undefined (.int x) (.int y) →
      ∃ n, op.Computes (.int x) (.int y) (.int n) ∧ g x y = .ok n)
    (hundefined : ∀ x y, op.Undefined (.int x) (.int y) →
      ∃ side fault, g x y = .error (side, fault) ∧ fault.code = .arithmetic)
    (a b : Value) : Answers op a b (arithmetic g a b) := by
  constructor
  · intro h hdefined
    obtain ⟨ha, hb⟩ := (hadmits _ _).1 h
    obtain ⟨x, rfl⟩ := Value.type_eq_int_iff.1 ha
    obtain ⟨y, rfl⟩ := Value.type_eq_int_iff.1 hb
    obtain ⟨n, hn, hg⟩ := hresult x y hdefined
    exact ⟨.int n, hn, by simp only [arithmetic, hg]; rfl⟩
  · intro h hnone
    obtain ⟨ha, hb⟩ := (hadmits _ _).1 h
    obtain ⟨x, rfl⟩ := Value.type_eq_int_iff.1 ha
    obtain ⟨y, rfl⟩ := Value.type_eq_int_iff.1 hb
    obtain ⟨side, fault, hg, hcode⟩ := hundefined x y hnone
    exact ⟨side, fault, by simp only [arithmetic, hg]; rfl, hcode⟩
  · intro h
    cases a with
    | int x =>
      cases b with
      | int y => exact absurd ((hadmits _ _).2 ⟨rfl, rfl⟩) h
      | str _ | bool _ | vec _ _ => exact reject_eq ..
    | str _ | bool _ | vec _ _ => exact reject_eq ..

theorem answers_comparison {op : BinOp} {accepts : Ordering → Bool}
    (hop : op.accepts? = some accepts) (hadmits : ∀ s t, op.Admits s t ↔ s = t)
    (hdefined : ∀ a b, ¬ op.Undefined a b) (a b : Value) :
    Answers op a b (comparison accepts a b) := by
  have hsome := Value.order?_isSome_iff a b
  rw [← hadmits] at hsome
  unfold comparison
  cases ho : Value.order? a b with
  | some o =>
    rw [ho] at hsome
    have h : op.Admits a.type b.type := hsome.1 rfl
    exact ⟨fun _ _ => ⟨_, .compare hop ho, rfl⟩, fun _ h => absurd h (hdefined a b),
      fun hnot => absurd h hnot⟩
  | none =>
    rw [ho] at hsome
    have h : ¬ op.Admits a.type b.type := fun h => Bool.noConfusion (hsome.2 h)
    exact ⟨fun hadm => absurd hadm h, fun hadm => absurd hadm h, fun _ => reject_eq ..⟩

/-- An operator gives its result where there is one, and else tells a missing result from operands
that it is not for. -/
theorem answers_apply (op : BinOp) (a b : Value) : Answers op a b (op.apply a b) := by
  cases op with
  | add => exact answers_sum a b
  | sub =>
    exact answers_arithmetic (fun _ _ => Iff.rfl) (fun x y _ => ⟨_, .sub x y, rfl⟩)
      (fun _ _ h => h.elim) a b
  | mul =>
    exact answers_arithmetic (fun _ _ => Iff.rfl) (fun x y _ => ⟨_, .mul x y, rfl⟩)
      (fun _ _ h => h.elim) a b
  | div =>
    refine answers_arithmetic (fun _ _ => Iff.rfl) (fun x y hy => ?_) (fun x y hy => ?_) a b
    · have hzero : y ≠ 0 := fun h => hy (congrArg Value.int h)
      exact ⟨_, .div x hzero, if_neg hzero⟩
    · have hzero : y = 0 := Value.int.inj hy
      exact ⟨_, _, if_pos hzero, rfl⟩
  | pow =>
    refine answers_arithmetic (fun _ _ => Iff.rfl) (fun x y hy => ?_) (fun x y hy => ?_) a b
    · have hneg : ¬ y < 0 := fun h => hy ⟨y, rfl, h⟩
      exact ⟨_, .pow x (Int64.not_lt.1 hneg), if_neg hneg⟩
    · obtain ⟨n, hn, hneg⟩ := hy
      cases hn
      exact ⟨_, _, if_pos hneg, rfl⟩
  | eq | ne | gt | lt | ge | le =>
    refine answers_comparison rfl (fun _ _ => Iff.rfl) (fun _ _ h => ?_) a b
    exact h

end BinOp

namespace Exec

variable {b : Budget} {op : BinOp} {left right : Expr} {span : Span} {m k l : Machine}
  {hint : Option Ty} {u v : Value} {n : Nat}

/-- The two operands come first, the left one before the right. -/
theorem eval_binary_of_ok (hleft : eval b n none left m = .ok u k)
    (hright : eval b n (some u.type) right k = .ok v l) (op : BinOp) (hint : Option Ty)
    (span : Span) :
    eval b (n + 1) hint (.binary op left right span) m = operate op left right u v l := by
  rw [eval, bind_eq_of_ok hleft, bind_eq_of_ok hright]

/-- An operand that is at fault is pointed at. -/
theorem operate_of_error {side : Side} {fault : Fault}
    (h : op.apply u v = .error (side, fault)) (m : Machine) :
    ∃ span, operate op left right u v m = .error (.fault ⟨fault, span⟩) m := by
  unfold operate
  rw [h]
  cases side with
  | left => exact ⟨left.span, rfl⟩
  | right => exact ⟨right.span, rfl⟩

theorem operate_of_ok {w : Value} (h : op.apply u v = .ok w) (m : Machine) :
    operate op left right u v m = .ok w m := by
  unfold operate
  rw [h]
  rfl

end Exec

namespace Expr

variable {b : Budget} {op : BinOp} {left right : Expr} {span : Span} {m k l : Machine}
  {hint : Option Ty} {u v : Value}

/-- The expression ends with an error of the given key, on the given machine. -/
def FailsOn (b : Budget) (hint : Option Ty) (e : Expr) (m : Machine) (key : Bytes)
    (k : Machine) : Prop :=
  ∃ d : Diagnostic, d.code.key = key ∧ e.EndsIn b hint m (.error (.fault d) k)

/-- Both operands can be evaluated with one amount of fuel. -/
theorem EndsIn.exists_both (hl : left.EndsIn b none m (.ok u k))
    (hr : right.EndsIn b none k (.ok v l)) :
    ∃ n, Exec.eval b n none left m = .ok u k ∧ Exec.eval b n none right k = .ok v l := by
  obtain ⟨i, hi⟩ := hl.fuel
  obtain ⟨j, hj⟩ := hr.fuel
  exact ⟨max i j, hi _ (Nat.le_max_left ..), hj _ (Nat.le_max_right ..)⟩

/-- What the operator answers is what the expression ends with, unless the hint for the right
operand is misleading. -/
theorem EndsIn.binary (hl : left.EndsIn b none m (.ok u k)) (hr : right.EndsIn b none k (.ok v l))
    (hfits : ¬ right.Misled (some u.type) v) (op : BinOp) (hint : Option Ty) (span : Span) :
    (∀ w, op.apply u v = .ok w → EndsIn b hint (.binary op left right span) m (.ok w l)) ∧
      ∀ side fault, op.apply u v = .error (side, fault) →
        FailsOn b hint (.binary op left right span) m fault.code.key l := by
  obtain ⟨n, hleft, hright⟩ := hl.exists_both hr
  have hhinted := (Exec.eval_hinted hright (some u.type)).same hfits
  have hbinary := Exec.eval_binary_of_ok hleft hhinted op hint span
  constructor
  · intro w hw
    rw [Exec.operate_of_ok hw] at hbinary
    exact endsIn_of_eq hbinary rfl
  · intro side fault hfault
    obtain ⟨at_, hat⟩ := Exec.operate_of_error hfault l
    rw [hat] at hbinary
    exact ⟨⟨fault, at_⟩, rfl, endsIn_of_eq hbinary rfl⟩

/-- A misleading hint ends the evaluation of the right operand. -/
theorem EndsIn.binary_of_misled (hl : left.EndsIn b none m (.ok u k))
    (hr : right.EndsIn b none k (.ok v l)) (hmisled : right.Misled (some u.type) v) :
    ∃ l', FailsOn b hint (.binary op left right span) m (utf8 "E0011") l' := by
  obtain ⟨n, hleft, hright⟩ := hl.exists_both hr
  obtain ⟨want, got, at_, l', hrefused⟩ :=
    (Exec.eval_hinted hright (some u.type)).misled hmisled
  have hbinary : Exec.eval b (n + 1) hint (.binary op left right span) m =
      .error (.fault ⟨.wrongType want got, at_⟩) l' := by
    rw [Exec.eval, bind_eq_of_ok hleft, bind_eq_of_error hrefused]
  exact ⟨l', ⟨.wrongType want got, at_⟩, rfl, endsIn_of_eq hbinary rfl⟩

end Expr

/-- No operator is for vectors of two different types. -/
theorem BinOp.not_admits_of_misled {op : BinOp} {e : Expr} {u v : Value}
    (h : e.Misled (some u.type) v) : ¬ op.Admits u.type v.type := by
  obtain ⟨-, t, ht, hne⟩ := h
  rw [itemHint_eq_some_iff] at ht
  have hdiffer : u.type ≠ v.type := fun h => hne (h.symm.trans ht)
  have hvector : u.type ≠ .int := fun h => Nat.noConfusion (congrArg Ty.dims (ht.symm.trans h))
  cases op with
  | add => exact fun h => hdiffer h.1
  | sub | mul | div | pow => exact fun h => hvector h.1
  | eq | ne | gt | lt | ge | le => exact hdiffer

/-- An operator whose operands can be evaluated, the right one without a hint, gives its result for
operands of the types it is for; a quotient by zero or a negative exponent is E0007, and operands of
other types are E0002. Either way nothing but the operands was evaluated. The one exception is a
vector literal to the right of a vector of another type: it is refused as a literal, with E0011. -/
theorem operands_are_classified {b : Budget} {op : BinOp} {left right : Expr} {m k l : Machine}
    {u v : Value} (hleft : left.EndsIn b none m (.ok u k))
    (hright : right.EndsIn b none k (.ok v l)) (hint : Option Ty) (span : Span) :
    (¬ right.Misled (some u.type) v →
      (op.Admits u.type v.type → ¬ op.Undefined u v →
        ∃ w, op.Computes u v w ∧
          Expr.EndsIn b hint (.binary op left right span) m (.ok w l)) ∧
      (op.Admits u.type v.type → op.Undefined u v →
        Expr.FailsOn b hint (.binary op left right span) m (utf8 "E0007") l) ∧
      (¬ op.Admits u.type v.type →
        Expr.FailsOn b hint (.binary op left right span) m (utf8 "E0002") l)) ∧
    (right.Misled (some u.type) v →
      ¬ op.Admits u.type v.type ∧
        ∃ l', Expr.FailsOn b hint (.binary op left right span) m (utf8 "E0011") l') := by
  have hanswers := op.answers_apply u v
  refine ⟨fun hfits => ?_, fun hmisled =>
    ⟨BinOp.not_admits_of_misled hmisled, hleft.binary_of_misled hright hmisled⟩⟩
  obtain ⟨hok, herror⟩ := hleft.binary hright hfits op hint span
  refine ⟨fun hadmits hdefined => ?_, fun hadmits hundefined => ?_, fun hadmits => ?_⟩
  · obtain ⟨w, hw, happly⟩ := hanswers.result hadmits hdefined
    exact ⟨w, hw, hok w happly⟩
  · obtain ⟨side, fault, happly, hcode⟩ := hanswers.undefined hadmits hundefined
    have hfails := herror side fault happly
    rw [hcode] at hfails
    exact hfails
  · obtain ⟨side, fault, happly, hcode⟩ := hanswers.mismatch hadmits
    have hfails := herror side fault happly
    rw [hcode] at hfails
    exact hfails

theorem seven_by_zero_is_classified :
    Expr.FailsOn {} none (.binary .div (.int 7 .origin) (.int 0 .origin) .origin) {}
      (utf8 "E0007") {} := by
  have hleft : Expr.EndsIn {} none (.int 7 .origin) {} (.ok (.int 7) {}) :=
    Expr.endsIn_of_eq (rfl : Exec.eval {} 1 none (.int 7 .origin) {} = _) rfl
  have hright : Expr.EndsIn {} none (.int 0 .origin) {} (.ok (.int 0) {}) :=
    Expr.endsIn_of_eq (rfl : Exec.eval {} 1 none (.int 0 .origin) {} = _) rfl
  have hfits : ¬ Expr.Misled (.int 0 .origin) (some .int) (.int 0) :=
    Expr.not_misled_own _ (.int 0)
  exact ((operands_are_classified hleft hright none .origin).1 hfits).2.1 ⟨rfl, rfl⟩ rfl

/-- In `[1] == ["a"]` both operands can be evaluated and are of different types, but the error is
not the one for mismatched operands. -/
theorem unlike_literals_are_no_mismatch :
    ∃ (left right : Expr) (u v : Value),
      left.EndsIn {} none {} (.ok u {}) ∧ right.EndsIn {} none {} (.ok v {}) ∧
        ¬ BinOp.Admits .eq u.type v.type ∧
        ∀ l, ¬ Expr.FailsOn {} none (.binary .eq left right .origin) {} (utf8 "E0002") l := by
  have hleft : Expr.EndsIn {} none (.vec [.int 1 .origin] .origin) {}
      (.ok (.vec .int [.int 1]) {}) :=
    Expr.endsIn_of_eq (rfl : Exec.eval {} 9 none (.vec [.int 1 .origin] .origin) {} = _) rfl
  have hright : Expr.EndsIn {} none (.vec [.str [97] .origin] .origin) {}
      (.ok (.vec .str [.str [97]]) {}) :=
    Expr.endsIn_of_eq (rfl : Exec.eval {} 9 none (.vec [.str [97] .origin] .origin) {} = _) rfl
  have hdiffer : Ty.vecOf .int ≠ Ty.vecOf .str := by decide
  refine ⟨_, _, _, _, hleft, hright, fun h => absurd h hdiffer, ?_⟩
  rintro l ⟨d, hcode, hends⟩
  -- The right operand is refused as a literal, by its first item.
  have hrefused : Expr.EndsIn {} none (.binary .eq (.vec [.int 1 .origin] .origin)
      (.vec [.str [97] .origin] .origin) .origin) {}
      (.error (.fault ⟨.wrongType .int .str, .origin⟩) {}) :=
    Expr.endsIn_of_eq (rfl : Exec.eval {} 9 none _ {} = _) rfl
  cases hends.unique hrefused
  exact absurd hcode (by decide)

end Scriptlet
