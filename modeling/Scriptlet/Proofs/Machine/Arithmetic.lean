import Mathlib.Tactic.Ring
import Scriptlet.Proofs.Machine.Operands

/-!
# Arithmetic: integers are exact but for the words they are kept in

Sums, differences, products and powers wrap at 64 bits, at every step on the way. Since residues of
sums and products are sums and products of residues, what comes out in the end is the residue of
what the expression stands for among all integers. Quotients have no such law: they are those of the
two words, cut towards zero.
-/

namespace Scriptlet

/-! ## Powers -/

/-- Given a round for each binary digit of the exponent, the loop ends with the residue of the exact
product, though its squares are residues only. -/
theorem squareMultiply_ofInt {bits n : Nat} (h : n < 2 ^ bits) (acc base : Int) :
    squareMultiply bits (.ofInt acc) (.ofInt base) n = .ofInt (acc * base ^ n) := by
  induction bits generalizing n acc base with
  | zero =>
    have hn : n = 0 := by omega
    rw [squareMultiply, hn, pow_zero, mul_one]
  | succ bits ih =>
    rw [squareMultiply]
    by_cases hn : n = 0
    · rw [if_pos hn, hn, pow_zero, mul_one]
    · have hhalf : n / 2 < 2 ^ bits := by omega
      -- The other rounds work on the square of the base and on half of the exponent.
      rw [if_neg hn, ← Int64.ofInt_mul base base]
      by_cases hodd : n % 2 = 1
      · rw [if_pos hodd, ← Int64.ofInt_mul acc base, ih hhalf]
        have hsplit : base ^ n = base ^ (2 * (n / 2) + 1) := by congr 1; omega
        rw [hsplit]
        congr 1
        ring
      · rw [if_neg hodd, ih hhalf]
        have hsplit : base ^ n = base ^ (2 * (n / 2)) := by congr 1; omega
        rw [hsplit]
        congr 1
        ring

theorem power_ofInt (base : Int) (n : Int64) :
    power (.ofInt base) n.toInt.toNat = .ofInt (base ^ n.toInt.toNat) := by
  have hn : n.toInt.toNat < 2 ^ 64 := by
    have hlt := n.toInt_lt
    omega
  have hone : (1 : Int64) = .ofInt 1 := rfl
  rw [power, hone, squareMultiply_ofInt hn, one_mul]

/-! ## Expressions -/

/-- The expression is put together from integer literals and variables by negation, sums,
differences, products and powers with a literal exponent that is not negative; and if the variables
are the given integers, then it stands for the second argument. -/
inductive Expr.StandsFor (ints : Bytes → Int64) : Expr → Int → Prop
  | int (n : Int64) (span : Span) : StandsFor ints (.int n span) n.toInt
  | ident (name : Bytes) (span : Span) : StandsFor ints (.ident name span) (ints name).toInt
  | neg {e : Expr} {z : Int} (h : StandsFor ints e z) (span : Span) :
    StandsFor ints (.neg e span) (-z)
  | add {l r : Expr} {y z : Int} (hl : StandsFor ints l y) (hr : StandsFor ints r z) (span : Span) :
    StandsFor ints (.binary .add l r span) (y + z)
  | sub {l r : Expr} {y z : Int} (hl : StandsFor ints l y) (hr : StandsFor ints r z) (span : Span) :
    StandsFor ints (.binary .sub l r span) (y - z)
  | mul {l r : Expr} {y z : Int} (hl : StandsFor ints l y) (hr : StandsFor ints r z) (span : Span) :
    StandsFor ints (.binary .mul l r span) (y * z)
  | pow {e : Expr} {z : Int} (h : StandsFor ints e z) {n : Int64} (hn : 0 ≤ n) (at_ span : Span) :
    StandsFor ints (.binary .pow e (.int n at_) span) (z ^ n.toInt.toNat)

namespace BinOp

theorem apply_pow {n : Int64} (hn : 0 ≤ n) (base : Int64) :
    apply .pow (.int base) (.int n) = .ok (.int (power base n.toInt.toNat)) := by
  have hnot : ¬ n < 0 := Int64.not_lt.2 hn
  simp only [apply, arithmetic, exponential, if_neg hnot]
  rfl

theorem apply_div {y : Int64} (hy : y ≠ 0) (x : Int64) :
    apply .div (.int x) (.int y) = .ok (.int (x / y)) := by
  simp only [apply, arithmetic, quotient, if_neg hy]
  rfl

end BinOp

namespace Expr

variable {b : Budget} {m k l : Machine} {left right : Expr} {x y z : Int64}

theorem endsIn_int (b : Budget) (hint : Option Ty) (n : Int64) (span : Span) (m : Machine) :
    EndsIn b hint (.int n span) m (.ok (.int n) m) :=
  endsIn_of_eq (rfl : Exec.eval b 1 hint (.int n span) m = _) rfl

theorem endsIn_ident {name : Bytes} {v : Value} (h : (m.slot? name).map Slot.value = some v)
    (b : Budget) (hint : Option Ty) (span : Span) :
    EndsIn b hint (.ident name span) m (.ok v m) := by
  obtain ⟨slot, hslot, rfl⟩ := Option.map_eq_some_iff.1 h
  have heval : Exec.eval b 1 hint (.ident name span) m = .ok slot.value m := by
    rw [Exec.eval, bind_eq_of_ok (rfl : (get : Exec Machine) m = .ok m m), hslot]
    rfl
  exact endsIn_of_eq heval rfl

theorem EndsIn.neg {e : Expr} (h : e.EndsIn b none m (.ok (.int x) k)) (hint : Option Ty)
    (span : Span) : EndsIn b hint (.neg e span) m (.ok (.int (-x)) k) := by
  obtain ⟨n, hn⟩ := h.fuel
  have heval : Exec.eval b (n + 1) hint (.neg e span) m = .ok (.int (-x)) k := by
    rw [Exec.eval, bind_eq_of_ok (hn n (Nat.le_refl n))]
    rfl
  exact endsIn_of_eq heval rfl

/-- On integers there is nothing for a hint to mislead. -/
theorem EndsIn.binary_ints (hl : left.EndsIn b none m (.ok (.int x) k))
    (hr : right.EndsIn b none k (.ok (.int y) l)) {op : BinOp}
    (hop : op.apply (.int x) (.int y) = .ok (.int z)) (hint : Option Ty) (span : Span) :
    EndsIn b hint (.binary op left right span) m (.ok (.int z) l) := by
  have hfits : ¬ right.Misled (some .int) (.int y) := right.not_misled_own (.int y)
  exact (hl.binary hr hfits op hint span).1 (.int z) hop

/-- The value is the residue of what the expression stands for. -/
theorem StandsFor.endsIn {ints : Bytes → Int64} {e : Expr} {z : Int} (h : e.StandsFor ints z)
    (hm : ∀ name ∈ e.names, (m.slot? name).map Slot.value = some (.int (ints name)))
    (b : Budget) (hint : Option Ty) : e.EndsIn b hint m (.ok (.int (.ofInt z)) m) := by
  induction h generalizing hint with
  | int n span =>
    rw [Int64.ofInt_toInt]
    exact endsIn_int b hint n span m
  | ident name span =>
    rw [Int64.ofInt_toInt]
    exact endsIn_ident (hm name (by simp [names])) b hint span
  | neg _ span ih =>
    rw [← Int64.neg_ofInt]
    exact (ih (fun name h => hm name (by simp [names, h])) none).neg hint span
  | add _ _ span ihl ihr =>
    rw [Int64.ofInt_add]
    have hl := ihl (fun name h => hm name (by simp [names, h])) none
    have hr := ihr (fun name h => hm name (by simp [names, h])) none
    exact hl.binary_ints hr rfl hint span
  | sub _ _ span ihl ihr =>
    rw [Int64.ofInt_sub]
    have hl := ihl (fun name h => hm name (by simp [names, h])) none
    have hr := ihr (fun name h => hm name (by simp [names, h])) none
    exact hl.binary_ints hr rfl hint span
  | mul _ _ span ihl ihr =>
    rw [Int64.ofInt_mul]
    have hl := ihl (fun name h => hm name (by simp [names, h])) none
    have hr := ihr (fun name h => hm name (by simp [names, h])) none
    exact hl.binary_ints hr rfl hint span
  | @pow e z _ n hn at_ span ih =>
    have hl := ih (fun name h => hm name (by simp [names, h])) none
    have hpower := BinOp.apply_pow hn (.ofInt z)
    rw [power_ofInt] at hpower
    exact hl.binary_ints (endsIn_int b none n at_ m) hpower hint span

end Expr

/-! ## Quotients -/

/-- The quotient of two words is cut towards zero, but for the one that has no place in a word. -/
theorem toInt_quotient (x y : Int64) :
    (x.toInt = -2 ^ 63 ∧ y.toInt = -1 → (x / y).toInt = -2 ^ 63) ∧
      (¬ (x.toInt = -2 ^ 63 ∧ y.toInt = -1) → (x / y).toInt = x.toInt.tdiv y.toInt) := by
  constructor
  · rintro ⟨hx, hy⟩
    rw [Int64.toInt_div, hx, hy]
    rfl
  · intro h
    by_cases hx : x = Int64.minValue
    · have hy : y ≠ -1 := by
        rintro rfl
        exact h ⟨by rw [hx]; rfl, rfl⟩
      exact Int64.toInt_div_of_ne_right x y hy
    · exact Int64.toInt_div_of_ne_left x y hx

/-- Integer arithmetic is exact modulo 2^64. A power is the residue of the exact power, and an
expression put together from integers by the operators other than division is evaluated, without a
trace on the machine, to the residue of what it stands for. A quotient by another integer than zero
is the exact one, cut towards zero, except that the least integer by -1 is the least integer. -/
theorem integers_are_exact_modulo_words :
    (∀ base n : Int64, 0 ≤ n →
      BinOp.apply .pow (.int base) (.int n) = .ok (.int (power base n.toInt.toNat)) ∧
        (power base n.toInt.toNat).toInt = (base.toInt ^ n.toInt.toNat).bmod (2 ^ 64)) ∧
    (∀ (ints : Bytes → Int64) (e : Expr) (z : Int), e.StandsFor ints z → ∀ m : Machine,
      (∀ name ∈ e.names, (m.slot? name).map Slot.value = some (.int (ints name))) →
      ∀ (b : Budget) (hint : Option Ty), ∃ n : Int64,
        e.EndsIn b hint m (.ok (.int n) m) ∧ n.toInt = z.bmod (2 ^ 64)) ∧
    ∀ (b : Budget) (left right : Expr) (m k l : Machine) (x y : Int64),
      left.EndsIn b none m (.ok (.int x) k) → right.EndsIn b none k (.ok (.int y) l) → y ≠ 0 →
      ∀ (hint : Option Ty) (span : Span), ∃ q : Int64,
        Expr.EndsIn b hint (.binary .div left right span) m (.ok (.int q) l) ∧
          (x.toInt = -2 ^ 63 ∧ y.toInt = -1 → q.toInt = -2 ^ 63) ∧
          (¬ (x.toInt = -2 ^ 63 ∧ y.toInt = -1) → q.toInt = x.toInt.tdiv y.toInt) := by
  refine ⟨fun base n hn => ⟨BinOp.apply_pow hn base, ?_⟩, fun ints e z he m hm b hint => ?_,
    fun b left right m k l x y hl hr hy hint span => ?_⟩
  · have hpower := power_ofInt base.toInt n
    rw [Int64.ofInt_toInt] at hpower
    rw [hpower, Int64.toInt_ofInt]
    rfl
  · exact ⟨.ofInt z, he.endsIn hm b hint, Int64.toInt_ofInt⟩
  · exact ⟨x / y, hl.binary_ints hr (BinOp.apply_div hy x) hint span, toInt_quotient x y⟩

/-- Three to the 41st power takes more than 64 bits, before it is multiplied by a variable. -/
theorem wide_power_is_reduced :
    let m : Machine := { globals := [(utf8 "x", ⟨.int, .int 5⟩)] }
    let power : Expr := .binary .pow (.int 3 .origin) (.int 41 .origin) .origin
    let product : Expr := .binary .mul power (.ident (utf8 "x") .origin) .origin
    (Scriptlet.power 3 41).toInt = (3 ^ 41 : Int).bmod (2 ^ 64) ∧
      (∃ n : Int64,
        Expr.EndsIn {} none (.binary .sub product (.neg (.int 7 .origin) .origin) .origin) m
          (.ok (.int n) m) ∧ n.toInt = (3 ^ 41 * 5 - -7 : Int).bmod (2 ^ 64)) ∧
      ∃ q : Int64,
        Expr.EndsIn {} none (.binary .div (.int .minValue .origin) (.int (-1) .origin) .origin) m
          (.ok (.int q) m) ∧ q.toInt = -2 ^ 63 := by
  intro m power product
  obtain ⟨hpower, hpolynomial, hquotient⟩ := integers_are_exact_modulo_words
  have hvalue : ∀ name ∈ [utf8 "x"],
      (m.slot? name).map Slot.value = some (.int ((fun _ => 5 : Bytes → Int64) name)) := by
    intro name hname
    rw [List.mem_singleton.1 hname]
    rfl
  have hstands : Expr.StandsFor (fun _ => 5)
      (.binary .sub product (.neg (.int 7 .origin) .origin) .origin) (3 ^ 41 * 5 - -7) :=
    .sub (.mul (.pow (.int 3 _) (by decide) _ _) (.ident _ _) _) (.neg (.int 7 _) _) _
  obtain ⟨q, hq, hleast, -⟩ := hquotient {} (.int .minValue .origin) (.int (-1) .origin) m m m
    .minValue (-1) (Expr.endsIn_int ..) (Expr.endsIn_int ..) (by decide) none .origin
  exact ⟨(hpower 3 41 (by decide)).2, hpolynomial _ _ _ hstands m hvalue {} none,
    q, hq, hleast ⟨rfl, rfl⟩⟩

end Scriptlet
