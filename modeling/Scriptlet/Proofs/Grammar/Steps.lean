import Scriptlet.Proofs.Grammar

/-!
# Steps: what the smallest parsers do

Looking at the next token, taking it and asking for a kind are what all parsing is made of. What
they do is said twice: on tokens that begin with a known one, and on any tokens in terms of the
next.
-/

namespace Scriptlet

open Grammar

/-! ## Numerals -/

namespace Grammar

variable {w : Bytes}

theorem digitValue?_of_digit {b : UInt8} (h : 48 ≤ b ∧ b ≤ 57) :
    digitValue? b = some (b.toNat - 48) := by
  have hb : ¬ (0x41 ≤ b ∧ b ≤ 0x5A) := by
    have h57 := UInt8.le_iff_toNat_le.1 h.2
    rintro ⟨hlow, -⟩
    have h65 := UInt8.le_iff_toNat_le.1 hlow
    simp at h57 h65
    omega
  have hlower : Bytes.lowerByte b = b := by
    unfold Bytes.lowerByte
    simp only [Bool.and_eq_true, decide_eq_true_eq, hb, if_false]
  simp only [digitValue?, hlower, Bool.and_eq_true, decide_eq_true_eq, h, and_self, if_true]

theorem le_foldl_digits (w : Bytes) (n : Nat) :
    n ≤ w.foldl (fun n b => 10 * n + (b.toNat - 48)) n := by
  induction w generalizing n with
  | nil => exact Nat.le_refl n
  | cons b w ih =>
    have hstep := ih (10 * n + (b.toNat - 48))
    rw [List.foldl_cons]
    omega

theorem readDigits_of_digits (h : ∀ b ∈ w, 48 ≤ b ∧ b ≤ 57) (n : Nat)
    (hfits : w.foldl (fun n b => 10 * n + (b.toNat - 48)) n < unsignedBound) :
    readDigits 10 false n w = .ok (w.foldl (fun n b => 10 * n + (b.toNat - 48)) n) := by
  induction w generalizing n with
  | nil => rfl
  | cons b w ih =>
    have hb := h b (List.mem_cons_self ..)
    have hrest : ∀ c ∈ w, 48 ≤ c ∧ c ≤ 57 := fun c hc => h c (List.mem_cons_of_mem b hc)
    have hvalue : b.toNat - 48 < 10 := by
      have h57 := UInt8.le_iff_toNat_le.1 hb.2
      simp at h57
      omega
    rw [List.foldl_cons] at hfits ⊢
    have hnext := le_foldl_digits w (10 * n + (b.toNat - 48))
    have hcomm : n * 10 + (b.toNat - 48) = 10 * n + (b.toNat - 48) := by omega
    have hbound : ¬ unsignedBound ≤ 10 * n + (b.toNat - 48) := by omega
    rw [readDigits]
    simp only [Bool.false_and, Bool.false_eq_true, if_false, digitValue?_of_digit hb]
    rw [if_neg (by omega), hcomm, if_neg hbound]
    exact ih hrest _ hfits

/-- A digit is no sign. -/
theorem splitSign_of_digit {b : UInt8} (hb : 48 ≤ b ∧ b ≤ 57) (rest : Bytes) :
    splitSign (b :: rest) = (false, b :: rest) := by
  have hlow := UInt8.le_iff_toNat_le.1 hb.1
  have hminus : b ≠ byte '-' := by rintro rfl; revert hlow; decide
  have hplus : b ≠ byte '+' := by rintro rfl; revert hlow; decide
  simp [splitSign, hminus, hplus]

/-- A numeral is read as its value. -/
theorem Numeral.readInt64_eq (h : Numeral w) :
    readInt64 w = .ok (Int64.ofNat (decimalValue w)) := by
  obtain ⟨b, rest, rfl⟩ := List.exists_cons_of_ne_nil h.nonempty
  have hb := h.digits b (List.mem_cons_self ..)
  have hfits := h.fits
  have hread : readDigits 10 false 0 (b :: rest) = .ok (decimalValue (b :: rest)) := by
    refine readDigits_of_digits h.digits 0 ?_
    unfold decimalValue signedBound at hfits
    unfold unsignedBound
    omega
  unfold readInt64
  rw [splitSign_of_digit hb]
  simp only [List.isEmpty_cons, Bool.false_eq_true, if_false, hread, signed64]
  rw [if_pos hfits]
  rfl

theorem eq_of_readDigits (h : ∀ b ∈ w, 48 ≤ b ∧ b ≤ 57) {n m : Nat}
    (hread : readDigits 10 false n w = .ok m) :
    m = w.foldl (fun n b => 10 * n + (b.toNat - 48)) n := by
  induction w generalizing n with
  | nil => cases hread; rfl
  | cons b w ih =>
    have hrest : ∀ c ∈ w, 48 ≤ c ∧ c ≤ 57 := fun c hc => h c (List.mem_cons_of_mem b hc)
    have hcomm : n * 10 + (b.toNat - 48) = 10 * n + (b.toNat - 48) := by omega
    rw [readDigits] at hread
    simp only [Bool.false_and, Bool.false_eq_true, if_false,
      digitValue?_of_digit (h b List.mem_cons_self)] at hread
    split at hread
    · cases hread
    · split at hread
      · cases hread
      · rw [hcomm] at hread
        exact ih hrest hread

/-- Digits whose number is read are a numeral. -/
theorem numeral_of_readInt64 (hne : w ≠ []) (h : ∀ b ∈ w, 48 ≤ b ∧ b ≤ 57) {n : Int64}
    (hread : readInt64 w = .ok n) : Numeral w := by
  refine ⟨hne, h, ?_⟩
  have hsign : splitSign w = (false, w) := by
    obtain ⟨b, rest, rfl⟩ := List.exists_cons_of_ne_nil hne
    exact splitSign_of_digit (h b List.mem_cons_self) rest
  unfold readInt64 at hread
  rw [hsign] at hread
  simp only [List.isEmpty_eq_false_iff.2 hne, Bool.false_eq_true, if_false] at hread
  cases hdigits : readDigits 10 false 0 w with
  | error e => rw [hdigits] at hread; cases hread
  | ok m =>
    rw [hdigits] at hread
    have hm : m = decimalValue w := eq_of_readDigits h hdigits
    simp only [signed64, Bool.false_eq_true, if_false] at hread
    split at hread
    · rename_i hfits
      exact hm ▸ hfits
    · cases hread

end Grammar

/-! ## Levels -/

namespace Grammar

variable {ts : List Token} {e : Expr}

/-- An expression is one of every looser level. -/
theorem Derives.loosen_le {level level' : Nat} (h : Derives ts (.expr level e))
    (hpos : 0 < level') (hle : level' ≤ level) : Derives ts (.expr level' e) := by
  induction hle with
  | refl => exact h
  | step hn ih => exact ih (.loosen (Nat.lt_of_lt_of_le hpos hn) h)

end Grammar

namespace Parser

theorem binOp?_sign (op : BinOp) : binOp? (sign op) = some op := by
  cases op with
  | add | sub | mul | div | pow => rfl
  | eq | ne | gt | lt | ge | le => rfl

theorem eq_sign_of_binOp? {k : Kind} {op : BinOp} (h : binOp? k = some op) : k = sign op := by
  unfold binOp? at h
  split at h <;> cases h <;> rfl

theorem sign_inj {op op' : BinOp} (h : sign op = sign op') : op = op' := by
  have hop := binOp?_sign op
  rw [h, binOp?_sign op'] at hop
  exact (Option.some.inj hop).symm

theorem levels_whole (op : BinOp) : (levels op).whole = strength op := by
  cases op with
  | add | sub | mul | div | pow => rfl
  | eq | ne | gt | lt | ge | le => rfl

theorem levels_right (op : BinOp) : (levels op).right = rightStrength op + 1 := by
  cases op with
  | add | sub | mul | div | pow => rfl
  | eq | ne | gt | lt | ge | le => rfl

theorem levels_left_of_ne {op : BinOp} (h : op ≠ .pow) : (levels op).left = strength op := by
  cases op with
  | pow => exact absurd rfl h
  | add | sub | mul | div => rfl
  | eq | ne | gt | lt | ge | le => rfl

variable {s : Surroundings} {t : Token} {rest : List Token} {k : Kind}

/-- The next token; at the end of the list it is the one that stands for the end. -/
def next (s : Surroundings) (rest : List Token) : Token := rest.headD s.eof

theorem next_cons : next s (t :: rest) = t := rfl

/-! ## Known tokens -/

theorem peek_cons : peek s (t :: rest) = .ok t (t :: rest) := rfl

theorem advance_cons : advance s (t :: rest) = .ok t rest := rfl

theorem isAt_cons : isAt s k (t :: rest) = .ok (t.kind == k) (t :: rest) := rfl

theorem secondKind_cons :
    secondKind s (t :: rest) = .ok (next s rest).kind (t :: rest) := rfl

theorem expect_cons (h : t.kind = k) : expect s k (t :: rest) = .ok t rest := by
  unfold expect
  rw [bind_eq_of_ok isAt_cons, h, beq_self_eq_true]
  rfl

theorem endStatement_cons {start : Span} (h : t.kind = .semicolon) :
    endStatement s start (t :: rest) = .ok (start.join t.span) rest := by
  unfold endStatement
  rw [bind_eq_of_ok (expect_cons h)]
  rfl

/-! ## Any tokens -/

theorem peek_eq : peek s rest = .ok (next s rest) rest := rfl

theorem isAt_eq : isAt s k rest = .ok ((next s rest).kind == k) rest := rfl

theorem expect_eq_of_ne (h : (next s rest).kind ≠ k) :
    expect s k rest =
      .error (.fault ⟨.expected k.name (next s rest), (next s rest).span⟩) rest := by
  unfold expect
  rw [bind_eq_of_ok isAt_eq, beq_false_of_ne h]
  rfl

/-- A kind other than the end of file is that of a token of the list. -/
theorem exists_cons_of_next (heof : s.eof.kind = .eof) (h : (next s rest).kind = k)
    (hk : k ≠ .eof) : ∃ t left, rest = t :: left ∧ t.kind = k := by
  cases rest with
  | nil => exact absurd (h.symm.trans heof) hk
  | cons t left => exact ⟨t, left, rfl, h⟩

/-! ## What may follow an expression -/

/-- The next token is no operator that binds tighter than `min`. -/
def Bounded (s : Surroundings) (min : Nat) (rest : List Token) : Prop :=
  ∀ op, (next s rest).kind = sign op → strength op ≤ min

/-- The next token is no operator that wants a tighter left operand than one of level `q`. -/
def Continues (s : Surroundings) (q : Nat) (rest : List Token) : Prop :=
  ∀ op, (next s rest).kind = sign op → (levels op).left ≤ q

theorem Bounded.continues {min q : Nat} (h : Bounded s min rest)
    (hmin : min ≤ 3) (hq : min ≤ q) : Continues s q rest := by
  intro op hop
  have hbound := h op hop
  have hne : op ≠ .pow := by
    rintro rfl
    have hpow : strength .pow = 4 := rfl
    omega
  rw [levels_left_of_ne hne]
  omega

/-- An operator that leaves the whole as it is leaves its right operand as it is. -/
theorem Continues.bounded (op : BinOp) (h : Continues s (levels op).whole rest) :
    Bounded s (rightStrength op) rest := by
  intro op' hop
  have hleft := h op' hop
  by_cases hpow' : op' = .pow
  · -- A power wants a left operand tighter than any whole.
    subst hpow'
    have hwhole : (levels op).whole ≤ 4 := by cases op <;> decide
    have hbase : (levels .pow).left = 5 := rfl
    omega
  · rw [levels_left_of_ne hpow'] at hleft
    by_cases hpow : op = .pow
    · subst hpow
      have hstrength : strength op' ≤ 3 := by
        revert hpow'
        cases op' <;> decide
      exact hstrength
    · rw [levels_whole] at hleft
      rw [rightStrength, if_neg hpow]
      exact hleft

end Parser
end Scriptlet
