import Scriptlet.Proofs.Grammar.Steps

/-!
# Cursor: where the parser stands in a list of tokens

Only the tokens before the first end of file are handed to the parser. Here its reading of them is
compared with a reading of the whole list, the end of file and what is behind it included, in which
something arbitrary stands for the end of the list. Both go the same way, so the second reading
looks neither behind the end of file nor behind the list.

Along the way it is counted how far the cursor moves. A function that is given `n` units of fuel
runs out of them only if there are fewer than eight for each token that is left, and some more that
depend on the function.
-/

namespace Scriptlet

/-- The `=` that is left of a `>=` whose first half closed a type. -/
def Token.half (t : Token) : Token := ⟨.assign, [], t.span.tail⟩

namespace Parser

open Grammar

/-- With the cursor at token `i` of the list `ts`, the tokens `left` are still to be read: those
from there on, the first of which may have been cut in half. -/
structure Cursor (ts : List Token) (i : Nat) (left : List Token) : Prop where
  le : i ≤ ts.length
  tokens : left = ts.drop i ∨
    ∃ t more, ts.drop i = t :: more ∧ t.kind = .gtEq ∧ left = t.half :: more

/-- The first surroundings stand before an end of file that the second find in the list, with more
tokens behind it perhaps. -/
structure Fence (tail : List Token) (s s' : Surroundings) : Prop where
  eof : s.eof.kind = .eof
  head : ∃ more, tail = s.eof :: more
  inLoop : s'.inLoop = s.inLoop
  function : s'.function = s.function

/-- The descent stopped at a syntax error, or for want of fuel when that was `short`. -/
def Due (short : Prop) : ParseStop → Prop
  | .fault d => d.code = .malformed
  | .outOfFuel => short

/-- The second outcome is the first, with `tail` still behind. The cursor is in the list, and at
`least` that far if there is a value. -/
def Scans {α : Type} (ts tail : List Token) (least : Nat) (short : Prop)
    (r r' : EStateM.Result ParseStop (List Token) α) : Prop :=
  match r with
  | .ok a left => r' = .ok a (left ++ tail) ∧ ∃ i, least ≤ i ∧ Cursor ts i left
  | .error e left => r' = .error e (left ++ tail) ∧ (∃ i, Cursor ts i left) ∧ Due short e

/-- From any place in the list, the two actions go the same way. They take at least `k` tokens for
a value, and `n` units of fuel are too few only if they are fewer than eight for each token left
and `c` more. -/
def Scan {α : Type} (ts tail : List Token) (n k c : Nat) (x x' : Parser α) : Prop :=
  ∀ i left, Cursor ts i left →
    Scans ts tail (i + k) (n < 8 * left.length + c) (x left) (x' (left ++ tail))

/-- The same, from any place at which a token is left. -/
def ScanOn {α : Type} (ts tail : List Token) (n k c : Nat) (x x' : Parser α) : Prop :=
  ∀ i t left, Cursor ts i (t :: left) →
    Scans ts tail (i + k) (n < 8 * (t :: left).length + c) (x (t :: left))
      (x' (t :: left ++ tail))

variable {α β : Type} {ts tail : List Token} {s s' : Surroundings} {n k c : Nat}

namespace Cursor

variable {i : Nat} {t : Token} {left : List Token}

theorem start (ts : List Token) : Cursor ts 0 ts := ⟨Nat.zero_le _, .inl rfl⟩

theorem length (h : Cursor ts i left) : i + left.length = ts.length := by
  have hle := h.le
  have hlength : left.length = (ts.drop i).length := by
    obtain rfl | ⟨t, more, hdrop, -, rfl⟩ := h.tokens
    · rfl
    · rw [hdrop]
      rfl
  rw [List.length_drop] at hlength
  omega

theorem step (h : Cursor ts i (t :: left)) : Cursor ts (i + 1) left := by
  have hlength := h.length
  rw [List.length_cons] at hlength
  refine ⟨by omega, .inl ?_⟩
  rw [← List.tail_drop]
  obtain hdrop | ⟨u, more, hdrop, -, hleft⟩ := h.tokens
  · rw [← hdrop]
    rfl
  · rw [hdrop]
    exact (List.cons.inj hleft).2

theorem half (h : Cursor ts i (t :: left)) (ht : t.kind = .gtEq) :
    Cursor ts i (t.half :: left) := by
  refine ⟨h.le, .inr ⟨t, left, ?_, ht, rfl⟩⟩
  obtain hdrop | ⟨u, more, -, -, hleft⟩ := h.tokens
  · exact hdrop.symm
  · -- What is left of a `>=` is none itself.
    cases hleft
    cases ht

theorem append (h : Cursor ts i left) (tail : List Token) :
    Cursor (ts ++ tail) i (left ++ tail) := by
  have hdrop : (ts ++ tail).drop i = ts.drop i ++ tail := List.drop_append_of_le_length h.le
  have hle := h.le
  refine ⟨by rw [List.length_append]; omega, ?_⟩
  rw [hdrop]
  obtain rfl | ⟨t, more, hts, ht, rfl⟩ := h.tokens
  · exact .inl rfl
  · exact .inr ⟨t, more ++ tail, by rw [hts]; rfl, ht, rfl⟩

end Cursor

/-- The next token is the same in both lists. -/
theorem Fence.next_append (hs : Fence tail s s') (left : List Token) :
    next s' (left ++ tail) = next s left := by
  cases left with
  | nil =>
    obtain ⟨more, rfl⟩ := hs.head
    rfl
  | cons t left => rfl

/-! ## Putting readings together -/

section Composition

variable {i j : Nat} {p q : Prop} {us vs : List Token}

theorem Due.mono {e : ParseStop} (h : Due p e) (hpq : p → q) : Due q e := by
  cases e with
  | fault d => exact h
  | outOfFuel => exact hpq h

theorem Scans.mono {r r' : EStateM.Result ParseStop (List Token) α} (h : Scans ts tail i p r r')
    (hij : j ≤ i) (hpq : p → q) : Scans ts tail j q r r' := by
  cases r with
  | ok a left =>
    obtain ⟨hr', m, hm, hleft⟩ := h
    exact ⟨hr', m, by omega, hleft⟩
  | error e left => exact ⟨h.1, h.2.1, h.2.2.mono hpq⟩

theorem Scans.bind {x x' : Parser α} {f f' : α → Parser β} (hx : Scans ts tail i p (x us) (x' vs))
    (hpq : p → q)
    (hf : ∀ a m left, x us = .ok a left → i ≤ m → Cursor ts m left →
      Scans ts tail j q (f a left) (f' a (left ++ tail))) :
    Scans ts tail j q ((x >>= f) us) ((x' >>= f') vs) := by
  cases hr : x us with
  | ok a left =>
    rw [hr] at hx
    obtain ⟨hr', m, hm, hleft⟩ := hx
    rw [bind_eq_of_ok hr, bind_eq_of_ok hr']
    exact hf a m left hr hm hleft
  | error e left =>
    rw [hr] at hx
    obtain ⟨hr', hleft, he⟩ := hx
    rw [bind_eq_of_error hr, bind_eq_of_error hr']
    exact ⟨rfl, hleft, he.mono hpq⟩

namespace Scan

theorem mono {x x' : Parser α} {k' c' : Nat} (h : Scan ts tail n k c x x') (hk : k' ≤ k)
    (hc : c ≤ c') : Scan ts tail n k' c' x x' := by
  intro i left hleft
  exact (h i left hleft).mono (by omega) (by omega)

/-- The tokens that the first action takes bring eight units of fuel each to the second. -/
theorem bind {x x' : Parser α} {f f' : α → Parser β} {k' c' : Nat}
    (hx : Scan ts tail n k' c' x x') (hc : c' ≤ c)
    (hf : ∀ a, Scan ts tail n (k - k') (c + 8 * k') (f a) (f' a)) :
    Scan ts tail n k c (x >>= f) (x' >>= f') := by
  intro i left hleft
  refine (hx i left hleft).bind (by omega) fun a m rest _ hm hrest => ?_
  -- What is left is measured against the whole list, by where the cursor stands before and after.
  have hlength := hleft.length
  have hlength' := hrest.length
  exact (hf a m rest hrest).mono (by omega) (by omega)

theorem pure (a : α) : Scan ts tail n 0 c (pure a) (pure a) :=
  fun i _ hleft => ⟨rfl, i, Nat.le_refl i, hleft⟩

theorem fail {fault : Fault} {span : Span} (h : fault.code = .malformed) :
    Scan ts tail n k c (fail fault span : Parser α) (fail fault span) :=
  fun i _ hleft => ⟨rfl, ⟨i, hleft⟩, h⟩

theorem outOfFuel :
    Scan ts tail 0 k (c + 1) (throw .outOfFuel : Parser α) (throw .outOfFuel) :=
  fun i left hleft => ⟨rfl, ⟨i, hleft⟩, show 0 < 8 * left.length + (c + 1) by omega⟩

/-- One unit of fuel is spent on a function itself. -/
theorem spend {x x' : Parser α} (h : Scan ts tail n k c x x') :
    Scan ts tail (n + 1) k (c + 1) x x' := by
  intro i left hleft
  exact (h i left hleft).mono (Nat.le_refl _) (by omega)

theorem branch {b : Prop} [Decidable b] {x y x' y' : Parser α} (hx : Scan ts tail n k c x x')
    (hy : Scan ts tail n k c y y') :
    Scan ts tail n k c (if b then x else y) (if b then x' else y') := by
  by_cases hb : b
  · rw [if_pos hb, if_pos hb]
    exact hx
  · rw [if_neg hb, if_neg hb]
    exact hy

theorem on {x x' : Parser α} (h : Scan ts tail n k c x x') : ScanOn ts tail n k c x x' :=
  fun i t left hleft => h i (t :: left) hleft

end Scan

theorem ScanOn.spend {x x' : Parser α} (h : ScanOn ts tail n k c x x') :
    ScanOn ts tail (n + 1) k (c + 1) x x' := by
  intro i t left hleft
  exact (h i t left hleft).mono (Nat.le_refl _) (by omega)

end Composition

/-! ## The smallest parsers -/

section Smallest

variable {kind : Kind} (hs : Fence tail s s')

theorem scanOn_advance {f f' : Token → Parser α}
    (hf : ∀ t, Scan ts tail n (k - 1) (c + 8) (f t) (f' t)) :
    ScanOn ts tail n k c (advance s >>= f) (advance s' >>= f') := by
  intro i t left h
  rw [List.cons_append, bind_eq_of_ok advance_cons, bind_eq_of_ok advance_cons, List.length_cons]
  exact (hf t (i + 1) left h.step).mono (by omega) (by omega)

/-- Taking two tokens that are there. -/
theorem scans_advance_two {i : Nat} {t l : Token} {left : List Token} {f f' : Token → Parser α}
    (h : Cursor ts i (t :: l :: left)) (hf : Scan ts tail n (k - 2) (c + 16) (f t) (f' t)) :
    Scans ts tail (i + k) (n < 8 * (t :: l :: left).length + c)
      ((do let name ← advance s; let _ ← advance s; f name) (t :: l :: left))
      ((do let name ← advance s'; let _ ← advance s'; f' name) (t :: l :: left ++ tail)) := by
  rw [List.cons_append, List.cons_append, bind_eq_of_ok advance_cons, bind_eq_of_ok advance_cons,
    bind_eq_of_ok advance_cons, bind_eq_of_ok advance_cons, List.length_cons, List.length_cons]
  exact (hf (i + 2) left h.step.step).mono (by omega) (by omega)

include hs

theorem scan_unexpected (want : Bytes) :
    Scan ts tail n k c (unexpected s want : Parser α) (unexpected s' want) := by
  intro i left hleft
  unfold unexpected
  rw [bind_eq_of_ok peek_eq, bind_eq_of_ok peek_eq, hs.next_append]
  exact ⟨rfl, ⟨i, hleft⟩, rfl⟩

theorem scan_expect (hkind : kind ≠ .eof) :
    Scan ts tail n 1 0 (expect s kind) (expect s' kind) := by
  intro i left hleft
  by_cases hnext : (next s left).kind = kind
  · obtain ⟨t, rest, rfl, ht⟩ := exists_cons_of_next hs.eof hnext hkind
    rw [expect_cons ht, List.cons_append, expect_cons ht]
    exact ⟨rfl, i + 1, Nat.le_refl _, hleft.step⟩
  · have hnext' : (next s' (left ++ tail)).kind ≠ kind := by
      rw [hs.next_append]
      exact hnext
    rw [expect_eq_of_ne hnext, expect_eq_of_ne hnext', hs.next_append]
    exact ⟨rfl, ⟨i, hleft⟩, rfl⟩

theorem scan_endStatement (start : Span) :
    Scan ts tail n 1 0 (endStatement s start) (endStatement s' start) :=
  (scan_expect hs Kind.noConfusion).bind (Nat.le_refl 0) fun _ => .pure _

/-- A choice by the kind of the next token. -/
theorem scan_ifAt {x y x' y' : Parser α} (hx : Scan ts tail n k c x x')
    (hy : Scan ts tail n k c y y') :
    Scan ts tail n k c (do if ← isAt s kind then x else y)
      (do if ← isAt s' kind then x' else y') := by
  intro i left hleft
  rw [bind_eq_of_ok isAt_eq, bind_eq_of_ok isAt_eq, hs.next_append]
  exact Scan.branch hx hy i left hleft

/-- A choice by the kind of the next token, which is there if it is of that kind. -/
theorem scan_ifOn {x y x' y' : Parser α} (hkind : kind ≠ .eof) (hx : ScanOn ts tail n k c x x')
    (hy : Scan ts tail n k c y y') :
    Scan ts tail n k c (do if ← isAt s kind then x else y)
      (do if ← isAt s' kind then x' else y') := by
  intro i left hleft
  rw [bind_eq_of_ok isAt_eq, bind_eq_of_ok isAt_eq, hs.next_append]
  by_cases hnext : (next s left).kind = kind
  · rw [hnext, beq_self_eq_true]
    obtain ⟨t, rest, rfl, -⟩ := exists_cons_of_next hs.eof hnext hkind
    exact hx i t rest hleft
  · rw [beq_false_of_ne hnext]
    exact hy i left hleft

/-! ## Types -/

theorem scan_typeRef (n : Nat) : Scan ts tail n 1 1 (typeRef s n) (typeRef s' n) := by
  induction n with
  | zero => exact .outOfFuel
  | succ n ih =>
    rw [typeRef, typeRef]
    refine .spend ?_
    refine (scan_expect hs Kind.noConfusion).bind (Nat.le_refl 0) fun word => ?_
    cases Ty.ofName? word.literal with
    | some type => exact .pure type
    | none =>
      refine .branch (.fail rfl) ?_
      refine (scan_expect hs Kind.noConfusion).bind (Nat.zero_le _) fun _ => ?_
      refine ih.bind (by omega) fun elem => ?_
      intro i left hleft
      rw [bind_eq_of_ok peek_eq, bind_eq_of_ok peek_eq, hs.next_append]
      by_cases hjoined : (next s left).kind = .gtEq
      · -- The cursor stays, at the half that is left.
        rw [if_pos hjoined, if_pos hjoined]
        obtain ⟨t, rest, rfl, ht⟩ := exists_cons_of_next hs.eof hjoined Kind.noConfusion
        exact ⟨rfl, i, Nat.le_refl i, hleft.half ht⟩
      · rw [if_neg hjoined, if_neg hjoined]
        have hclosed : Scan ts tail n 0 0 (do let _ ← expect s .gt; return elem.vecOf)
            (do let _ ← expect s' .gt; return elem.vecOf) :=
          (scan_expect hs Kind.noConfusion).bind (Nat.le_refl 0) fun _ => .pure _
        exact (hclosed.mono (Nat.le_refl 0) (Nat.zero_le _)) i left hleft

theorem scan_optionalType (n : Nat) {mark : Kind} (hmark : mark ≠ .eof) :
    Scan ts tail n 0 1 (optionalType s n mark) (optionalType s' n mark) := by
  refine scan_ifOn hs hmark (scanOn_advance fun _ => ?_) (.pure none)
  exact (scan_typeRef hs n).bind (by omega) fun type => .pure (some type)

end Smallest

/-! ## Expressions -/

/-- With a given amount of fuel, expressions are read the same way. A call is read from where its
name stands. The last number counts the functions that may follow each other before a token is
taken: a list of items begins with an expression, that with an operand, and so on to a call. -/
structure ScansExpressions (ts tail : List Token) (s s' : Surroundings) (n : Nat) : Prop where
  expression : ∀ min, Scan ts tail n 1 4 (expression s n min) (expression s' n min)
  operators : ∀ min e, Scan ts tail n 0 1 (operators s n min e) (operators s' n min e)
  unary : Scan ts tail n 1 3 (unary s n) (unary s' n)
  indices : ∀ e, Scan ts tail n 0 1 (indices s n e) (indices s' n e)
  primary : Scan ts tail n 1 2 (primary s n) (primary s' n)
  call : ∀ i t l left, Cursor ts i (t :: l :: left) →
    Scans ts tail (i + 1) (n < 8 * (t :: l :: left).length + 1) (call s n (t :: l :: left))
      (call s' n (t :: l :: left ++ tail))
  items : ∀ closing, Scan ts tail n 0 5 (items s n closing) (items s' n closing)

section Step

variable (hs : Fence tail s s') (ih : ScansExpressions ts tail s s' n)
include hs ih

omit hs in
theorem scan_expression (min : Nat) :
    Scan ts tail (n + 1) 1 4 (expression s (n + 1) min) (expression s' (n + 1) min) := by
  rw [expression, expression]
  refine .spend ?_
  exact ih.unary.bind (Nat.le_refl 3) fun e => (ih.operators min e).mono (Nat.le_refl 0) (by omega)

theorem scan_operators (min : Nat) (e : Expr) :
    Scan ts tail (n + 1) 0 1 (operators s (n + 1) min e) (operators s' (n + 1) min e) := by
  rw [operators, operators]
  refine .spend ?_
  intro i left hleft
  rw [bind_eq_of_ok peek_eq, bind_eq_of_ok peek_eq, hs.next_append]
  cases hop : binOp? (next s left).kind with
  | none => exact Scan.pure e i left hleft
  | some op =>
    dsimp only
    by_cases hmin : strength op ≤ min
    · rw [if_pos hmin, if_pos hmin]
      exact Scan.pure e i left hleft
    · rw [if_neg hmin, if_neg hmin]
      have hsign : sign op ≠ .eof := by cases op <;> exact Kind.noConfusion
      obtain ⟨t, rest, rfl, -⟩ := exists_cons_of_next hs.eof (eq_sign_of_binOp? hop) hsign
      refine scanOn_advance (fun _ => ?_) i t rest hleft
      refine (ih.expression _).bind (by omega) fun right => ?_
      exact (ih.operators min _).mono (Nat.le_refl 0) (by omega)

theorem scan_unary : Scan ts tail (n + 1) 1 3 (unary s (n + 1)) (unary s' (n + 1)) := by
  rw [unary, unary]
  refine .spend ?_
  refine scan_ifOn hs Kind.noConfusion (scanOn_advance fun minus => ?_) ?_
  · exact (ih.expression 3).bind (by omega) fun operand => .pure _
  · exact ih.primary.bind (Nat.le_refl 2) fun e => (ih.indices e).mono (Nat.le_refl 0) (by omega)

theorem scan_indices (e : Expr) :
    Scan ts tail (n + 1) 0 1 (indices s (n + 1) e) (indices s' (n + 1) e) := by
  rw [indices, indices]
  refine .spend ?_
  refine scan_ifOn hs Kind.noConfusion (scanOn_advance fun _ => ?_) (.pure e)
  refine (ih.expression 0).bind (by omega) fun index => ?_
  refine (scan_expect hs Kind.noConfusion).bind (Nat.zero_le _) fun closing => ?_
  exact (ih.indices _).mono (Nat.le_refl 0) (by omega)

theorem scan_items (closing : Kind) :
    Scan ts tail (n + 1) 0 5 (items s (n + 1) closing) (items s' (n + 1) closing) := by
  rw [items, items]
  refine .spend ?_
  refine scan_ifAt hs (.pure []) ?_
  refine (ih.expression 0).bind (Nat.le_refl 4) fun first => ?_
  refine scan_ifOn hs Kind.noConfusion (scanOn_advance fun _ => ?_) (.pure [first])
  exact (ih.items closing).bind (by omega) fun rest => .pure (first :: rest)

theorem scans_call (i : Nat) (t l : Token) (left : List Token) (h : Cursor ts i (t :: l :: left)) :
    Scans ts tail (i + 1) (n + 1 < 8 * (t :: l :: left).length + 1)
      (call s (n + 1) (t :: l :: left)) (call s' (n + 1) (t :: l :: left ++ tail)) := by
  rw [call, call]
  refine (scans_advance_two (n := n) (k := 1) (c := 0) h ?_).mono (Nat.le_refl _) (by omega)
  refine (ih.items .rparen).bind (by omega) fun args => ?_
  exact (scan_expect hs Kind.noConfusion).bind (Nat.zero_le _) fun closing => .pure _

theorem scan_primary : Scan ts tail (n + 1) 1 2 (primary s (n + 1)) (primary s' (n + 1)) := by
  rw [primary, primary]
  refine .spend ?_
  intro i left hleft
  rw [bind_eq_of_ok peek_eq, bind_eq_of_ok peek_eq, hs.next_append]
  cases left with
  | nil =>
    -- Both stand before the end of file, which is no beginning of an expression.
    rw [show (next s []).kind = .eof from hs.eof]
    exact scan_unexpected hs _ i [] hleft
  | cons t rest =>
    rw [next_cons]
    cases hk : t.kind with
    | int =>
      refine scanOn_advance (fun _ => ?_) i t rest hleft
      cases readInt64 t.literal with
      | ok value => exact .pure _
      | error e => exact .fail rfl
    | str | kTrue | kFalse => exact scanOn_advance (fun _ => .pure _) i t rest hleft
    | ident =>
      dsimp only
      rw [bind_eq_of_ok secondKind_cons, List.cons_append, bind_eq_of_ok secondKind_cons,
        hs.next_append]
      by_cases hparen : (next s rest).kind = .lparen
      · rw [if_pos hparen, if_pos hparen]
        obtain ⟨l, rest, rfl, -⟩ := exists_cons_of_next hs.eof hparen Kind.noConfusion
        refine (ih.call i t l rest hleft).bind id fun c m us _ hm hus => ?_
        exact ⟨rfl, m, hm, hus⟩
      · rw [if_neg hparen, if_neg hparen]
        exact scanOn_advance (fun _ => .pure _) i t rest hleft
    | lparen =>
      refine scanOn_advance (fun _ => ?_) i t rest hleft
      refine (ih.expression 0).bind (by omega) fun inner => ?_
      exact (scan_expect hs Kind.noConfusion).bind (Nat.zero_le _) fun _ => .pure inner
    | lbracket =>
      refine scanOn_advance (fun _ => ?_) i t rest hleft
      refine (ih.items .rbracket).bind (by omega) fun elems => ?_
      exact (scan_expect hs Kind.noConfusion).bind (Nat.zero_le _) fun closing => .pure _
    | _ => exact scan_unexpected hs _ i (t :: rest) hleft

end Step

theorem scansExpressions (hs : Fence tail s s') (n : Nat) : ScansExpressions ts tail s s' n := by
  induction n with
  | zero =>
    constructor
    · intro min; rw [expression_zero, expression_zero]; exact .outOfFuel
    · intro min e; rw [operators_zero, operators_zero]; exact .outOfFuel
    · rw [unary_zero, unary_zero]; exact .outOfFuel
    · intro e; rw [indices_zero, indices_zero]; exact .outOfFuel
    · rw [primary_zero, primary_zero]; exact .outOfFuel
    · intro i t l left h; rw [call_zero, call_zero]; exact Scan.outOfFuel i _ h
    · intro closing; rw [items_zero, items_zero]; exact .outOfFuel
  | succ n ih =>
    exact ⟨scan_expression ih, scan_operators hs ih, scan_unary hs ih, scan_indices hs ih,
      scan_primary hs ih, scans_call hs ih, scan_items hs ih⟩

end Parser
end Scriptlet
