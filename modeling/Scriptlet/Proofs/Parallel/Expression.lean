import Scriptlet.Proofs.Parallel.Steps

/-!
# Expression: like tokens give like expressions

The induction is on the fuel of the first reading, of which the second has no less. An expression
that has been read whole from the first list is the same in the second, because no token that
begins a statement continues an expression.
-/

namespace Scriptlet

namespace Expr

variable {v : Alignment}

theorem Alike.binary {l l' r r' : Expr} (hl : l.Alike v l') (hr : r.Alike v r') (op : BinOp) :
    (Expr.binary op l r (l.span.join r.span)).Alike v
      (.binary op l' r' (l'.span.join r'.span)) := by
  have hspan := v.join hl.span hr.span
  unfold Alike at *
  rw [Expr.respan, Expr.respan, hl, hr, hspan]

theorem Alike.neg {e e' : Expr} {a a' : Span} (he : e.Alike v e') (ha : v.left a = v.right a') :
    (Expr.neg e (a.join e.span)).Alike v (.neg e' (a'.join e'.span)) := by
  have hspan := v.join ha he.span
  unfold Alike at *
  rw [Expr.respan, Expr.respan, he, hspan]

theorem Alike.index {e e' i i' : Expr} {a a' : Span} (he : e.Alike v e') (hi : i.Alike v i')
    (ha : v.left a = v.right a') :
    (Expr.index e i (e.span.join a)).Alike v (.index e' i' (e'.span.join a')) := by
  have hspan := v.join he.span ha
  unfold Alike at *
  rw [Expr.respan, Expr.respan, he, hi, hspan]

theorem Alike.vec {es es' : List Expr} {a a' : Span} (hes : AllAlike v es es')
    (ha : v.left a = v.right a') : (Expr.vec es a).Alike v (.vec es' a') := by
  unfold Alike AllAlike at *
  rw [Expr.respan, Expr.respan, hes, ha]

theorem Alike.call {es es' : List Expr} {a a' b b' : Span} (name : Bytes)
    (hes : AllAlike v es es') (ha : v.left a = v.right a') (hb : v.left b = v.right b') :
    (Expr.call name a es b).Alike v (.call name a' es' b') := by
  unfold Alike AllAlike at *
  rw [Expr.respan, Expr.respan, hes, ha, hb]

theorem AllAlike.nil : AllAlike v [] [] := by
  unfold AllAlike
  rw [Expr.allRespan, Expr.allRespan]

theorem AllAlike.cons {e e' : Expr} {es es' : List Expr} (he : e.Alike v e')
    (hes : AllAlike v es es') : AllAlike v (e :: es) (e' :: es') := by
  unfold Alike AllAlike at *
  rw [Expr.allRespan, Expr.allRespan, he, hes]

end Expr

namespace Parser

variable {v : Alignment} {more : List Token} {whole : Prop} {s s' : Surroundings}

/-- The arguments and the span of a call are the same up to places. -/
def CallAlike (v : Alignment) (c c' : List Expr × Span) : Prop :=
  Expr.AllAlike v c.1 c'.1 ∧ v.left c.2 = v.right c'.2

/-- With given amounts of fuel, expressions are read alike. A call is read from where its name
stands. -/
structure ExpressionsMatch (v : Alignment) (more : List Token) (whole : Prop)
    (s s' : Surroundings) (n n' : Nat) : Prop where
  expression : ∀ min, Match v more whole (Expr.Alike v) (expression s n min) (expression s' n' min)
  operators : ∀ min l l', l.Alike v l' →
    Match v more whole (Expr.Alike v) (operators s n min l) (operators s' n' min l')
  unary : Match v more whole (Expr.Alike v) (unary s n) (unary s' n')
  indices : ∀ e e', e.Alike v e' →
    Match v more whole (Expr.Alike v) (indices s n e) (indices s' n' e')
  primary : Match v more whole (Expr.Alike v) (primary s n) (primary s' n')
  call : ∀ t t' p p' rest rest', t.Alike v t' → List.Forall₂ (Token.Alike v) rest rest' →
    Follows v more whole rest.length (CallAlike v) (call s n (t :: p :: rest))
      (call s' n' (t' :: p' :: (rest' ++ more)))
  items : ∀ closing, closing ≠ .eof → ¬ Opens closing →
    Match v more whole (Expr.AllAlike v) (items s n closing) (items s' n' closing)

/-- A literal is its token. -/
theorem follows_literal {t t' : Token} {rest rest' : List Token} {e e' : Expr}
    (he : e.Alike v e') (hrest : List.Forall₂ (Token.Alike v) rest rest') :
    Follows v more whole (rest.length + 1) (Expr.Alike v)
      ((do let _ ← advance s; return e : Parser Expr) (t :: rest))
      ((do let _ ← advance s'; return e' : Parser Expr) (t' :: (rest' ++ more))) := by
  rw [bind_eq_of_ok advance_cons, bind_eq_of_ok advance_cons]
  exact (Match.pure he rest rest' hrest).mono (Nat.le_succ _)

section Step

variable {n n' : Nat} (hs : Seam v more whole s s') (ih : ExpressionsMatch v more whole s s' n n')
include ih

theorem match_expression_succ (min : Nat) :
    Match v more whole (Expr.Alike v) (expression s (n + 1) min) (expression s' (n' + 1) min) := by
  rw [expression, expression]
  exact ih.unary.bind fun l l' hl => ih.operators min l l' hl

include hs

theorem match_operators (min : Nat) (l l' : Expr) (hl : l.Alike v l') :
    Match v more whole (Expr.Alike v) (operators s (n + 1) min l)
      (operators s' (n' + 1) min l') := by
  intro ts ts' hts
  rw [operators, operators, bind_eq_of_ok peek_eq, bind_eq_of_ok peek_eq, hs.binOp?_next hts]
  cases hop : binOp? (next s ts).kind with
  | none => exact Match.pure hl ts ts' hts
  | some op =>
    dsimp only
    by_cases hmin : strength op ≤ min
    · rw [if_pos hmin, if_pos hmin]
      exact Match.pure hl ts ts' hts
    · rw [if_neg hmin, if_neg hmin]
      cases hts with
      | nil =>
        rw [show (next s []).kind = .eof from hs.eof] at hop
        cases hop
      | @cons t t' rest rest' ht hrest =>
        rw [List.cons_append, bind_eq_of_ok advance_cons, bind_eq_of_ok advance_cons]
        have hoperand := (ih.expression (rightStrength op)).bind fun r r' hr =>
          ih.operators min _ _ (hl.binary hr op)
        exact (hoperand rest rest' hrest).mono (Nat.le_succ _)

theorem match_unary :
    Match v more whole (Expr.Alike v) (unary s (n + 1)) (unary s' (n' + 1)) := by
  rw [unary, unary]
  refine match_takeIf hs Kind.noConfusion (by decide) (fun t t' ht _ => ?_) ?_
  · exact (ih.expression 3).bind fun e e' he => .pure (he.neg ht.span)
  · exact ih.primary.bind fun e e' he => ih.indices e e' he

theorem match_indices (e e' : Expr) (he : e.Alike v e') :
    Match v more whole (Expr.Alike v) (indices s (n + 1) e) (indices s' (n' + 1) e') := by
  rw [indices, indices]
  refine match_takeIf hs Kind.noConfusion (by decide) (fun t t' ht _ => ?_) (.pure he)
  refine (ih.expression 0).bind fun i i' hi => ?_
  refine (match_expect hs Kind.noConfusion).bind fun c c' hc => ?_
  exact ih.indices _ _ (he.index hi hc.1.span)

theorem match_items (closing : Kind) (heof : closing ≠ .eof) (hopens : ¬ Opens closing) :
    Match v more whole (Expr.AllAlike v) (items s (n + 1) closing) (items s' (n' + 1) closing) := by
  rw [items, items]
  refine match_ifNext hs heof (fun t t' rest rest' ht _ hrest => ?_) ?_ (absurd · hopens)
  · exact Match.pure .nil (t :: rest) (t' :: rest') (.cons ht hrest)
  · refine (ih.expression 0).bind fun e e' he => ?_
    refine match_takeIf hs Kind.noConfusion (by decide) (fun _ _ _ _ => ?_) (.pure (.cons he .nil))
    exact (ih.items closing heof hopens).bind fun es es' hes => .pure (.cons he hes)

theorem follows_call (t t' p p' : Token) (rest rest' : List Token) (ht : t.Alike v t')
    (hrest : List.Forall₂ (Token.Alike v) rest rest') :
    Follows v more whole rest.length (CallAlike v) (call s (n + 1) (t :: p :: rest))
      (call s' (n' + 1) (t' :: p' :: (rest' ++ more))) := by
  rw [call, call, bind_eq_of_ok advance_cons, bind_eq_of_ok advance_cons,
    bind_eq_of_ok advance_cons, bind_eq_of_ok advance_cons]
  refine (ih.items .rparen Kind.noConfusion (by decide)).bind (fun es es' hes => ?_)
    rest rest' hrest
  refine (match_expect hs Kind.noConfusion).bind fun c c' hc => ?_
  exact .pure ⟨hes, v.join ht.span hc.1.span⟩

theorem match_primary :
    Match v more whole (Expr.Alike v) (primary s (n + 1)) (primary s' (n' + 1)) := by
  intro ts ts' hts
  rw [primary, primary, bind_eq_of_ok peek_eq, bind_eq_of_ok peek_eq]
  cases hts with
  | nil =>
    rw [show (next s []).kind = .eof from hs.eof]
    rcases hs.next_nil with hend | hpart
    · rw [hend]
      exact follows_unexpected hs .nil _
    · exact .of_stops rfl hpart
  | @cons t t' rest rest' ht hrest =>
    have hnext : next s (t :: rest) = t := rfl
    have hnext' : next s' (t' :: rest' ++ more) = t' := rfl
    rw [hnext, hnext', ht.kind, ht.literal, List.cons_append]
    have hspan := ht.span
    cases hk : t.kind with
    | int =>
      dsimp only
      rw [bind_eq_of_ok advance_cons, bind_eq_of_ok advance_cons]
      cases readInt64 t.literal with
      | ok k =>
        have he : (Expr.int k t.span).Alike v (.int k t'.span) := by
          unfold Expr.Alike
          rw [Expr.respan, Expr.respan, hspan]
        exact (Match.pure he rest rest' hrest).mono (Nat.le_succ _)
      | error e => exact (Match.fail rfl hspan rest rest' hrest).mono (Nat.le_succ _)
    | str =>
      refine follows_literal ?_ hrest
      unfold Expr.Alike
      rw [Expr.respan, Expr.respan, hspan]
    | kTrue =>
      refine follows_literal ?_ hrest
      unfold Expr.Alike
      rw [Expr.respan, Expr.respan, hspan]
    | kFalse =>
      refine follows_literal ?_ hrest
      unfold Expr.Alike
      rw [Expr.respan, Expr.respan, hspan]
    | ident =>
      dsimp only
      rw [bind_eq_of_ok secondKind_cons, bind_eq_of_ok secondKind_cons]
      have hident : Follows v more whole (rest.length + 1) (Expr.Alike v)
          ((do let _ ← advance s; return .ident t.literal t.span : Parser Expr) (t :: rest))
          ((do let _ ← advance s'; return .ident t.literal t'.span : Parser Expr)
            (t' :: (rest' ++ more))) := by
        refine follows_literal ?_ hrest
        unfold Expr.Alike
        rw [Expr.respan, Expr.respan, hspan]
      by_cases hparen : (next s rest).kind = .lparen
      · cases hrest with
        | nil => exact absurd (hparen.symm.trans hs.eof) Kind.noConfusion
        | @cons p p' rest rest' hp hrest =>
          rw [if_pos hparen, List.cons_append, if_pos (show (next s' (p' :: (rest' ++ more))).kind =
            .lparen from hp.kind.trans hparen)]
          refine (ih.call t t' p p' rest rest' ht hrest).bind fun c c' us us' _ hc hus hlen => ?_
          exact (Match.pure (.call t.literal hc.1 hspan hc.2) us us' hus).mono
            (Nat.le_trans hlen (by simp only [List.length_cons]; omega))
      · -- No statement begins with a parenthesis, so the name is no call on the right either.
        have hparen' : (next s' (rest' ++ more)).kind ≠ .lparen := by
          rcases hs.next_same hrest with hsame | ⟨-, -, hopens⟩
          · exact hsame.kind ▸ hparen
          · exact hopens.ne (by decide)
        rw [if_neg hparen, if_neg hparen']
        exact hident
    | lparen =>
      dsimp only
      rw [bind_eq_of_ok advance_cons, bind_eq_of_ok advance_cons]
      have hinner := (ih.expression 0).bind fun e e' he =>
        (match_expect hs (k := .rparen) Kind.noConfusion).bind fun _ _ _ => Match.pure he
      exact (hinner rest rest' hrest).mono (Nat.le_succ _)
    | lbracket =>
      dsimp only
      rw [bind_eq_of_ok advance_cons, bind_eq_of_ok advance_cons]
      have helems := (ih.items .rbracket Kind.noConfusion (by decide)).bind fun es es' hes =>
        (match_expect hs (k := .rbracket) Kind.noConfusion).bind fun c c' hc =>
          Match.pure (Expr.Alike.vec hes (v.join hspan hc.1.span))
      exact (helems rest rest' hrest).mono (Nat.le_succ _)
    | _ => exact follows_unexpected hs (.cons ht hrest) _

end Step

/-- Like tokens give like expressions, with no less fuel on the right. -/
theorem expressionsMatch (hs : Seam v more whole s s') (n d : Nat) :
    ExpressionsMatch v more whole s s' n (n + d) := by
  induction n with
  | zero =>
    constructor
    · intro min; rw [expression_zero]; exact .outOfFuel _
    · intro min l l' _; rw [operators_zero]; exact .outOfFuel _
    · rw [unary_zero]; exact .outOfFuel _
    · intro e e' _; rw [indices_zero]; exact .outOfFuel _
    · rw [primary_zero]; exact .outOfFuel _
    · intro t t' p p' rest rest' _ _; rw [call_zero]; trivial
    · intro closing _ _; rw [items_zero]; exact .outOfFuel _
  | succ n ih =>
    rw [Nat.succ_add]
    exact ⟨match_expression_succ ih, match_operators hs ih, match_unary hs ih,
      match_indices hs ih, match_primary hs ih, follows_call hs ih, match_items hs ih⟩

/-! ## The end of the tokens -/

theorem stops_primary_nil (heof : s.eof.kind = .eof) (n : Nat) :
    stops (primary s n []) = true := by
  cases n with
  | zero => rw [primary_zero]; rfl
  | succ n =>
    rw [primary, bind_eq_of_ok peek_eq, show (next s []).kind = .eof from heof]
    rfl

theorem stops_unary_nil (heof : s.eof.kind = .eof) (n : Nat) : stops (unary s n []) = true := by
  cases n with
  | zero => rw [unary_zero]; rfl
  | succ n =>
    rw [unary, bind_eq_of_ok isAt_eq, show (next s []).kind = .eof from heof]
    exact stops_bind (stops_primary_nil heof n)

/-- At the end of the tokens there is no expression. -/
theorem stops_expression_nil (heof : s.eof.kind = .eof) (n min : Nat) :
    stops (expression s n min []) = true := by
  cases n with
  | zero => rw [expression_zero]; rfl
  | succ n =>
    rw [expression]
    exact stops_bind (stops_unary_nil heof n)

end Parser
end Scriptlet
