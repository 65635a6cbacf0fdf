import Scriptlet.Proofs.Grammar.Steps

/-!
# Expression: what is accepted as an expression is one

Every parser takes a beginning of the tokens that the grammar relates to the tree it gives. The
operators that follow an expression bind no tighter than the expression asked for; that is what
makes the operand to the left of the next operator one of the right level.
-/

namespace Scriptlet

open Grammar

/-- Tokens as the grammar has them: none stands for the end, and the integers are numerals. -/
def Plain (ts : List Token) : Prop :=
  ∀ t ∈ ts, t.kind ≠ .eof ∧ (t.kind = .int → Numeral t.literal)

instance (ts : List Token) : Decidable (Plain ts) :=
  inferInstanceAs (Decidable (∀ t ∈ ts, t.kind ≠ .eof ∧ (t.kind = .int → Numeral t.literal)))

namespace Plain

variable {t : Token} {ts us : List Token}

theorem tail (h : Plain (t :: ts)) : Plain ts := fun u hu => h u (List.mem_cons_of_mem t hu)

theorem right (h : Plain (ts ++ us)) : Plain us := fun u hu => h u (List.mem_append_right ts hu)

end Plain

namespace Parser

variable {α β : Type} {s : Surroundings} {rest : List Token} {k : Kind}
  {post : α → List Token → Prop}

/-! ## Ways to go on -/

theorem ends_expect {f : Token → Parser α} (heof : s.eof.kind = .eof) (hk : k ≠ .eof)
    (h : ∀ t left, rest = t :: left → t.kind = k → Ends (f t left) post (fun _ _ => True)) :
    Ends ((expect s k >>= f) rest) post (fun _ _ => True) := by
  by_cases hn : (next s rest).kind = k
  · obtain ⟨t, left, rfl, ht⟩ := exists_cons_of_next heof hn hk
    rw [bind_eq_of_ok (expect_cons ht)]
    exact h t left rfl ht
  · rw [bind_eq_of_error (expect_eq_of_ne hn)]
    trivial

theorem ends_ifAt {x y : Parser α} (heof : s.eof.kind = .eof) (hk : k ≠ .eof)
    (hx : ∀ t left, rest = t :: left → t.kind = k →
      Ends (x (t :: left)) post (fun _ _ => True))
    (hy : (next s rest).kind ≠ k → Ends (y rest) post (fun _ _ => True)) :
    Ends ((do if ← isAt s k then x else y) rest) post (fun _ _ => True) := by
  rw [bind_eq_of_ok isAt_eq]
  by_cases hn : (next s rest).kind = k
  · obtain ⟨t, left, rfl, ht⟩ := exists_cons_of_next heof hn hk
    rw [hn, beq_self_eq_true]
    exact hx t left rfl ht
  · rw [beq_false_of_ne hn]
    exact hy hn

theorem ends_endStatement {start : Span} {f : Span → Parser α} (heof : s.eof.kind = .eof)
    (h : ∀ z left, rest = z :: left → z.kind = .semicolon →
      Ends (f (start.join z.span) left) post (fun _ _ => True)) :
    Ends ((endStatement s start >>= f) rest) post (fun _ _ => True) := by
  unfold endStatement
  rw [bind_assoc]
  exact ends_expect heof Kind.noConfusion fun z left hrest hz => h z left hrest hz

theorem ends_part {x : Parser β} {f : β → Parser α} {part : β → List Token → Prop}
    (hx : Ends (x rest) part (fun _ _ => True))
    (hf : ∀ b left, part b left → Ends (f b left) post (fun _ _ => True)) :
    Ends ((x >>= f) rest) post (fun _ _ => True) := by
  rw [Ends.bind_iff]
  exact hx.mono hf (fun _ _ _ => trivial)

/-! ## Types -/

/-- What reading a type took: a type; or all but the last `>` of one, if that was part of a `>=` of
which the `=` is left. -/
inductive TypeTaken (rest : List Token) (t : Ty) (left : List Token) : Prop
  | whole {ts : List Token} (h : rest = ts ++ left) (ht : TypeForm ts t)
  | cut {w l q a : Token} {ts us : List Token} {u : Ty} (h : rest = w :: l :: (ts ++ q :: us))
    (hw : w.kind = .ident) (hn : w.literal = utf8 "vec") (hl : l.kind = .lt)
    (hu : TypeForm ts u) (hq : q.kind = .gtEq) (ha : a.kind = .assign) (ht : t = u.vecOf)
    (hleft : left = a :: us)

theorem typeForm_of_ofName? {w : Token} {t : Ty} (hw : w.kind = .ident)
    (h : Ty.ofName? w.literal = some t) : TypeForm [w] t := by
  unfold Ty.ofName? at h
  by_cases hint : w.literal = utf8 "int"
  · rw [if_pos hint] at h
    cases h
    exact .int hw hint
  · rw [if_neg hint] at h
    by_cases hstr : w.literal = utf8 "str"
    · rw [if_pos hstr] at h
      cases h
      exact .str hw hstr
    · rw [if_neg hstr] at h
      by_cases hbool : w.literal = utf8 "bool"
      · rw [if_pos hbool] at h
        cases h
        exact .bool hw hbool
      · rw [if_neg hbool] at h
        cases h

theorem ends_typeRef (heof : s.eof.kind = .eof) (fuel : Nat) (rest : List Token) :
    Ends (typeRef s fuel rest) (TypeTaken rest) (fun _ _ => True) := by
  induction fuel generalizing rest with
  | zero => trivial
  | succ fuel ih =>
    rw [typeRef]
    refine ends_expect heof Kind.noConfusion fun w left hrest hw => ?_
    subst hrest
    cases hname : Ty.ofName? w.literal with
    | some t =>
      have htaken : w :: left = [w] ++ left := rfl
      exact .whole htaken (typeForm_of_ofName? hw hname)
    | none =>
      dsimp only
      split
      · trivial
      · rename_i hvec
        have hn : w.literal = utf8 "vec" := Decidable.not_not.1 hvec
        refine ends_expect heof Kind.noConfusion fun l left' hleft hl => ?_
        subst hleft
        refine ends_part (ih left') fun elem after helem => ?_
        rw [bind_eq_of_ok peek_eq]
        -- Only one `>=` can be cut: where the inner type left a `=`, the outer one is not closed.
        cases helem with
        | cut h hw' hn' hl' hu hq ha ht hafter =>
          have hnext : (next s after).kind = .assign := by
            rw [hafter]
            exact ha
          rw [if_neg (by rw [hnext]; exact Kind.noConfusion)]
          rw [bind_eq_of_error (expect_eq_of_ne (by rw [hnext]; exact Kind.noConfusion))]
          trivial
        | whole h ht =>
          subst h
          split
          · rename_i hq
            obtain ⟨q, us, hafter, hq⟩ := exists_cons_of_next heof hq Kind.noConfusion
            subst hafter
            exact .cut rfl hw hn hl ht hq rfl rfl rfl
          · refine ends_expect heof Kind.noConfusion fun r us hafter hr => ?_
            subst hafter
            refine .whole ?_ (.vec hw hn hl ht hr)
            simp

/-! ## Expressions -/

/-- What the expression parsers take with a given amount of fuel. -/
structure DerivesAt (s : Surroundings) (fuel : Nat) : Prop where
  expression : ∀ min ≤ 3, ∀ rest, Plain rest →
    Ends (expression s fuel min rest)
      (fun e left => (∃ ts, rest = ts ++ left ∧ Derives ts (.expr (min + 1) e.bare)) ∧
        Bounded s min left) (fun _ _ => True)
  operators : ∀ min ≤ 3, ∀ q, min < q → ∀ ts e rest, Plain rest → Derives ts (.expr q e.bare) →
    Continues s q rest →
    Ends (operators s fuel min e rest)
      (fun e' left => (∃ us, rest = us ++ left ∧ Derives (ts ++ us) (.expr (min + 1) e'.bare)) ∧
        Bounded s min left) (fun _ _ => True)
  unary : ∀ rest, Plain rest →
    Ends (unary s fuel rest)
      (fun e left => ∃ ts q, rest = ts ++ left ∧ 4 ≤ q ∧ Derives ts (.expr q e.bare) ∧
        Continues s q left) (fun _ _ => True)
  indices : ∀ ts e rest, Plain rest → Derives ts (.expr 5 e.bare) →
    Ends (indices s fuel e rest)
      (fun e' left => ∃ us, rest = us ++ left ∧ Derives (ts ++ us) (.expr 5 e'.bare))
      (fun _ _ => True)
  primary : ∀ rest, Plain rest →
    Ends (primary s fuel rest)
      (fun e left => ∃ ts, rest = ts ++ left ∧ Derives ts (.expr 6 e.bare)) (fun _ _ => True)
  call : ∀ t l rest, Plain rest →
    Ends (call s fuel (t :: l :: rest))
      (fun c left => ∃ ts r, rest = ts ++ r :: left ∧ Derives ts (.items (Expr.allBare c.1)) ∧
        r.kind = .rparen) (fun _ _ => True)
  items : ∀ closing, closing ≠ .eof → ∀ rest, Plain rest →
    Ends (items s fuel closing rest)
      (fun es left => ∃ ts, rest = ts ++ left ∧ Derives ts (.items (Expr.allBare es)))
      (fun _ _ => True)

section Step

variable {fuel : Nat} (heof : s.eof.kind = .eof) (ih : DerivesAt s fuel)
include heof ih

omit heof in
theorem ends_expression (min : Nat) (hmin : min ≤ 3) (rest : List Token) (hrest : Plain rest) :
    Ends (expression s (fuel + 1) min rest)
      (fun e left => (∃ ts, rest = ts ++ left ∧ Derives ts (.expr (min + 1) e.bare)) ∧
        Bounded s min left) (fun _ _ => True) := by
  rw [expression]
  refine ends_part (ih.unary rest hrest) fun e left he => ?_
  obtain ⟨ts, q, rfl, hq, hts, hnext⟩ := he
  refine (ih.operators min hmin q (by omega) ts e left hrest.right hts hnext).mono
    (fun e' left' h => ?_) (fun _ _ h => h)
  obtain ⟨⟨us, rfl, hus⟩, hbound⟩ := h
  exact ⟨⟨ts ++ us, by rw [List.append_assoc], hus⟩, hbound⟩

theorem ends_operators (min : Nat) (hmin : min ≤ 3) (q : Nat) (hq : min < q) (ts : List Token)
    (e : Expr) (rest : List Token) (hrest : Plain rest) (hts : Derives ts (.expr q e.bare))
    (hnext : Continues s q rest) :
    Ends (operators s (fuel + 1) min e rest)
      (fun e' left => (∃ us, rest = us ++ left ∧ Derives (ts ++ us) (.expr (min + 1) e'.bare)) ∧
        Bounded s min left) (fun _ _ => True) := by
  -- Where the loop stops, what it has is an expression of the level asked for.
  have hstop (h : Bounded s min rest) :
      (∃ us, rest = us ++ rest ∧ Derives (ts ++ us) (.expr (min + 1) e.bare)) ∧
        Bounded s min rest := by
    refine ⟨⟨[], rfl, ?_⟩, h⟩
    rw [List.append_nil]
    exact hts.loosen_le (Nat.succ_pos min) hq
  rw [operators, bind_eq_of_ok peek_eq]
  cases hop : binOp? (next s rest).kind with
  | none =>
    refine hstop fun op hsign => ?_
    rw [hsign, binOp?_sign] at hop
    cases hop
  | some op =>
    have hkind := eq_sign_of_binOp? hop
    dsimp only
    split
    · rename_i hle
      refine hstop fun op' hsign => ?_
      rw [← sign_inj (hkind.symm.trans hsign)]
      exact hle
    · rename_i hlt
      have hsign : sign op ≠ .eof := by cases op <;> exact Kind.noConfusion
      obtain ⟨t, left, rfl, ht⟩ := exists_cons_of_next heof hkind hsign
      rw [bind_eq_of_ok advance_cons]
      have hright : rightStrength op ≤ 3 := by cases op <;> decide
      refine ends_part (ih.expression _ hright left hrest.tail) fun right after hr => ?_
      obtain ⟨⟨us, rfl, hus⟩, hbound⟩ := hr
      -- The operand to the right took all that binds tighter, so what follows suits the whole.
      have hwhole : Derives (ts ++ t :: us)
          (.expr (strength op) (Expr.binary op e right (e.span.join right.span)).bare) := by
        rw [← levels_whole op]
        refine .binary (hts.loosen_le ?_ (hnext op hkind)) ht ?_
        · cases op <;> decide
        · rw [levels_right op]
          exact hus
      have hcontinues : Continues s (strength op) after :=
        hbound.continues hright (by cases op <;> decide)
      refine (ih.operators min hmin _ (by omega) _ _ after hrest.tail.right hwhole
        hcontinues).mono (fun e' left' h => ?_) (fun _ _ h => h)
      obtain ⟨⟨vs, rfl, hvs⟩, hbound'⟩ := h
      refine ⟨⟨t :: (us ++ vs), by simp, ?_⟩, hbound'⟩
      simpa using hvs

theorem ends_unary (rest : List Token) (hrest : Plain rest) :
    Ends (unary s (fuel + 1) rest)
      (fun e left => ∃ ts q, rest = ts ++ left ∧ 4 ≤ q ∧ Derives ts (.expr q e.bare) ∧
        Continues s q left) (fun _ _ => True) := by
  rw [unary]
  refine ends_ifAt heof Kind.noConfusion (fun t left hleft ht => ?_) fun _ => ?_
  · subst hleft
    rw [bind_eq_of_ok advance_cons]
    refine ends_part (ih.expression 3 (Nat.le_refl 3) left hrest.tail) fun e after he => ?_
    obtain ⟨⟨ts, rfl, hts⟩, hbound⟩ := he
    exact ⟨t :: ts, 4, rfl, Nat.le_refl 4, .neg ht hts,
      hbound.continues (Nat.le_refl 3) (by omega)⟩
  · refine ends_part (ih.primary rest hrest) fun target after htarget => ?_
    obtain ⟨ts, rfl, hts⟩ := htarget
    refine (ih.indices ts target after hrest.right (hts.loosen_le (by omega) (by omega))).mono
      (fun e left h => ?_) (fun _ _ h => h)
    obtain ⟨us, rfl, hus⟩ := h
    -- Every operator takes an operand with indices on its left.
    refine ⟨ts ++ us, 5, by rw [List.append_assoc], by omega, hus, fun op _ => ?_⟩
    cases op <;> decide

theorem ends_indices (ts : List Token) (e : Expr) (rest : List Token) (hrest : Plain rest)
    (hts : Derives ts (.expr 5 e.bare)) :
    Ends (indices s (fuel + 1) e rest)
      (fun e' left => ∃ us, rest = us ++ left ∧ Derives (ts ++ us) (.expr 5 e'.bare))
      (fun _ _ => True) := by
  rw [indices]
  refine ends_ifAt heof Kind.noConfusion (fun l left hleft hl => ?_) fun _ => ?_
  · subst hleft
    rw [bind_eq_of_ok advance_cons]
    refine ends_part (ih.expression 0 (Nat.zero_le 3) left hrest.tail) fun place after hp => ?_
    obtain ⟨⟨us, rfl, hus⟩, -⟩ := hp
    refine ends_expect heof Kind.noConfusion fun r after' hafter hr => ?_
    subst hafter
    have hindex : Derives (ts ++ l :: (us ++ [r]))
        (.expr 5 (Expr.index e place (e.span.join r.span)).bare) := .index hts hl hus hr
    refine (ih.indices _ _ after' hrest.tail.right.tail hindex).mono (fun e' left' h => ?_)
      (fun _ _ h => h)
    obtain ⟨vs, rfl, hvs⟩ := h
    refine ⟨l :: (us ++ r :: vs), by simp, ?_⟩
    simpa using hvs
  · exact ⟨[], rfl, by rw [List.append_nil]; exact hts⟩

theorem ends_items (closing : Kind) (hclosing : closing ≠ .eof) (rest : List Token)
    (hrest : Plain rest) :
    Ends (items s (fuel + 1) closing rest)
      (fun es left => ∃ ts, rest = ts ++ left ∧ Derives ts (.items (Expr.allBare es)))
      (fun _ _ => True) := by
  rw [items]
  refine ends_ifAt heof hclosing (fun t left hleft _ => ⟨[], hleft, .noItems⟩) fun _ => ?_
  refine ends_part (ih.expression 0 (Nat.zero_le 3) rest hrest) fun first left hfirst => ?_
  obtain ⟨⟨ts, rfl, hts⟩, -⟩ := hfirst
  refine ends_ifAt heof Kind.noConfusion (fun t after hafter ht => ?_) fun _ => ?_
  · subst hafter
    rw [bind_eq_of_ok advance_cons]
    refine ends_part (ih.items closing hclosing after hrest.right.tail) fun es after' hes => ?_
    obtain ⟨us, rfl, hus⟩ := hes
    exact ⟨ts ++ t :: us, by simp, .moreItems hts ht hus⟩
  · exact ⟨ts, rfl, .lastItem hts⟩

theorem ends_call (t l : Token) (rest : List Token) (hrest : Plain rest) :
    Ends (call s (fuel + 1) (t :: l :: rest))
      (fun c left => ∃ ts r, rest = ts ++ r :: left ∧ Derives ts (.items (Expr.allBare c.1)) ∧
        r.kind = .rparen) (fun _ _ => True) := by
  rw [call, bind_eq_of_ok advance_cons, bind_eq_of_ok advance_cons]
  refine ends_part (ih.items .rparen Kind.noConfusion rest hrest) fun args left hargs => ?_
  obtain ⟨ts, rfl, hts⟩ := hargs
  refine ends_expect heof Kind.noConfusion fun r after hafter hr => ?_
  subst hafter
  exact ⟨ts, r, rfl, hts, hr⟩

theorem ends_primary (rest : List Token) (hrest : Plain rest) :
    Ends (primary s (fuel + 1) rest)
      (fun e left => ∃ ts, rest = ts ++ left ∧ Derives ts (.expr 6 e.bare)) (fun _ _ => True) := by
  rw [primary, bind_eq_of_ok peek_eq]
  cases rest with
  | nil =>
    have hnext : (next s []).kind = .eof := heof
    rw [hnext]
    trivial
  | cons t rest =>
    have hnext : next s (t :: rest) = t := rfl
    rw [hnext]
    cases hk : t.kind with
    | int =>
      -- The tokens are plain, so the number is read and its fault cannot arise.
      have hn := (hrest t (List.mem_cons_self ..)).2 hk
      dsimp only
      rw [bind_eq_of_ok advance_cons, hn.readInt64_eq]
      exact ⟨[t], rfl, .int hk hn⟩
    | str => exact ⟨[t], rfl, .str hk⟩
    | kTrue => exact ⟨[t], rfl, .yes hk⟩
    | kFalse => exact ⟨[t], rfl, .no hk⟩
    | ident =>
      dsimp only
      rw [bind_eq_of_ok secondKind_cons]
      split
      · rename_i hl
        obtain ⟨l, rest, rfl, hl⟩ := exists_cons_of_next heof hl Kind.noConfusion
        refine ends_part (ih.call t l rest hrest.tail.tail) fun c left hc => ?_
        obtain ⟨ts, r, rfl, hts, hr⟩ := hc
        exact ⟨t :: l :: (ts ++ [r]), by simp, .call hk hl hts hr⟩
      · exact ⟨[t], rfl, .ident hk⟩
    | lparen =>
      dsimp only
      rw [bind_eq_of_ok advance_cons]
      refine ends_part (ih.expression 0 (Nat.zero_le 3) rest hrest.tail) fun inner left h => ?_
      obtain ⟨⟨ts, rfl, hts⟩, -⟩ := h
      refine ends_expect heof Kind.noConfusion fun r after hafter hr => ?_
      subst hafter
      exact ⟨t :: (ts ++ [r]), by simp, .paren hk hts hr⟩
    | lbracket =>
      dsimp only
      rw [bind_eq_of_ok advance_cons]
      refine ends_part (ih.items .rbracket Kind.noConfusion rest hrest.tail) fun es left h => ?_
      obtain ⟨ts, rfl, hts⟩ := h
      refine ends_expect heof Kind.noConfusion fun r after hafter hr => ?_
      subst hafter
      exact ⟨t :: (ts ++ [r]), by simp, .vec hk hts hr⟩
    | _ => trivial

end Step

/-- What is taken for an expression is one, by induction on the fuel. -/
theorem derivesAt (heof : s.eof.kind = .eof) (fuel : Nat) : DerivesAt s fuel := by
  induction fuel with
  | zero =>
    constructor
    · intro min _ rest _; rw [expression]; trivial
    · intro min _ q _ ts e rest _ _ _; rw [operators]; trivial
    · intro rest _; rw [unary]; trivial
    · intro ts e rest _ _; rw [indices]; trivial
    · intro rest _; rw [primary]; trivial
    · intro t l rest _; rw [call]; trivial
    · intro closing _ rest _; rw [items]; trivial
  | succ fuel ih =>
    exact ⟨ends_expression ih, ends_operators heof ih, ends_unary heof ih, ends_indices heof ih,
      ends_primary heof ih, ends_call heof ih, ends_items heof ih⟩

end Parser
end Scriptlet
