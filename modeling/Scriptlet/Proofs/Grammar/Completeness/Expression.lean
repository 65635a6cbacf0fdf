import Scriptlet.Proofs.Grammar.Steps

/-!
# Expression: every expression of the grammar is accepted

The parser reads an operand and goes on with the operators or indices behind it. So a derivation is
followed up to the point where the parser has read all its tokens and looks at what comes next; only
there it matters what that is. Fuel is counted against the tokens: each parser calls others a few
times before it has taken a token, and loops spend one unit a round.
-/

namespace Scriptlet

open Grammar

namespace Grammar

/-- The kinds an expression can begin with. -/
def Starts (k : Kind) : Prop :=
  k = .int ∨ k = .str ∨ k = .kTrue ∨ k = .kFalse ∨ k = .ident ∨ k = .lparen ∨ k = .lbracket ∨
    k = .minus

instance (k : Kind) : Decidable (Starts k) := inferInstanceAs (Decidable (_ ∨ _))

theorem Starts.ne_closing {k k' : Kind} (h : Starts k) (h' : k' = .rparen ∨ k' = .rbracket) :
    k ≠ k' := by
  rintro rfl
  rcases h' with rfl | rfl <;> revert h <;> decide

/-- Every expression has a first token, and only a negation begins with a minus. -/
theorem Derives.head {ts : List Token} {level : Nat} {e : Expr} (h : Derives ts (.expr level e)) :
    ∃ t us, ts = t :: us ∧ Starts t.kind ∧ (5 ≤ level → t.kind ≠ .minus) := by
  -- Items have no level, so the induction runs over all phrases and keeps the expressions.
  generalize hp : Phrase.expr level e = p at h
  induction h generalizing level e with
  | int hk _ | str hk | yes hk | no hk | ident hk =>
    refine ⟨_, [], rfl, ?_, fun _ => ?_⟩
    · rw [hk]; decide
    · rw [hk]; exact Kind.noConfusion
  | call hk hl _ hr | vec hk _ hr | paren hk _ hr =>
    refine ⟨_, _, rfl, ?_, fun _ => ?_⟩
    · rw [hk]; decide
    · rw [hk]; exact Kind.noConfusion
  | index _ _ _ _ ih =>
    obtain ⟨t, us, rfl, ht, hminus⟩ := ih rfl
    exact ⟨t, _, rfl, ht, fun _ => hminus (Nat.le_refl 5)⟩
  | neg hk _ =>
    cases hp
    refine ⟨_, _, rfl, ?_, fun h => absurd h (by omega)⟩
    rw [hk]
    decide
  | @binary op _ _ _ _ _ _ _ _ ih =>
    cases hp
    obtain ⟨t, us, rfl, ht, -⟩ := ih rfl
    refine ⟨t, _, rfl, ht, fun h => absurd h ?_⟩
    cases op <;> decide
  | loosen _ _ ih =>
    cases hp
    obtain ⟨t, us, rfl, ht, hminus⟩ := ih rfl
    exact ⟨t, us, rfl, ht, fun h => hminus (by omega)⟩
  | noItems | lastItem | moreItems => cases hp

end Grammar

namespace Parser

variable {s : Surroundings} {rest left : List Token} {fuel min : Nat} {t : Token} {e : Expr}

/-! ## Single steps of the loops -/

theorem operators_of_bounded (h : Bounded s min rest) :
    operators s (fuel + 1) min e rest = .ok e rest := by
  rw [operators, bind_eq_of_ok peek_eq]
  cases hop : binOp? (next s rest).kind with
  | none => rfl
  | some op =>
    have hle := h op (eq_sign_of_binOp? hop)
    dsimp only
    rw [if_pos hle]
    rfl

theorem operators_step {op : BinOp} {right : Expr} (hk : t.kind = sign op)
    (hmin : min < strength op)
    (h : expression s fuel (rightStrength op) rest = .ok right left) :
    operators s (fuel + 1) min e (t :: rest) =
      operators s fuel min (.binary op e right (e.span.join right.span)) left := by
  rw [operators, bind_eq_of_ok peek_cons, hk, binOp?_sign]
  dsimp only
  rw [if_neg (by omega), bind_eq_of_ok advance_cons, bind_eq_of_ok h]

theorem indices_of_ne (h : (next s rest).kind ≠ .lbracket) :
    indices s (fuel + 1) e rest = .ok e rest := by
  rw [indices, bind_eq_of_ok isAt_eq, beq_false_of_ne h]
  rfl

theorem indices_step {place : Expr} {r : Token} (hk : t.kind = .lbracket)
    (h : expression s fuel 0 rest = .ok place (r :: left)) (hr : r.kind = .rbracket) :
    indices s (fuel + 1) e (t :: rest) =
      indices s fuel (.index e place (e.span.join r.span)) left := by
  rw [indices, bind_eq_of_ok isAt_cons, hk, beq_self_eq_true, if_pos rfl,
    bind_eq_of_ok advance_cons, bind_eq_of_ok h, bind_eq_of_ok (expect_cons hr)]

theorem unary_minus {operand : Expr} (hk : t.kind = .minus)
    (h : expression s fuel 3 rest = .ok operand left) :
    unary s (fuel + 1) (t :: rest) = .ok (.neg operand (t.span.join operand.span)) left := by
  rw [unary, bind_eq_of_ok isAt_cons, hk, beq_self_eq_true, if_pos rfl,
    bind_eq_of_ok advance_cons, bind_eq_of_ok h]
  rfl

theorem unary_operand {target : Expr} (hk : (next s rest).kind ≠ .minus)
    (h : primary s fuel rest = .ok target left) :
    unary s (fuel + 1) rest = indices s fuel target left := by
  rw [unary, bind_eq_of_ok isAt_eq, beq_false_of_ne hk, if_neg Bool.false_ne_true,
    bind_eq_of_ok h]

theorem expression_eq {operand : Expr} (h : unary s fuel rest = .ok operand left) :
    expression s (fuel + 1) min rest = operators s fuel min operand left := by
  rw [expression, bind_eq_of_ok h]

theorem items_of_closing {closing : Kind} (h : (next s rest).kind = closing) :
    items s (fuel + 1) closing rest = .ok [] rest := by
  rw [items, bind_eq_of_ok isAt_eq, h, beq_self_eq_true]
  rfl

theorem items_last {closing : Kind} (hk : (next s rest).kind ≠ closing)
    (h : expression s fuel 0 rest = .ok e left) (hnext : (next s left).kind ≠ .comma) :
    items s (fuel + 1) closing rest = .ok [e] left := by
  rw [items, bind_eq_of_ok isAt_eq, beq_false_of_ne hk, if_neg Bool.false_ne_true,
    bind_eq_of_ok h, bind_eq_of_ok isAt_eq, beq_false_of_ne hnext]
  rfl

theorem items_more {closing : Kind} {es : List Expr} {end_ : List Token}
    (hk : (next s rest).kind ≠ closing) (h : expression s fuel 0 rest = .ok e (t :: left))
    (ht : t.kind = .comma) (hes : items s fuel closing left = .ok es end_) :
    items s (fuel + 1) closing rest = .ok (e :: es) end_ := by
  rw [items, bind_eq_of_ok isAt_eq, beq_false_of_ne hk, if_neg Bool.false_ne_true,
    bind_eq_of_ok h, bind_eq_of_ok isAt_cons, ht, beq_self_eq_true, if_pos rfl,
    bind_eq_of_ok advance_cons, bind_eq_of_ok hes]
  rfl

theorem call_eq {l r : Token} {es : List Expr} (h : items s fuel .rparen rest = .ok es (r :: left))
    (hr : r.kind = .rparen) :
    call s (fuel + 1) (t :: l :: rest) = .ok (es, t.span.join r.span) left := by
  rw [call, bind_eq_of_ok advance_cons, bind_eq_of_ok advance_cons, bind_eq_of_ok h,
    bind_eq_of_ok (expect_cons hr)]
  rfl

/-! ## Following a derivation -/

/-- A primary is read whole; a name must not look like a call. -/
def ReadsPrimary (s : Surroundings) (ts : List Token) (e : Expr) : Prop :=
  ∀ fuel rest, 8 * ts.length ≤ fuel → (next s rest).kind ≠ .lparen →
    ∃ e', e'.bare = e ∧ primary s fuel (ts ++ rest) = .ok e' rest

/-- Reading an operand comes to the indices that may follow it. -/
def ReadsOperand (s : Surroundings) (ts : List Token) (e : Expr) : Prop :=
  ∀ fuel rest, 8 * ts.length + 1 ≤ fuel → (next s rest).kind ≠ .lparen →
    ∃ e' fuel', e'.bare = e ∧ fuel ≤ fuel' + ts.length ∧
      unary s fuel (ts ++ rest) = indices s fuel' e' rest

/-- Reading an expression of a level comes to the operators that may follow it. -/
def ReadsOperation (s : Surroundings) (level : Nat) (ts : List Token) (e : Expr) : Prop :=
  ∀ min, min < level → min ≤ 3 → ∀ fuel rest, 8 * ts.length + 2 ≤ fuel →
    (next s rest).kind ≠ .lparen → (next s rest).kind ≠ .lbracket → Continues s level rest →
    ∃ e' fuel', e'.bare = e ∧ fuel ≤ fuel' + ts.length ∧
      expression s fuel min (ts ++ rest) = operators s fuel' min e' rest

/-- Items are read up to the token that closes them. -/
def ReadsItems (s : Surroundings) (ts : List Token) (es : List Expr) : Prop :=
  ∀ (r : Token) fuel rest, r.kind = .rparen ∨ r.kind = .rbracket → 8 * ts.length + 3 ≤ fuel →
    ∃ es', Expr.allBare es' = es ∧ items s fuel r.kind (ts ++ r :: rest) = .ok es' (r :: rest)

/-- What reading the tokens of a phrase comes to. -/
def Reads (s : Surroundings) (ts : List Token) : Phrase → Prop
  | .expr level e =>
    (6 ≤ level → ReadsPrimary s ts e) ∧ (level = 5 → ReadsOperand s ts e) ∧
      (level ≤ 5 → ReadsOperation s level ts e)
  | .items es => ReadsItems s ts es

variable {ts : List Token} {level : Nat}

/-- Where no operator follows that binds tighter, the expression is complete. -/
theorem ReadsOperation.expression_eq (h : ReadsOperation s level ts e) (hmin : min < level)
    (hmin3 : min ≤ 3) (hfuel : 8 * ts.length + 2 ≤ fuel) (hparen : (next s rest).kind ≠ .lparen)
    (hbracket : (next s rest).kind ≠ .lbracket) (hbound : Bounded s min rest) :
    ∃ e', e'.bare = e ∧ expression s fuel min (ts ++ rest) = .ok e' rest := by
  obtain ⟨e', fuel', he, hfuel', hx⟩ := h min hmin hmin3 fuel rest hfuel hparen hbracket
    (hbound.continues hmin3 (Nat.le_of_lt hmin))
  obtain ⟨f, rfl⟩ := Nat.exists_eq_add_of_le' (show 1 ≤ fuel' by omega)
  exact ⟨e', he, hx.trans (operators_of_bounded hbound)⟩

/-- The kinds after which an expression is over. -/
def Closes (k : Kind) : Prop :=
  k = .semicolon ∨ k = .comma ∨ k = .rparen ∨ k = .rbracket ∨ k = .lcurly

instance (k : Kind) : Decidable (Closes k) := inferInstanceAs (Decidable (_ ∨ _))

/-- An expression is read whole where it is closed. -/
theorem ReadsOperation.closed (h : ReadsOperation s 1 ts e) (hfuel : 8 * ts.length + 2 ≤ fuel)
    (hk : Closes t.kind) :
    ∃ e', e'.bare = e ∧ expression s fuel 0 (ts ++ t :: rest) = .ok e' (t :: rest) := by
  refine h.expression_eq (by omega) (by omega) hfuel ?_ ?_ ?_
  · intro hparen
    rw [next_cons] at hparen
    rw [hparen] at hk
    revert hk
    decide
  · intro hbracket
    rw [next_cons] at hbracket
    rw [hbracket] at hk
    revert hk
    decide
  · intro op hop
    rw [next_cons] at hop
    rw [hop] at hk
    revert hk
    cases op <;> decide

theorem ReadsPrimary.operand (h : ReadsPrimary s ts e) {t : Token} {us : List Token}
    (hts : ts = t :: us) (ht : t.kind ≠ .minus) : ReadsOperand s ts e := by
  intro fuel rest hfuel hparen
  obtain ⟨f, rfl⟩ := Nat.exists_eq_add_of_le' (show 1 ≤ fuel by omega)
  obtain ⟨e', he, hx⟩ := h f rest (by omega) hparen
  have hlength : 1 ≤ ts.length := by rw [hts]; exact Nat.succ_pos _
  have hnext : (next s (ts ++ rest)).kind ≠ .minus := by rw [hts]; exact ht
  exact ⟨e', f, he, by omega, unary_operand hnext hx⟩

theorem ReadsOperand.operation (h : ReadsOperand s ts e) (hts : 1 ≤ ts.length) :
    ReadsOperation s 5 ts e := by
  intro min hmin hmin3 fuel rest hfuel hparen hbracket _
  obtain ⟨f, rfl⟩ := Nat.exists_eq_add_of_le' (show 1 ≤ fuel by omega)
  obtain ⟨e', fuel', he, hfuel', hx⟩ := h f rest (by omega) hparen
  obtain ⟨f', rfl⟩ := Nat.exists_eq_add_of_le' (show 1 ≤ fuel' by omega)
  -- No index follows, so the operand ends here.
  rw [indices_of_ne hbracket] at hx
  exact ⟨e', f, he, by omega, expression_eq hx⟩

/-- What is read at a level is read at every looser one, where less may follow. -/
theorem ReadsOperation.loosen (h : ReadsOperation s (level + 1) ts e) :
    ReadsOperation s level ts e :=
  fun min hmin hmin3 fuel rest hfuel hparen hbracket hnext =>
    h min (Nat.lt_succ_of_lt hmin) hmin3 fuel rest hfuel hparen hbracket
      fun op hop => Nat.le_succ_of_le (hnext op hop)

theorem ReadsOperation.binary {op : BinOp} {us : List Token} {a b : Expr}
    (ha : ReadsOperation s (levels op).left ts a) (ht : t.kind = sign op)
    (hb : ReadsOperation s (levels op).right us b) :
    ReadsOperation s (levels op).whole (ts ++ t :: us) (.binary op a b .origin) := by
  intro min hmin hmin3 fuel rest hfuel hparen hbracket hnext
  simp only [List.length_append, List.length_cons] at hfuel
  have hleft : (levels op).whole ≤ (levels op).left := by cases op <;> decide
  have hsign : sign op ≠ .lparen ∧ sign op ≠ .lbracket := by cases op <;> decide
  have hcontinues : Continues s (levels op).left (t :: (us ++ rest)) := by
    intro op' hop
    rw [next_cons, ht] at hop
    cases sign_inj hop
    exact Nat.le_refl _
  -- Reading the left operand comes to the operator,
  obtain ⟨a', f, ha', hf, hx⟩ := ha min (by omega) hmin3 fuel (t :: (us ++ rest)) (by omega)
    (by rw [next_cons, ht]; exact hsign.1) (by rw [next_cons, ht]; exact hsign.2) hcontinues
  obtain ⟨f, rfl⟩ := Nat.exists_eq_add_of_le' (show 1 ≤ f by omega)
  -- after which the right operand is complete, as nothing tighter follows.
  have hfuel' : 8 * us.length + 2 ≤ f := by omega
  obtain ⟨b', hb', hy⟩ := hb.expression_eq (by rw [levels_right]; exact Nat.lt_succ_self _)
    (by cases op <;> decide) hfuel' hparen hbracket (hnext.bounded op)
  rw [levels_whole] at hmin
  refine ⟨.binary op a' b' (a'.span.join b'.span), f, ?_, ?_, ?_⟩
  · rw [Expr.bare, ha', hb']
  · simp only [List.length_append, List.length_cons]
    omega
  · rw [List.append_assoc, List.cons_append, hx]
    exact operators_step ht hmin hy

theorem ReadsOperation.neg (h : ReadsOperation s 4 ts e) (ht : t.kind = .minus) :
    ReadsOperation s 4 (t :: ts) (.neg e .origin) := by
  intro min _ hmin3 fuel rest hfuel hparen hbracket hnext
  simp only [List.length_cons] at hfuel
  obtain ⟨f, rfl⟩ := Nat.exists_eq_add_of_le' (show 2 ≤ fuel by omega)
  -- A minus takes its operand as a power takes its exponent.
  have hbound : Bounded s 3 rest := hnext.bounded .pow
  have hfuel' : 8 * ts.length + 2 ≤ f := by omega
  obtain ⟨e', he, hx⟩ := h.expression_eq (by omega) (by omega) hfuel' hparen hbracket hbound
  refine ⟨.neg e' (t.span.join e'.span), f + 1, ?_, ?_, ?_⟩
  · rw [Expr.bare, he]
  · simp only [List.length_cons]
    omega
  · exact Parser.expression_eq (unary_minus ht hx)

theorem ReadsOperand.index {l r : Token} {us : List Token} {target place : Expr}
    (h : ReadsOperand s ts target) (hl : l.kind = .lbracket) (h' : ReadsOperation s 1 us place)
    (hr : r.kind = .rbracket) :
    ReadsOperand s (ts ++ l :: (us ++ [r])) (.index target place .origin) := by
  intro fuel rest hfuel hparen
  simp only [List.length_append, List.length_cons, List.length_nil] at hfuel
  obtain ⟨target', f, ht, hf, hx⟩ := h fuel (l :: (us ++ r :: rest)) (by omega)
    (by rw [next_cons, hl]; exact Kind.noConfusion)
  obtain ⟨f, rfl⟩ := Nat.exists_eq_add_of_le' (show 1 ≤ f by omega)
  have hfuel' : 8 * us.length + 2 ≤ f := by omega
  obtain ⟨place', hp, hy⟩ := h'.closed hfuel' (by rw [hr]; decide)
  refine ⟨.index target' place' (target'.span.join r.span), f, ?_, ?_, ?_⟩
  · rw [Expr.bare, ht, hp]
  · simp only [List.length_append, List.length_cons, List.length_nil]
    omega
  · rw [List.append_assoc, List.cons_append, List.append_assoc, List.singleton_append, hx]
    exact indices_step hl hy hr

theorem ReadsItems.none : ReadsItems s [] [] := by
  intro r fuel rest _ hfuel
  obtain ⟨f, rfl⟩ := Nat.exists_eq_add_of_le' (show 1 ≤ fuel by omega)
  exact ⟨[], rfl, items_of_closing rfl⟩

theorem ReadsItems.last {us : List Token} (h : ReadsOperation s 1 ts e) (hts : ts = t :: us)
    (ht : Starts t.kind) : ReadsItems s ts [e] := by
  intro r fuel rest hr hfuel
  obtain ⟨f, rfl⟩ := Nat.exists_eq_add_of_le' (show 1 ≤ fuel by omega)
  have hfuel' : 8 * ts.length + 2 ≤ f := by omega
  have hcloses : Closes r.kind := by rcases hr with hr | hr <;> rw [hr] <;> decide
  have hcomma : r.kind ≠ .comma := by rcases hr with hr | hr <;> rw [hr] <;> decide
  obtain ⟨e', he, hx⟩ := h.closed hfuel' hcloses
  refine ⟨[e'], ?_, items_last ?_ hx hcomma⟩
  · rw [Expr.allBare, he, Expr.allBare]
  · rw [hts]
    exact ht.ne_closing hr

theorem ReadsItems.more {c : Token} {us vs : List Token} {es : List Expr}
    (h : ReadsOperation s 1 ts e) (hts : ts = t :: us) (ht : Starts t.kind)
    (hc : c.kind = .comma) (h' : ReadsItems s vs es) : ReadsItems s (ts ++ c :: vs) (e :: es) := by
  intro r fuel rest hr hfuel
  simp only [List.length_append, List.length_cons] at hfuel
  obtain ⟨f, rfl⟩ := Nat.exists_eq_add_of_le' (show 1 ≤ fuel by omega)
  have hfuel' : 8 * ts.length + 2 ≤ f := by omega
  obtain ⟨e', he, hx⟩ := h.closed hfuel' (by rw [hc]; decide)
  obtain ⟨es', hes, hy⟩ := h' r f rest hr (by omega)
  rw [List.append_assoc, List.cons_append]
  refine ⟨e' :: es', ?_, items_more ?_ hx hc hy⟩
  · rw [Expr.allBare, he, hes]
  · rw [hts]
    exact ht.ne_closing hr

/-! ## Primaries -/

/-- A primary of one token that does not look further. -/
theorem ReadsPrimary.of_token (e' : Expr) (he : e'.bare = e)
    (h : ∀ fuel rest, (next s rest).kind ≠ .lparen →
      primary s (fuel + 1) (t :: rest) = .ok e' rest) :
    ReadsPrimary s [t] e := by
  intro fuel rest hfuel hparen
  simp only [List.length_singleton] at hfuel
  obtain ⟨f, rfl⟩ := Nat.exists_eq_add_of_le' (show 1 ≤ fuel by omega)
  exact ⟨e', he, h f rest hparen⟩

theorem ReadsPrimary.int (hk : t.kind = .int) (hn : Numeral t.literal) :
    ReadsPrimary s [t] (.int (Int64.ofNat (decimalValue t.literal)) .origin) := by
  refine .of_token (.int _ t.span) rfl fun fuel rest _ => ?_
  rw [primary, bind_eq_of_ok peek_cons, hk]
  dsimp only
  rw [bind_eq_of_ok advance_cons, hn.readInt64_eq]
  rfl

theorem ReadsPrimary.str (hk : t.kind = .str) : ReadsPrimary s [t] (.str t.literal .origin) := by
  refine .of_token (.str t.literal t.span) rfl fun fuel rest _ => ?_
  rw [primary, bind_eq_of_ok peek_cons, hk]
  rfl

theorem ReadsPrimary.yes (hk : t.kind = .kTrue) : ReadsPrimary s [t] (.bool true .origin) := by
  refine .of_token (.bool true t.span) rfl fun fuel rest _ => ?_
  rw [primary, bind_eq_of_ok peek_cons, hk]
  rfl

theorem ReadsPrimary.no (hk : t.kind = .kFalse) : ReadsPrimary s [t] (.bool false .origin) := by
  refine .of_token (.bool false t.span) rfl fun fuel rest _ => ?_
  rw [primary, bind_eq_of_ok peek_cons, hk]
  rfl

theorem ReadsPrimary.ident (hk : t.kind = .ident) :
    ReadsPrimary s [t] (.ident t.literal .origin) := by
  refine .of_token (.ident t.literal t.span) rfl fun fuel rest hparen => ?_
  rw [primary, bind_eq_of_ok peek_cons, hk]
  dsimp only
  rw [bind_eq_of_ok secondKind_cons, if_neg hparen]
  rfl

theorem ReadsPrimary.call {l r : Token} {es : List Expr} (hk : t.kind = .ident)
    (hl : l.kind = .lparen) (h : ReadsItems s ts es) (hr : r.kind = .rparen) :
    ReadsPrimary s (t :: l :: (ts ++ [r])) (.call t.literal .origin es .origin) := by
  intro fuel rest hfuel _
  simp only [List.length_append, List.length_cons, List.length_nil] at hfuel
  obtain ⟨f, rfl⟩ := Nat.exists_eq_add_of_le' (show 2 ≤ fuel by omega)
  obtain ⟨es', hes, hx⟩ := h r f rest (.inl hr) (by omega)
  rw [hr] at hx
  refine ⟨.call t.literal t.span es' (t.span.join r.span), ?_, ?_⟩
  · rw [Expr.bare, hes]
  · simp only [List.cons_append, List.append_assoc, List.nil_append]
    rw [primary, bind_eq_of_ok peek_cons, hk]
    dsimp only
    rw [bind_eq_of_ok secondKind_cons, next_cons, if_pos hl, bind_eq_of_ok (call_eq hx hr)]
    rfl

theorem ReadsPrimary.vec {l r : Token} {es : List Expr} (hl : l.kind = .lbracket)
    (h : ReadsItems s ts es) (hr : r.kind = .rbracket) :
    ReadsPrimary s (l :: (ts ++ [r])) (.vec es .origin) := by
  intro fuel rest hfuel _
  simp only [List.length_append, List.length_cons, List.length_nil] at hfuel
  obtain ⟨f, rfl⟩ := Nat.exists_eq_add_of_le' (show 1 ≤ fuel by omega)
  obtain ⟨es', hes, hx⟩ := h r f rest (.inr hr) (by omega)
  rw [hr] at hx
  refine ⟨.vec es' (l.span.join r.span), ?_, ?_⟩
  · rw [Expr.bare, hes]
  · simp only [List.cons_append, List.append_assoc, List.nil_append]
    rw [primary, bind_eq_of_ok peek_cons, hl]
    dsimp only
    rw [bind_eq_of_ok advance_cons, bind_eq_of_ok hx, bind_eq_of_ok (expect_cons hr)]
    rfl

theorem ReadsPrimary.paren {l r : Token} (hl : l.kind = .lparen) (h : ReadsOperation s 1 ts e)
    (hr : r.kind = .rparen) : ReadsPrimary s (l :: (ts ++ [r])) e := by
  intro fuel rest hfuel _
  simp only [List.length_append, List.length_cons, List.length_nil] at hfuel
  obtain ⟨f, rfl⟩ := Nat.exists_eq_add_of_le' (show 1 ≤ fuel by omega)
  have hfuel' : 8 * ts.length + 2 ≤ f := by omega
  obtain ⟨e', he, hx⟩ := h.closed hfuel' (by rw [hr]; decide)
  refine ⟨e', he, ?_⟩
  simp only [List.cons_append, List.append_assoc, List.nil_append]
  rw [primary, bind_eq_of_ok peek_cons, hl]
  dsimp only
  rw [bind_eq_of_ok advance_cons, bind_eq_of_ok hx, bind_eq_of_ok (expect_cons hr)]
  rfl

/-! ## Every derivation -/

theorem ReadsPrimary.reads (h : ReadsPrimary s ts e) : Reads s ts (.expr 6 e) :=
  ⟨fun _ => h, fun h6 => absurd h6 (by decide), fun h6 => absurd h6 (by decide)⟩

theorem ReadsOperand.reads (h : ReadsOperand s ts e) (hts : 1 ≤ ts.length) :
    Reads s ts (.expr 5 e) :=
  ⟨fun h5 => absurd h5 (by decide), fun _ => h, fun _ => h.operation hts⟩

theorem ReadsOperation.reads (h : ReadsOperation s level ts e) (hlevel : level ≤ 4) :
    Reads s ts (.expr level e) :=
  ⟨fun _ => by omega, fun _ => by omega, fun _ => h⟩

/-- What the grammar derives is read. -/
theorem reads {p : Phrase} (h : Derives ts p) : Reads s ts p := by
  induction h with
  | int hk hn => exact (ReadsPrimary.int hk hn).reads
  | str hk => exact (ReadsPrimary.str hk).reads
  | yes hk => exact (ReadsPrimary.yes hk).reads
  | no hk => exact (ReadsPrimary.no hk).reads
  | ident hk => exact (ReadsPrimary.ident hk).reads
  | call hk hl _ hr ih => exact (ReadsPrimary.call hk hl ih hr).reads
  | vec hl _ hr ih => exact (ReadsPrimary.vec hl ih hr).reads
  | paren hl _ hr ih => exact (ReadsPrimary.paren hl (ih.2.2 (by decide)) hr).reads
  | index _ hl _ hr ih ih' =>
    refine ((ih.2.1 rfl).index hl (ih'.2.2 (by decide)) hr).reads ?_
    simp only [List.length_append, List.length_cons]
    omega
  | neg hk _ ih => exact ((ih.2.2 (by decide)).neg hk).reads (by decide)
  | @binary op _ _ _ _ _ _ hk _ ih ih' =>
    have hleft : (levels op).left ≤ 5 := by cases op <;> decide
    have hright : (levels op).right ≤ 5 := by cases op <;> decide
    have hwhole : (levels op).whole ≤ 4 := by cases op <;> decide
    exact ((ih.2.2 hleft).binary hk (ih'.2.2 hright)).reads hwhole
  | @loosen level ts e _ h ih =>
    by_cases h6 : 6 ≤ level
    · exact ⟨fun _ => ih.1 (by omega), fun _ => by omega, fun _ => by omega⟩
    · by_cases h5 : level = 5
      · -- A primary is an operand, as it does not begin with a minus.
        subst h5
        obtain ⟨t, us, hts, -, hminus⟩ := h.head
        have hlength : 1 ≤ ts.length := by rw [hts]; exact Nat.succ_pos _
        exact ((ih.1 (by decide)).operand hts (hminus (by decide))).reads hlength
      · exact (ih.2.2 (by omega)).loosen.reads (by omega)
  | noItems => exact .none
  | lastItem h ih =>
    obtain ⟨t, us, hts, ht, -⟩ := h.head
    exact .last (ih.2.2 (by decide)) hts ht
  | moreItems h hk _ ih ih' =>
    obtain ⟨t, us, hts, ht, -⟩ := h.head
    exact .more (ih.2.2 (by decide)) hts ht hk ih'

/-- An expression of the grammar is read whole where it is closed. -/
theorem expression_of_derives (s : Surroundings) (rest : List Token) (h : Derives ts (.expr 1 e))
    (hfuel : 8 * ts.length + 2 ≤ fuel) (ht : Closes t.kind) :
    ∃ e', e'.bare = e ∧ expression s fuel 0 (ts ++ t :: rest) = .ok e' (t :: rest) :=
  ((reads h).2.2 (by decide)).closed hfuel ht

end Parser
end Scriptlet
