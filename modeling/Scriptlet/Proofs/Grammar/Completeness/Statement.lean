import Scriptlet.Proofs.Grammar.Completeness.Expression

/-!
# Statement: every program of the grammar is accepted

Each statement parser reads the pieces the grammar gives it, at any surroundings that stand for the
place of the piece. The only look beyond the end of a statement is for an `else`, and what can
follow a statement never begins with one.
-/

namespace Scriptlet

open Grammar

namespace Grammar

/-- The kinds a statement can begin with. -/
def Begins (k : Kind) : Prop :=
  k = .kLet ∨ k = .ident ∨ k = .kIf ∨ k = .kLoop ∨ k = .kBreak ∨ k = .kReturn ∨ k = .kExit ∨
    k = .kFn

instance (k : Kind) : Decidable (Begins k) := inferInstanceAs (Decidable (_ ∨ _))

/-- Every statement has a first token. -/
theorem Forms.head {c : Place} {ts : List Token} {st : Stmt} (h : Forms c ts (.stmt st)) :
    ∃ t us, ts = t :: us ∧ Begins t.kind := by
  cases h with
  | letVar hk _ _ _ _ | assign hk _ _ _ | assignAt hk _ _ _ _ _ _ | call hk _ _ _ _ =>
    refine ⟨_, _, rfl, ?_⟩
    rw [hk]
    decide
  | when hk _ _ | ifElse hk _ _ _ _ | elseIf hk _ _ _ _ _ | loop hk _ =>
    refine ⟨_, _, rfl, ?_⟩
    rw [hk]
    decide
  | stop hk _ _ | ret hk _ _ | retValue hk _ _ _ | exit hk _ _ | fn hk _ _ _ _ _ _ _ =>
    refine ⟨_, _, rfl, ?_⟩
    rw [hk]
    decide

theorem Begins.ne_else {k : Kind} (h : Begins k) : k ≠ .kElse := by
  rintro rfl
  revert h
  decide

end Grammar

namespace Parser

variable {s : Surroundings} {fuel : Nat} {ts rest left : List Token} {t : Token}

/-! ## Types and parameters -/

theorem ofName?_vec : Ty.ofName? (utf8 "vec") = none := by decide

theorem typeRef_named {w : Token} {type : Ty} (hw : w.kind = .ident)
    (h : Ty.ofName? w.literal = some type) :
    typeRef s (fuel + 1) (w :: rest) = .ok type rest := by
  rw [typeRef, bind_eq_of_ok (expect_cons hw), h]
  rfl

theorem typeRef_vec {w l r : Token} {type : Ty} (hw : w.kind = .ident)
    (hn : w.literal = utf8 "vec") (hl : l.kind = .lt)
    (h : typeRef s fuel rest = .ok type (r :: left)) (hr : r.kind = .gt) :
    typeRef s (fuel + 1) (w :: l :: rest) = .ok type.vecOf left := by
  have hne : r.kind ≠ .gtEq := by rw [hr]; decide
  rw [typeRef, bind_eq_of_ok (expect_cons hw), hn, ofName?_vec]
  dsimp only
  rw [if_neg (by simp), bind_eq_of_ok (expect_cons hl), bind_eq_of_ok h,
    bind_eq_of_ok peek_cons, if_neg hne, bind_eq_of_ok (expect_cons hr)]
  rfl

/-- A `>=` closes the type, and its `=` is what is read next. -/
theorem typeRef_joined {w l q : Token} {type : Ty} (hw : w.kind = .ident)
    (hn : w.literal = utf8 "vec") (hl : l.kind = .lt)
    (h : typeRef s fuel rest = .ok type (q :: left)) (hq : q.kind = .gtEq) :
    ∃ a : Token, a.kind = .assign ∧
      typeRef s (fuel + 1) (w :: l :: rest) = .ok type.vecOf (a :: left) := by
  refine ⟨⟨.assign, [], q.span.tail⟩, rfl, ?_⟩
  rw [typeRef, bind_eq_of_ok (expect_cons hw), hn, ofName?_vec]
  dsimp only
  rw [if_neg (by simp), bind_eq_of_ok (expect_cons hl), bind_eq_of_ok h,
    bind_eq_of_ok peek_cons, if_pos hq]
  rfl

theorem typeRef_of_form {type : Ty} (h : TypeForm ts type) (hfuel : ts.length ≤ fuel) :
    typeRef s fuel (ts ++ rest) = .ok type rest := by
  induction h generalizing fuel rest with
  | int hw hn | str hw hn | bool hw hn =>
    simp only [List.length_singleton] at hfuel
    obtain ⟨f, rfl⟩ := Nat.exists_eq_add_of_le' hfuel
    exact typeRef_named hw (by rw [hn]; decide)
  | vec hw hn hl _ hr ih =>
    simp only [List.length_append, List.length_cons, List.length_nil] at hfuel
    obtain ⟨f, rfl⟩ := Nat.exists_eq_add_of_le' (show 1 ≤ fuel by omega)
    simp only [List.cons_append, List.append_assoc, List.nil_append]
    exact typeRef_vec hw hn hl (ih (by omega)) hr

theorem optionalType_of_ne {mark : Kind} (h : (next s rest).kind ≠ mark) :
    optionalType s fuel mark rest = .ok none rest := by
  rw [optionalType, bind_eq_of_ok isAt_eq, beq_false_of_ne h]
  rfl

theorem optionalType_marked {type : Ty} (h : typeRef s fuel rest = .ok type left) :
    optionalType s fuel t.kind (t :: rest) = .ok (some type) left := by
  rw [optionalType, bind_eq_of_ok isAt_cons, beq_self_eq_true, if_pos rfl,
    bind_eq_of_ok advance_cons, bind_eq_of_ok h]
  rfl

/-- After the type of a new variable there is an `=`, whichever way it was written. -/
theorem optionalType_of_annotation (s : Surroundings) (rest : List Token) {type : Option Ty}
    (h : Annotation ts type) (hfuel : ts.length ≤ fuel) :
    ∃ q : Token, q.kind = .assign ∧
      optionalType s fuel .colon (ts ++ rest) = .ok type (q :: rest) := by
  cases h with
  | @plain q hq =>
    refine ⟨q, hq, optionalType_of_ne ?_⟩
    rw [List.singleton_append, next_cons, hq]
    decide
  | @typed c q us type hc h hq =>
    simp only [List.length_append, List.length_cons] at hfuel
    refine ⟨q, hq, ?_⟩
    simp only [List.cons_append, List.append_assoc, List.nil_append]
    rw [← hc]
    exact optionalType_marked (typeRef_of_form h (by omega))
  | @joined c w l q us type hc hw hn hl h hq =>
    -- The element type is read whole, and the `>=` behind it closes the vector.
    simp only [List.length_append, List.length_cons] at hfuel
    obtain ⟨f, rfl⟩ := Nat.exists_eq_add_of_le' (show 1 ≤ fuel by omega)
    have helem : typeRef s f (us ++ q :: rest) = .ok type (q :: rest) :=
      typeRef_of_form h (by omega)
    obtain ⟨a, ha, hx⟩ := typeRef_joined hw hn hl helem hq
    refine ⟨a, ha, ?_⟩
    simp only [List.cons_append, List.append_assoc, List.nil_append]
    rw [← hc]
    exact optionalType_marked hx

theorem optionalType_of_result {result : Option Ty} (h : ResultForm ts result)
    (hfuel : ts.length ≤ fuel) (hnext : (next s rest).kind ≠ .arrow) :
    optionalType s fuel .arrow (ts ++ rest) = .ok result rest := by
  cases h with
  | none => exact optionalType_of_ne hnext
  | some ha h =>
    rw [← ha]
    exact optionalType_marked (typeRef_of_form h (Nat.le_of_succ_le hfuel))

theorem params_of_form (s : Surroundings) (rest : List Token) {r : Token} {ps : List Param}
    (h : ParamsForm ts ps) (hr : r.kind = .rparen) (seen : List Bytes)
    (hnodup : (ps.map Param.name).Nodup) (hnew : ∀ p ∈ ps, p.name ∉ seen)
    (hfuel : ts.length + 1 ≤ fuel) :
    ∃ ps', ps'.map Param.bare = ps ∧
      params s seen fuel (ts ++ r :: rest) = .ok ps' (r :: rest) := by
  induction h generalizing seen fuel with
  | none =>
    obtain ⟨f, rfl⟩ := Nat.exists_eq_add_of_le' (show 1 ≤ fuel by omega)
    refine ⟨[], rfl, ?_⟩
    rw [List.nil_append, params, bind_eq_of_ok isAt_cons, hr]
    rfl
  | @last x c us type hx hc h =>
    simp only [List.length_cons] at hfuel
    obtain ⟨f, rfl⟩ := Nat.exists_eq_add_of_le' (show 1 ≤ fuel by omega)
    have htype : typeRef s f (us ++ r :: rest) = .ok type (r :: rest) :=
      typeRef_of_form h (by omega)
    have hfresh : seen.contains x.literal = false := by
      simpa using hnew _ (List.mem_cons_self ..)
    refine ⟨[⟨x.literal, type, x.span⟩], rfl, ?_⟩
    simp only [List.cons_append]
    rw [params, bind_eq_of_ok isAt_cons, hx, if_neg (by decide), bind_eq_of_ok (expect_cons hx),
      hfresh, if_neg (by decide), bind_eq_of_ok (expect_cons hc), bind_eq_of_ok htype,
      bind_eq_of_ok isAt_cons, hr]
    rfl
  | @more x c d us vs type ps hx hc h hd _ ih =>
    simp only [List.length_append, List.length_cons] at hfuel
    obtain ⟨f, rfl⟩ := Nat.exists_eq_add_of_le' (show 1 ≤ fuel by omega)
    have htype : typeRef s f (us ++ d :: (vs ++ r :: rest)) = .ok type (d :: (vs ++ r :: rest)) :=
      typeRef_of_form h (by omega)
    have hfresh : seen.contains x.literal = false := by
      simpa using hnew _ (List.mem_cons_self ..)
    obtain ⟨hx', hnodup'⟩ := List.nodup_cons.1 hnodup
    -- The names that follow are new to the list and differ from this one.
    have hnew' : ∀ p ∈ ps, p.name ∉ x.literal :: seen := by
      intro p hp hmem
      rcases List.mem_cons.1 hmem with hname | hmem
      · have hp' : p.name ∈ ps.map Param.name := List.mem_map_of_mem hp
        rw [hname] at hp'
        exact hx' hp'
      · exact hnew p (List.mem_cons_of_mem _ hp) hmem
    obtain ⟨ps', hps, hy⟩ := ih (x.literal :: seen) hnodup' hnew' (show vs.length + 1 ≤ f by omega)
    refine ⟨⟨x.literal, type, x.span⟩ :: ps', by rw [List.map_cons, hps]; rfl, ?_⟩
    simp only [List.cons_append, List.append_assoc]
    rw [params, bind_eq_of_ok isAt_cons, hx, if_neg (by decide), bind_eq_of_ok (expect_cons hx),
      hfresh, if_neg (by decide), bind_eq_of_ok (expect_cons hc), bind_eq_of_ok htype,
      bind_eq_of_ok isAt_cons, hd, beq_self_eq_true, if_pos rfl, bind_eq_of_ok advance_cons,
      bind_eq_of_ok hy]
    rfl

/-! ## Simple statements -/

/-- A value is read up to the semicolon of its statement. -/
theorem value_of_derives {z : Token} {e : Expr} (h : Derives ts (.expr 1 e))
    (hz : z.kind = .semicolon) (s : Surroundings) (rest : List Token)
    (hfuel : 8 * ts.length + 2 ≤ fuel) :
    ∃ e', e'.bare = e ∧ expression s fuel 0 (ts ++ z :: rest) = .ok e' (z :: rest) :=
  expression_of_derives s rest h hfuel (by rw [hz]; decide)

/-- A statement is read whole where no `else` follows. -/
def ReadsStatement (s : Surroundings) (ts : List Token) (st : Stmt) : Prop :=
  ∀ fuel rest, 8 * ts.length ≤ fuel → (next s rest).kind ≠ .kElse →
    ∃ st', st'.bare = st ∧ statement s fuel (ts ++ rest) = .ok st' rest

namespace ReadsStatement

variable {k x z : Token} {us vs : List Token} {e : Expr}

theorem letVar {type : Option Ty} (hk : k.kind = .kLet) (hx : x.kind = .ident)
    (ha : Annotation us type) (h : Derives vs (.expr 1 e)) (hz : z.kind = .semicolon) :
    ReadsStatement s (k :: x :: (us ++ (vs ++ [z])))
      (.letVar x.literal .origin type e .origin) := by
  intro fuel rest hfuel _
  simp only [List.length_append, List.length_cons, List.length_nil] at hfuel
  obtain ⟨f, rfl⟩ := Nat.exists_eq_add_of_le' (show 1 ≤ fuel by omega)
  obtain ⟨q, hq, htype⟩ :=
    optionalType_of_annotation s (vs ++ z :: rest) ha (show us.length ≤ f by omega)
  obtain ⟨e', he, hvalue⟩ := value_of_derives h hz s rest (show _ ≤ f by omega)
  refine ⟨.letVar x.literal x.span type e' (k.span.join z.span), ?_, ?_⟩
  · rw [Stmt.bare, he]
  · simp only [List.cons_append, List.append_assoc, List.nil_append]
    rw [statement, bind_eq_of_ok peek_cons, hk]
    dsimp only
    rw [letStatement, bind_eq_of_ok advance_cons, bind_eq_of_ok (expect_cons hx),
      bind_eq_of_ok htype, bind_eq_of_ok (expect_cons hq), bind_eq_of_ok hvalue,
      bind_eq_of_ok (endStatement_cons hz)]
    rfl

theorem assign {q : Token} (hx : x.kind = .ident) (hq : q.kind = .assign)
    (h : Derives us (.expr 1 e)) (hz : z.kind = .semicolon) :
    ReadsStatement s (x :: q :: (us ++ [z])) (.assign x.literal e .origin) := by
  intro fuel rest hfuel _
  simp only [List.length_append, List.length_cons, List.length_nil] at hfuel
  obtain ⟨f, rfl⟩ := Nat.exists_eq_add_of_le' (show 1 ≤ fuel by omega)
  obtain ⟨e', he, hvalue⟩ := value_of_derives h hz s rest (show _ ≤ f by omega)
  refine ⟨.assign x.literal e' (x.span.join z.span), ?_, ?_⟩
  · rw [Stmt.bare, he]
  · simp only [List.cons_append, List.append_assoc, List.nil_append]
    rw [statement, bind_eq_of_ok peek_cons, hx]
    dsimp only
    rw [nameStatement, bind_eq_of_ok peek_cons, bind_eq_of_ok secondKind_cons, next_cons, hq]
    dsimp only
    rw [bind_eq_of_ok advance_cons, bind_eq_of_ok advance_cons, bind_eq_of_ok hvalue,
      bind_eq_of_ok (endStatement_cons hz)]
    rfl

theorem assignAt {l r q : Token} {place : Expr} (hx : x.kind = .ident) (hl : l.kind = .lbracket)
    (h : Derives us (.expr 1 place)) (hr : r.kind = .rbracket) (hq : q.kind = .assign)
    (h' : Derives vs (.expr 1 e)) (hz : z.kind = .semicolon) :
    ReadsStatement s (x :: l :: (us ++ r :: q :: (vs ++ [z])))
      (.assignAt x.literal place e .origin) := by
  intro fuel rest hfuel _
  simp only [List.length_append, List.length_cons, List.length_nil] at hfuel
  obtain ⟨f, rfl⟩ := Nat.exists_eq_add_of_le' (show 1 ≤ fuel by omega)
  obtain ⟨place', hp, hplace⟩ := expression_of_derives s (q :: (vs ++ z :: rest)) h
    (show 8 * us.length + 2 ≤ f by omega) (show Closes r.kind by rw [hr]; decide)
  obtain ⟨e', he, hvalue⟩ := value_of_derives h' hz s rest (show _ ≤ f by omega)
  refine ⟨.assignAt x.literal place' e' (x.span.join z.span), ?_, ?_⟩
  · rw [Stmt.bare, hp, he]
  · simp only [List.cons_append, List.append_assoc, List.nil_append]
    rw [statement, bind_eq_of_ok peek_cons, hx]
    dsimp only
    rw [nameStatement, bind_eq_of_ok peek_cons, bind_eq_of_ok secondKind_cons, next_cons, hl]
    dsimp only
    rw [bind_eq_of_ok advance_cons, bind_eq_of_ok advance_cons, bind_eq_of_ok hplace,
      bind_eq_of_ok (expect_cons hr), bind_eq_of_ok (expect_cons hq), bind_eq_of_ok hvalue,
      bind_eq_of_ok (endStatement_cons hz)]
    rfl

theorem call {l r : Token} {es : List Expr} (hx : x.kind = .ident) (hl : l.kind = .lparen)
    (h : Derives us (.items es)) (hr : r.kind = .rparen) (hz : z.kind = .semicolon) :
    ReadsStatement s (x :: l :: (us ++ [r, z])) (.call x.literal .origin es .origin .origin) := by
  intro fuel rest hfuel _
  simp only [List.length_append, List.length_cons, List.length_nil] at hfuel
  obtain ⟨f, rfl⟩ := Nat.exists_eq_add_of_le' (show 2 ≤ fuel by omega)
  have hitems : ReadsItems s us es := reads h
  obtain ⟨es', hes, hargs⟩ := hitems r f (z :: rest) (.inl hr) (by omega)
  rw [hr] at hargs
  refine ⟨.call x.literal x.span es' (x.span.join r.span) ((x.span.join r.span).join z.span),
    ?_, ?_⟩
  · rw [Stmt.bare, hes]
  · simp only [List.cons_append, List.append_assoc, List.nil_append]
    rw [statement, bind_eq_of_ok peek_cons, hx]
    dsimp only
    rw [nameStatement, bind_eq_of_ok peek_cons, bind_eq_of_ok secondKind_cons, next_cons, hl]
    dsimp only
    rw [bind_eq_of_ok (call_eq hargs hr), bind_eq_of_ok (endStatement_cons hz)]
    rfl

theorem stop (hk : k.kind = .kBreak) (hs : s.inLoop = true) (hz : z.kind = .semicolon) :
    ReadsStatement s [k, z] (.stop .origin) := by
  intro fuel rest hfuel _
  simp only [List.length_cons, List.length_nil] at hfuel
  obtain ⟨f, rfl⟩ := Nat.exists_eq_add_of_le' (show 1 ≤ fuel by omega)
  refine ⟨.stop (k.span.join z.span), rfl, ?_⟩
  simp only [List.cons_append, List.nil_append]
  rw [statement, bind_eq_of_ok peek_cons, hk]
  dsimp only
  rw [breakStatement, bind_eq_of_ok advance_cons, if_pos hs,
    bind_eq_of_ok (endStatement_cons hz)]
  rfl

theorem ret (hk : k.kind = .kReturn) (hs : s.place.function = some none)
    (hz : z.kind = .semicolon) : ReadsStatement s [k, z] (.ret none .origin) := by
  intro fuel rest hfuel _
  simp only [List.length_cons, List.length_nil] at hfuel
  obtain ⟨f, rfl⟩ := Nat.exists_eq_add_of_le' (show 1 ≤ fuel by omega)
  obtain ⟨fn, hfn, hresult⟩ := Option.map_eq_some_iff.1 hs
  obtain ⟨name, result⟩ := fn
  cases hresult
  refine ⟨.ret none (k.span.join z.span), rfl, ?_⟩
  have hvalue : returnValue s f (z :: rest) = .ok none (z :: rest) := by
    rw [returnValue, bind_eq_of_ok isAt_cons, hz]
    rfl
  simp only [List.cons_append, List.nil_append]
  rw [statement, bind_eq_of_ok peek_cons, hk]
  dsimp only
  rw [returnStatement, bind_eq_of_ok advance_cons, hfn]
  dsimp only
  rw [bind_eq_of_ok hvalue, bind_eq_of_ok (endStatement_cons hz)]
  rfl

theorem retValue {type : Ty} (hk : k.kind = .kReturn) (hs : s.place.function = some (some type))
    (h : Derives us (.expr 1 e)) (hz : z.kind = .semicolon) :
    ReadsStatement s (k :: (us ++ [z])) (.ret (some e) .origin) := by
  intro fuel rest hfuel _
  simp only [List.length_append, List.length_cons, List.length_nil] at hfuel
  obtain ⟨f, rfl⟩ := Nat.exists_eq_add_of_le' (show 1 ≤ fuel by omega)
  obtain ⟨fn, hfn, hresult⟩ := Option.map_eq_some_iff.1 hs
  obtain ⟨name, result⟩ := fn
  cases hresult
  obtain ⟨e', he, hexpr⟩ := value_of_derives h hz s rest (show _ ≤ f by omega)
  refine ⟨.ret (some e') (k.span.join z.span), ?_, ?_⟩
  · rw [Stmt.bare, Option.map_some, he]
  -- The value does not begin with a semicolon.
  have hvalue : returnValue s f (us ++ z :: rest) = .ok (some e') (z :: rest) := by
    obtain ⟨t, ws, rfl, ht, -⟩ := h.head
    have hne : t.kind ≠ .semicolon := by
      intro hsemi
      rw [hsemi] at ht
      revert ht
      decide
    rw [List.cons_append] at hexpr ⊢
    rw [returnValue, bind_eq_of_ok isAt_cons, beq_false_of_ne hne, if_neg (by decide),
      bind_eq_of_ok hexpr]
    rfl
  simp only [List.cons_append, List.append_assoc, List.nil_append]
  rw [statement, bind_eq_of_ok peek_cons, hk]
  dsimp only
  rw [returnStatement, bind_eq_of_ok advance_cons, hfn]
  dsimp only
  rw [bind_eq_of_ok hvalue, bind_eq_of_ok (endStatement_cons hz)]
  rfl

theorem exit (hk : k.kind = .kExit) (h : Derives us (.expr 1 e)) (hz : z.kind = .semicolon) :
    ReadsStatement s (k :: (us ++ [z])) (.exit e .origin) := by
  intro fuel rest hfuel _
  simp only [List.length_append, List.length_cons, List.length_nil] at hfuel
  obtain ⟨f, rfl⟩ := Nat.exists_eq_add_of_le' (show 1 ≤ fuel by omega)
  obtain ⟨e', he, hvalue⟩ := value_of_derives h hz s rest (show _ ≤ f by omega)
  refine ⟨.exit e' (k.span.join z.span), ?_, ?_⟩
  · rw [Stmt.bare, he]
  · simp only [List.cons_append, List.append_assoc, List.nil_append]
    rw [statement, bind_eq_of_ok peek_cons, hk]
    dsimp only
    rw [exitStatement, bind_eq_of_ok advance_cons, bind_eq_of_ok hvalue,
      bind_eq_of_ok (endStatement_cons hz)]
    rfl

end ReadsStatement

/-! ## Statements that hold statements -/

/-- A block is read whole, and its brace closes the expression before it. -/
structure ReadsBlock (s : Surroundings) (ts : List Token) (ss : List Stmt) : Prop where
  head : ∃ l us, ts = l :: us ∧ l.kind = .lcurly
  block : ∀ fuel rest, 8 * ts.length ≤ fuel →
    ∃ b : List Stmt × Span, Stmt.allBare b.1 = ss ∧ block s fuel (ts ++ rest) = .ok b rest

/-- A body is read up to the brace that closes it, or up to the end of the tokens. -/
structure ReadsBody (s : Surroundings) (ts : List Token) (ss : List Stmt) : Prop where
  blockBody : ∀ fuel opening (r : Token) rest, r.kind = .rcurly → 8 * ts.length + 1 ≤ fuel →
    ∃ ss', Stmt.allBare ss' = ss ∧
      blockBody s fuel opening (ts ++ r :: rest) = .ok ss' (r :: rest)
  statements : s.eof.kind = .eof → ∀ fuel, 8 * ts.length + 1 ≤ fuel →
    ∃ ss', Stmt.allBare ss' = ss ∧ statements s fuel ts = .ok ss' []

/-- What reading the tokens of a piece comes to. -/
def ReadsPiece (s : Surroundings) (ts : List Token) : Piece → Prop
  | .stmt st => ReadsStatement s ts st
  | .block ss => ReadsBlock s ts ss
  | .body ss => ReadsBody s ts ss

section Conditional

variable {k : Token} {cond : Expr} {body : List Stmt × Span} {mid : List Token}
  (hcond : expression s fuel 0 rest = .ok cond mid) (hbody : block s fuel mid = .ok body left)
include hcond hbody

theorem ifStatement_when (hnext : (next s left).kind ≠ .kElse) :
    ifStatement s (fuel + 1) (k :: rest) =
      .ok (.when cond body.1 body.2 (k.span.join body.2)) left := by
  rw [ifStatement, bind_eq_of_ok advance_cons, bind_eq_of_ok hcond, bind_eq_of_ok hbody]
  dsimp only
  rw [bind_eq_of_ok isAt_eq, beq_false_of_ne hnext]
  rfl

theorem ifStatement_else {l : Token} {other : List Stmt × Span} {after end_ : List Token}
    (hleft : left = l :: after) (hl : l.kind = .kElse) (hnext : (next s after).kind ≠ .kIf)
    (hother : block s fuel after = .ok other end_) :
    ifStatement s (fuel + 1) (k :: rest) =
      .ok (.ifElse cond body.1 body.2 other.1 other.2
        ((k.span.join body.2).join other.2)) end_ := by
  subst hleft
  rw [ifStatement, bind_eq_of_ok advance_cons, bind_eq_of_ok hcond, bind_eq_of_ok hbody]
  dsimp only
  rw [bind_eq_of_ok isAt_cons, hl, beq_self_eq_true, if_pos rfl, bind_eq_of_ok advance_cons,
    bind_eq_of_ok isAt_eq, beq_false_of_ne hnext, if_neg (by decide), bind_eq_of_ok hother]
  rfl

theorem ifStatement_elseIf {l i : Token} {nested : Stmt} {after end_ : List Token}
    (hleft : left = l :: i :: after) (hl : l.kind = .kElse) (hi : i.kind = .kIf)
    (hnested : ifStatement s fuel (i :: after) = .ok nested end_) :
    ifStatement s (fuel + 1) (k :: rest) =
      .ok (.ifElse cond body.1 body.2 [nested] nested.span
        ((k.span.join body.2).join nested.span)) end_ := by
  subst hleft
  rw [ifStatement, bind_eq_of_ok advance_cons, bind_eq_of_ok hcond, bind_eq_of_ok hbody]
  dsimp only
  rw [bind_eq_of_ok isAt_cons, hl, beq_self_eq_true, if_pos rfl, bind_eq_of_ok advance_cons,
    bind_eq_of_ok isAt_cons, hi, beq_self_eq_true, if_pos rfl, bind_eq_of_ok hnested]
  rfl

end Conditional

theorem statement_if {k : Token} (hk : k.kind = .kIf) :
    statement s (fuel + 1) (k :: rest) = ifStatement s fuel (k :: rest) := by
  rw [statement, bind_eq_of_ok peek_cons, hk]

/-- A condition and the block behind it are read one after the other. -/
theorem ReadsBlock.condition {us vs : List Token} {cond : Expr} {body : List Stmt}
    (hb : ReadsBlock s vs body) (h : Derives us (.expr 1 cond))
    (hfuel : 8 * us.length + 8 * vs.length + 2 ≤ fuel) (rest : List Token) :
    ∃ cond' b, Expr.bare cond' = cond ∧ Stmt.allBare b.1 = body ∧
      expression s fuel 0 (us ++ (vs ++ rest)) = .ok cond' (vs ++ rest) ∧
      Parser.block s fuel (vs ++ rest) = .ok b rest := by
  obtain ⟨b, hbody, hblock⟩ := hb.block fuel rest (by omega)
  obtain ⟨l, ws, hvs, hl⟩ := hb.head
  obtain ⟨cond', hcond, hx⟩ := expression_of_derives s (ws ++ rest) h
    (show 8 * us.length + 2 ≤ fuel by omega) (show Closes l.kind by rw [hl]; decide)
  rw [← List.cons_append, ← hvs] at hx
  exact ⟨cond', b, hcond, hbody, hx, hblock⟩

namespace ReadsStatement

variable {k l i x r : Token} {us vs ws : List Token} {cond : Expr} {body other : List Stmt}

theorem when (hk : k.kind = .kIf) (h : Derives us (.expr 1 cond)) (hb : ReadsBlock s vs body) :
    ReadsStatement s (k :: (us ++ vs)) (.when cond body .origin .origin) := by
  intro fuel rest hfuel hnext
  simp only [List.length_append, List.length_cons] at hfuel
  obtain ⟨f, rfl⟩ := Nat.exists_eq_add_of_le' (show 2 ≤ fuel by omega)
  obtain ⟨cond', b, hcond, hbody, hx, hy⟩ := hb.condition h (show _ ≤ f by omega) rest
  refine ⟨.when cond' b.1 b.2 (k.span.join b.2), ?_, ?_⟩
  · rw [Stmt.bare, hcond, hbody]
  · rw [List.cons_append, List.append_assoc, statement_if hk]
    exact ifStatement_when hx hy hnext

theorem ifElse (hk : k.kind = .kIf) (h : Derives us (.expr 1 cond)) (hb : ReadsBlock s vs body)
    (hl : l.kind = .kElse) (ho : ReadsBlock s ws other) :
    ReadsStatement s (k :: (us ++ (vs ++ l :: ws)))
      (.ifElse cond body .origin other .origin .origin) := by
  intro fuel rest hfuel _
  simp only [List.length_append, List.length_cons] at hfuel
  obtain ⟨f, rfl⟩ := Nat.exists_eq_add_of_le' (show 2 ≤ fuel by omega)
  obtain ⟨cond', b, hcond, hbody, hx, hy⟩ :=
    hb.condition h (show _ ≤ f by omega) (l :: (ws ++ rest))
  obtain ⟨o, hother, hw⟩ := ho.block f rest (by omega)
  -- A block in the other branch begins with its brace, so it is not taken for an `else if`.
  have hnext : (next s (ws ++ rest)).kind ≠ .kIf := by
    obtain ⟨c, vs', rfl, hc⟩ := ho.head
    rw [List.cons_append, next_cons, hc]
    decide
  refine ⟨.ifElse cond' b.1 b.2 o.1 o.2 ((k.span.join b.2).join o.2), ?_, ?_⟩
  · rw [Stmt.bare, hcond, hbody, hother]
  · simp only [List.cons_append, List.append_assoc]
    rw [statement_if hk]
    exact ifStatement_else hx hy rfl hl hnext hw

theorem elseIf {nested : Stmt} (hk : k.kind = .kIf) (h : Derives us (.expr 1 cond))
    (hb : ReadsBlock s vs body) (hl : l.kind = .kElse) (hi : i.kind = .kIf)
    (hn : ReadsStatement s (i :: ws) nested) :
    ReadsStatement s (k :: (us ++ (vs ++ l :: i :: ws)))
      (.ifElse cond body .origin [nested] .origin .origin) := by
  intro fuel rest hfuel hnext
  simp only [List.length_append, List.length_cons] at hfuel
  obtain ⟨f, rfl⟩ := Nat.exists_eq_add_of_le' (show 2 ≤ fuel by omega)
  obtain ⟨cond', b, hcond, hbody, hx, hy⟩ :=
    hb.condition h (show _ ≤ f by omega) (l :: i :: (ws ++ rest))
  -- The nested `if` is read without going through `statement` again, which saves one unit.
  have hfuel' : 8 * (i :: ws).length ≤ f + 1 := by rw [List.length_cons]; omega
  obtain ⟨n, hnested, hw⟩ := hn (f + 1) rest hfuel' hnext
  rw [List.cons_append, statement_if hi] at hw
  refine ⟨.ifElse cond' b.1 b.2 [n] n.span ((k.span.join b.2).join n.span), ?_, ?_⟩
  · rw [Stmt.bare, hcond, hbody, Stmt.allBare, hnested, Stmt.allBare]
  · simp only [List.cons_append, List.append_assoc]
    rw [statement_if hk]
    exact ifStatement_elseIf hx hy rfl hl hi hw

theorem loop (hk : k.kind = .kLoop) (hb : ReadsBlock { s with inLoop := true } us body) :
    ReadsStatement s (k :: us) (.loop body .origin .origin) := by
  intro fuel rest hfuel _
  simp only [List.length_cons] at hfuel
  obtain ⟨f, rfl⟩ := Nat.exists_eq_add_of_le' (show 1 ≤ fuel by omega)
  obtain ⟨b, hbody, hx⟩ := hb.block f rest (by omega)
  refine ⟨.loop b.1 b.2 (k.span.join b.2), ?_, ?_⟩
  · rw [Stmt.bare, hbody]
  · rw [List.cons_append, statement, bind_eq_of_ok peek_cons, hk]
    dsimp only
    rw [bind_eq_of_ok advance_cons, bind_eq_of_ok hx]
    rfl

theorem fn {params : List Param} {result : Option Ty} (hk : k.kind = .kFn)
    (hx : x.kind = .ident) (hl : l.kind = .lparen) (hp : ParamsForm us params)
    (hd : (params.map Param.name).Nodup) (hr : r.kind = .rparen) (ht : ResultForm vs result)
    (hb : ReadsBlock ⟨s.eof, false, some (x.literal, result)⟩ ws body) :
    ReadsStatement s (k :: x :: l :: (us ++ r :: (vs ++ ws)))
      (.fn x.literal params result body .origin .origin) := by
  intro fuel rest hfuel _
  simp only [List.length_append, List.length_cons] at hfuel
  obtain ⟨f, rfl⟩ := Nat.exists_eq_add_of_le' (show 2 ≤ fuel by omega)
  obtain ⟨ps, hps, hparams⟩ := params_of_form s (vs ++ (ws ++ rest)) hp hr [] hd
    (fun _ _ => List.not_mem_nil) (show us.length + 1 ≤ f by omega)
  obtain ⟨b, hbody, hblock⟩ := hb.block f rest (by omega)
  -- Without a result the brace of the body is looked at, and it is no arrow.
  have hresult : optionalType s f .arrow (vs ++ (ws ++ rest)) = .ok result (ws ++ rest) := by
    refine optionalType_of_result ht (by omega) ?_
    obtain ⟨c, us', rfl, hc⟩ := hb.head
    rw [List.cons_append, next_cons, hc]
    decide
  refine ⟨.fn x.literal ps result b.1 b.2 (k.span.join b.2), ?_, ?_⟩
  · rw [Stmt.bare, hps, hbody]
  · simp only [List.cons_append, List.append_assoc]
    rw [statement, bind_eq_of_ok peek_cons, hk]
    dsimp only
    rw [fnDeclaration, bind_eq_of_ok advance_cons, bind_eq_of_ok (expect_cons hx),
      bind_eq_of_ok (expect_cons hl), bind_eq_of_ok hparams, bind_eq_of_ok (expect_cons hr),
      bind_eq_of_ok hresult]
    dsimp only
    rw [bind_eq_of_ok hblock]
    rfl

end ReadsStatement

/-! ## Blocks and bodies -/

theorem ReadsBody.block {l r : Token} {ss : List Stmt} (hl : l.kind = .lcurly)
    (h : ReadsBody s ts ss) (hr : r.kind = .rcurly) : ReadsBlock s (l :: (ts ++ [r])) ss := by
  refine ⟨⟨l, _, rfl, hl⟩, fun fuel rest hfuel => ?_⟩
  simp only [List.length_append, List.length_cons, List.length_nil] at hfuel
  obtain ⟨f, rfl⟩ := Nat.exists_eq_add_of_le' (show 1 ≤ fuel by omega)
  obtain ⟨ss', hss, hx⟩ := h.blockBody f l.span r rest hr (by omega)
  refine ⟨(ss', l.span.join r.span), hss, ?_⟩
  simp only [List.cons_append, List.append_assoc, List.nil_append]
  rw [Parser.block, bind_eq_of_ok (expect_cons hl), bind_eq_of_ok hx, bind_eq_of_ok advance_cons]
  rfl

theorem blockBody_semicolon {opening : Span} (ht : t.kind = .semicolon) :
    blockBody s (fuel + 1) opening (t :: rest) = blockBody s fuel opening rest := by
  rw [blockBody, bind_eq_of_ok peek_cons, ht]
  dsimp only
  rw [bind_eq_of_ok advance_cons]

theorem blockBody_more {opening : Span} {st : Stmt} {ss : List Stmt} {end_ : List Token}
    (ht : Begins t.kind) (hst : statement s fuel (t :: rest) = .ok st left)
    (hss : blockBody s fuel opening left = .ok ss end_) :
    blockBody s (fuel + 1) opening (t :: rest) = .ok (st :: ss) end_ := by
  have hmore : (do
      let first ← statement s fuel
      let rest ← blockBody s fuel opening
      return first :: rest : Parser (List Stmt)) (t :: rest) = .ok (st :: ss) end_ := by
    rw [bind_eq_of_ok hst, bind_eq_of_ok hss]
    rfl
  rw [blockBody, bind_eq_of_ok peek_cons]
  rcases ht with hk | hk | hk | hk | hk | hk | hk | hk <;> rw [hk] <;> exact hmore

theorem statements_semicolon (ht : t.kind = .semicolon) :
    statements s (fuel + 1) (t :: rest) = statements s fuel rest := by
  rw [statements, bind_eq_of_ok peek_cons, ht]
  dsimp only
  rw [bind_eq_of_ok advance_cons]

theorem statements_more {st : Stmt} {ss : List Stmt} {end_ : List Token} (ht : Begins t.kind)
    (hst : statement s fuel (t :: rest) = .ok st left)
    (hss : statements s fuel left = .ok ss end_) :
    statements s (fuel + 1) (t :: rest) = .ok (st :: ss) end_ := by
  have hmore : (do
      let first ← statement s fuel
      let rest ← statements s fuel
      return first :: rest : Parser (List Stmt)) (t :: rest) = .ok (st :: ss) end_ := by
    rw [bind_eq_of_ok hst, bind_eq_of_ok hss]
    rfl
  rw [statements, bind_eq_of_ok peek_cons]
  rcases ht with hk | hk | hk | hk | hk | hk | hk | hk <;> rw [hk] <;> exact hmore

theorem ReadsBody.none : ReadsBody s [] [] := by
  constructor
  · intro fuel opening r rest hr hfuel
    obtain ⟨f, rfl⟩ := Nat.exists_eq_add_of_le' (show 1 ≤ fuel by omega)
    refine ⟨[], rfl, ?_⟩
    rw [List.nil_append, Parser.blockBody, bind_eq_of_ok peek_cons, hr]
    rfl
  · intro heof fuel hfuel
    obtain ⟨f, rfl⟩ := Nat.exists_eq_add_of_le' (show 1 ≤ fuel by omega)
    have hnext : (next s []).kind = .eof := heof
    refine ⟨[], rfl, ?_⟩
    rw [Parser.statements, bind_eq_of_ok peek_eq, hnext]
    rfl

theorem ReadsBody.semicolon {z : Token} {ss : List Stmt} (hz : z.kind = .semicolon)
    (h : ReadsBody s ts ss) : ReadsBody s (z :: ts) ss := by
  constructor
  · intro fuel opening r rest hr hfuel
    simp only [List.length_cons] at hfuel
    obtain ⟨f, rfl⟩ := Nat.exists_eq_add_of_le' (show 1 ≤ fuel by omega)
    rw [List.cons_append, blockBody_semicolon hz]
    exact h.blockBody f opening r rest hr (by omega)
  · intro heof fuel hfuel
    simp only [List.length_cons] at hfuel
    obtain ⟨f, rfl⟩ := Nat.exists_eq_add_of_le' (show 1 ≤ fuel by omega)
    rw [statements_semicolon hz]
    exact h.statements heof f (by omega)

/-- No body begins with an `else`, so a statement before it is over. -/
theorem next_ne_else {c : Place} {ss : List Stmt} (h : Forms c ts (.body ss))
    (hnext : (next s rest).kind ≠ .kElse) : (next s (ts ++ rest)).kind ≠ .kElse := by
  cases h with
  | noStmts => exact hnext
  | semicolon hz _ =>
    rw [List.cons_append, next_cons, hz]
    decide
  | moreStmts hst _ =>
    obtain ⟨t, us, rfl, ht⟩ := hst.head
    exact ht.ne_else

theorem ReadsBody.more {c : Place} {us : List Token} {st : Stmt} {ss : List Stmt}
    (hst : ReadsStatement s ts st) (hts : ∃ t vs, ts = t :: vs ∧ Begins t.kind)
    (hus : Forms c us (.body ss)) (hss : ReadsBody s us ss) :
    ReadsBody s (ts ++ us) (st :: ss) := by
  obtain ⟨t, vs, rfl, ht⟩ := hts
  constructor
  · -- In a block the brace follows the last statement,
    intro fuel opening r rest hr hfuel
    simp only [List.length_append, List.length_cons] at hfuel
    obtain ⟨f, rfl⟩ := Nat.exists_eq_add_of_le' (show 1 ≤ fuel by omega)
    have hnext : (next s (r :: rest)).kind ≠ .kElse := by rw [next_cons, hr]; decide
    obtain ⟨st', hst', hx⟩ := hst f (us ++ r :: rest) (by rw [List.length_cons]; omega)
      (next_ne_else hus hnext)
    obtain ⟨ss', hss', hy⟩ := hss.blockBody f opening r rest hr (by omega)
    refine ⟨st' :: ss', by rw [Stmt.allBare, hst', hss'], ?_⟩
    rw [List.append_assoc, List.cons_append]
    exact blockBody_more ht hx hy
  · -- and at the top level the end of the tokens does; neither is an `else`.
    intro heof fuel hfuel
    simp only [List.length_append, List.length_cons] at hfuel
    obtain ⟨f, rfl⟩ := Nat.exists_eq_add_of_le' (show 1 ≤ fuel by omega)
    have hend : (next s []).kind ≠ .kElse := by
      have hnext : (next s []).kind = .eof := heof
      rw [hnext]
      decide
    have hnext : (next s us).kind ≠ .kElse := by
      have hus' := next_ne_else hus hend
      rw [List.append_nil] at hus'
      exact hus'
    obtain ⟨st', hst', hx⟩ := hst f us (by rw [List.length_cons]; omega) hnext
    obtain ⟨ss', hss', hy⟩ := hss.statements heof f (by omega)
    exact ⟨st' :: ss', by rw [Stmt.allBare, hst', hss'], statements_more ht hx hy⟩

/-! ## Every piece -/

/-- What the grammar forms is read, wherever the parser stands at the place of the piece. -/
theorem readsPiece {c : Place} {p : Piece} (h : Forms c ts p) :
    ∀ s : Surroundings, s.place = c → ReadsPiece s ts p := by
  induction h with
  | letVar hk hx ha h hz => exact fun s _ => .letVar hk hx ha h hz
  | assign hx hq h hz => exact fun s _ => .assign hx hq h hz
  | assignAt hx hl h hr hq h' hz => exact fun s _ => .assignAt hx hl h hr hq h' hz
  | call hx hl h hr hz => exact fun s _ => .call hx hl h hr hz
  | when hk h _ ihb => exact fun s hs => .when hk h (ihb s hs)
  | ifElse hk h _ hl _ ihb iho => exact fun s hs => .ifElse hk h (ihb s hs) hl (iho s hs)
  | elseIf hk h _ hl hi _ ihb iho => exact fun s hs => .elseIf hk h (ihb s hs) hl hi (iho s hs)
  | loop hk _ ihb =>
    rintro s rfl
    exact .loop hk (ihb { s with inLoop := true } rfl)
  | stop hk hc hz =>
    rintro s rfl
    exact .stop hk hc hz
  | ret hk hc hz =>
    rintro s rfl
    exact .ret hk hc hz
  | retValue hk hc h hz =>
    rintro s rfl
    exact .retValue hk hc h hz
  | exit hk h hz => exact fun s _ => .exit hk h hz
  | @fn c k x l r ts us vs params result body hk hx hl hp hd hr ht _ ihb =>
    intro s _
    exact .fn hk hx hl hp hd hr ht (ihb ⟨s.eof, false, some (x.literal, result)⟩ rfl)
  | block hl _ hr ih => exact fun s hs => ReadsBody.block hl (ih s hs) hr
  | noStmts => exact fun s _ => ReadsBody.none
  | semicolon hz _ ih => exact fun s hs => ReadsBody.semicolon hz (ih s hs)
  | moreStmts h h' ih ih' => exact fun s hs => ReadsBody.more (ih s hs) h.head h' (ih' s hs)

end Parser
end Scriptlet
