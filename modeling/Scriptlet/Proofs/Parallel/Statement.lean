import Scriptlet.Proofs.Parallel.Expression

/-!
# Statement: like tokens give like programs

Statements are read alike as expressions are. A statement takes at least one token, and it leaves
alone what begins the next one, so a whole list of statements can be read with another behind it.
-/

namespace Scriptlet

/-- The statements are the same up to corresponding places. -/
def Stmt.Alike (v : Alignment) (st st' : Stmt) : Prop := st.respan v.left = st'.respan v.right

/-- The statements are the same, one by one, up to corresponding places. -/
def Stmt.AllAlike (v : Alignment) (ss ss' : List Stmt) : Prop :=
  Stmt.allRespan v.left ss = Stmt.allRespan v.right ss'

/-- The parameters are the same, one by one, up to corresponding places. -/
def Param.AllAlike (v : Alignment) (ps ps' : List Param) : Prop :=
  ps.map (Param.respan v.left) = ps'.map (Param.respan v.right)

theorem Param.AllAlike.nil {v : Alignment} : Param.AllAlike v [] [] := rfl

/-- There is an expression on both sides, the same up to corresponding places, or on neither. -/
def Expr.MaybeAlike (v : Alignment) (e e' : Option Expr) : Prop :=
  e.map (Expr.respan v.left) = e'.map (Expr.respan v.right)

theorem Expr.MaybeAlike.none {v : Alignment} : Expr.MaybeAlike v none none := rfl

namespace Stmt

variable {v : Alignment}

theorem Alike.span {st st' : Stmt} (h : st.Alike v st') : v.left st.span = v.right st'.span := by
  have hspan := congrArg Stmt.span h
  rw [Stmt.span_respan, Stmt.span_respan] at hspan
  exact hspan

theorem AllAlike.nil : AllAlike v [] [] := by
  unfold AllAlike
  rw [Stmt.allRespan, Stmt.allRespan]

theorem AllAlike.cons {st st' : Stmt} {ss ss' : List Stmt} (h : st.Alike v st')
    (hss : AllAlike v ss ss') : AllAlike v (st :: ss) (st' :: ss') := by
  unfold Alike AllAlike at *
  rw [Stmt.allRespan, Stmt.allRespan, h, hss]

end Stmt

namespace Parser

open Grammar

variable {v : Alignment} {more : List Token} {whole : Prop} {s s' : Surroundings} {n d : Nat}

/-! ## Parts of statements -/

theorem match_params (hs : Seam v more whole s s') (seen : List Bytes) (n d : Nat) :
    Match v more whole (Param.AllAlike v) (params s seen n) (params s' seen (n + d)) := by
  induction n generalizing seen with
  | zero => rw [params]; exact .outOfFuel _
  | succ n ih =>
    rw [Nat.succ_add, params, params]
    refine match_ifNext hs Kind.noConfusion (fun t t' rest rest' ht _ hrest => ?_) ?_
      (absurd · (by decide))
    · exact Match.pure .nil (t :: rest) (t' :: rest') (.cons ht hrest)
    · refine (match_expect hs Kind.noConfusion).bind fun name name' hname => ?_
      rw [hname.1.literal]
      refine .branch (.fail rfl hname.1.span) ?_
      refine (match_expect hs Kind.noConfusion).bind fun _ _ _ => ?_
      refine (match_typeRef hs n d).bind fun type type' htype => ?_
      subst htype
      have hfirst : (Param.respan v.left ⟨name.literal, type, name.span⟩) =
          Param.respan v.right ⟨name.literal, type, name'.span⟩ := by
        unfold Param.respan
        rw [hname.1.span]
      refine match_takeIf hs Kind.noConfusion (by decide) (fun _ _ _ _ => ?_) (.pure ?_)
      · refine (ih (name.literal :: seen)).bind fun ps ps' hps => .pure ?_
        unfold Param.AllAlike at hps ⊢
        rw [List.map_cons, List.map_cons, hfirst, hps]
      · unfold Param.AllAlike
        rw [List.map_cons, List.map_cons, hfirst]
        rfl

theorem match_optionalType (hs : Seam v more whole s s') {mark : Kind} (hmark : mark ≠ .eof)
    (hopens : ¬ Opens mark) (n d : Nat) :
    Match v more whole Eq (optionalType s n mark) (optionalType s' (n + d) mark) := by
  unfold optionalType
  refine match_takeIf hs hmark hopens (fun _ _ _ _ => ?_) (.pure rfl)
  exact (match_typeRef hs n d).bind fun t t' ht => .pure (congrArg some ht)

theorem match_value (hs : Seam v more whole s s') (n d : Nat) :
    Match v more whole (Expr.Alike v) (expression s n 0) (expression s' (n + d) 0) :=
  (expressionsMatch hs n d).expression 0

/-! ## Statements without statements in them -/

section Plain

variable (hs : Seam v more whole s s') {t t' : Token} (ht : t.Alike v t') {rest rest' : List Token}
  (hrest : List.Forall₂ (Token.Alike v) rest rest')
include hs ht hrest

theorem follows_letStatement (n d : Nat) :
    Follows v more whole rest.length (Stmt.Alike v) (letStatement s n (t :: rest))
      (letStatement s' (n + d) (t' :: (rest' ++ more))) := by
  unfold letStatement
  rw [bind_eq_of_ok advance_cons, bind_eq_of_ok advance_cons]
  refine (match_expect hs Kind.noConfusion).bind (fun name name' hname => ?_) rest rest' hrest
  refine (match_optionalType hs Kind.noConfusion (by decide) n d).bind fun type type' htype => ?_
  subst htype
  refine (match_expect hs Kind.noConfusion).bind fun _ _ _ => ?_
  refine (match_value hs n d).bind fun e e' he => ?_
  refine (match_endStatement hs ht.span).bind fun a a' ha => .pure ?_
  unfold Stmt.Alike Expr.Alike at *
  rw [Stmt.respan, Stmt.respan, hname.1.literal, hname.1.span, he, ha]

theorem follows_nameStatement (n d : Nat) :
    Follows v more whole rest.length (Stmt.Alike v) (nameStatement s n (t :: rest))
      (nameStatement s' (n + d) (t' :: (rest' ++ more))) := by
  unfold nameStatement
  rw [bind_eq_of_ok peek_cons, bind_eq_of_ok peek_cons, bind_eq_of_ok secondKind_cons,
    bind_eq_of_ok secondKind_cons, ht.literal]
  have hnone : Follows v more whole rest.length (Stmt.Alike v)
      ((do
        let _ ← advance s
        unexpected s (utf8 "`=`, `[` or `(` after `" ++ t.literal ++ utf8 "`") : Parser Stmt)
        (t :: rest))
      ((do
        let _ ← advance s'
        unexpected s' (utf8 "`=`, `[` or `(` after `" ++ t.literal ++ utf8 "`") : Parser Stmt)
        (t' :: (rest' ++ more))) := by
    rw [bind_eq_of_ok advance_cons, bind_eq_of_ok advance_cons]
    exact follows_unexpected hs hrest _
  cases hrest with
  | nil =>
    rw [show (next s []).kind = .eof from hs.eof]
    rcases hs.next_nil with hend | hpart
    · rw [hend]
      exact hnone
    · exact .of_stops rfl hpart
  | @cons p p' left left' hp hleft =>
    have hnext : next s (p :: left) = p := rfl
    have hnext' : next s' (p' :: left' ++ more) = p' := rfl
    rw [hnext, hnext', hp.kind]
    cases hk : p.kind with
    | assign =>
      dsimp only
      rw [List.cons_append, bind_eq_of_ok advance_cons, bind_eq_of_ok advance_cons,
        bind_eq_of_ok advance_cons, bind_eq_of_ok advance_cons]
      refine Follows.mono ?_ (Nat.le_succ left.length)
      refine (match_value hs n d).bind (fun e e' he => ?_) left left' hleft
      refine (match_endStatement hs ht.span).bind fun a a' ha => .pure ?_
      unfold Stmt.Alike Expr.Alike at *
      rw [Stmt.respan, Stmt.respan, he, ha]
    | lbracket =>
      dsimp only
      rw [List.cons_append, bind_eq_of_ok advance_cons, bind_eq_of_ok advance_cons,
        bind_eq_of_ok advance_cons, bind_eq_of_ok advance_cons]
      refine Follows.mono ?_ (Nat.le_succ left.length)
      refine (match_value hs n d).bind (fun i i' hi => ?_) left left' hleft
      refine (match_expect hs Kind.noConfusion).bind fun _ _ _ => ?_
      refine (match_expect hs Kind.noConfusion).bind fun _ _ _ => ?_
      refine (match_value hs n d).bind fun e e' he => ?_
      refine (match_endStatement hs ht.span).bind fun a a' ha => .pure ?_
      unfold Stmt.Alike Expr.Alike at *
      rw [Stmt.respan, Stmt.respan, hi, he, ha]
    | lparen =>
      dsimp only
      rw [List.cons_append]
      refine Follows.mono ?_ (Nat.le_succ left.length)
      refine ((expressionsMatch hs n d).call t t' p p' left left' ht hleft).bind
        fun c c' us us' _ hc hus hlen => ?_
      refine Follows.mono ?_ hlen
      refine (match_endStatement hs hc.2).bind (fun a a' ha => .pure ?_) us us' hus
      have hargs := hc.1
      unfold Stmt.Alike Expr.AllAlike at *
      rw [Stmt.respan, Stmt.respan, ht.span, hargs, hc.2, ha]
    | _ => exact hnone

theorem follows_breakStatement :
    Follows v more whole rest.length (Stmt.Alike v) (breakStatement s (t :: rest))
      (breakStatement s' (t' :: (rest' ++ more))) := by
  unfold breakStatement
  rw [bind_eq_of_ok advance_cons, bind_eq_of_ok advance_cons, hs.inLoop]
  refine Match.branch ?_ (.fail rfl ht.span) rest rest' hrest
  refine (match_endStatement hs ht.span).bind fun a a' ha => .pure ?_
  unfold Stmt.Alike
  rw [Stmt.respan, Stmt.respan, ha]

omit ht hrest in
theorem match_returnValue (n d : Nat) :
    Match v more whole (Expr.MaybeAlike v) (returnValue s n) (returnValue s' (n + d)) := by
  unfold returnValue
  refine match_ifNext hs Kind.noConfusion (fun t t' rest rest' ht _ hrest => ?_) ?_ fun _ => ?_
  · exact Match.pure .none (t :: rest) (t' :: rest') (.cons ht hrest)
  · exact (match_value hs n d).bind fun e e' he => .pure (congrArg some he)
  · -- A stray semicolon behind the seam ends no `return` before it: its value is still missing.
    exact stops_bind (stops_expression_nil hs.eof n 0)

theorem follows_returnStatement (n d : Nat) :
    Follows v more whole rest.length (Stmt.Alike v) (returnStatement s n (t :: rest))
      (returnStatement s' (n + d) (t' :: (rest' ++ more))) := by
  unfold returnStatement
  rw [bind_eq_of_ok advance_cons, bind_eq_of_ok advance_cons, hs.function]
  cases s.function with
  | none => exact Match.fail rfl ht.span rest rest' hrest
  | some function =>
    obtain ⟨name, result⟩ := function
    dsimp only
    refine (match_returnValue hs n d).bind (fun e e' he => ?_) rest rest' hrest
    refine (match_endStatement hs ht.span).bind fun a a' ha => ?_
    have hret : (Stmt.ret e a).Alike v (.ret e' a') := by
      unfold Stmt.Alike
      unfold Expr.MaybeAlike at he
      rw [Stmt.respan, Stmt.respan, he, ha]
    cases e with
    | none =>
      cases e' with
      | some e' => cases he
      | none =>
        cases result with
        | none => exact .pure hret
        | some t => exact .fail rfl ha
    | some e =>
      cases e' with
      | none => cases he
      | some e' =>
        cases result with
        | none => exact .fail rfl ha
        | some t => exact .pure hret

theorem follows_exitStatement (n d : Nat) :
    Follows v more whole rest.length (Stmt.Alike v) (exitStatement s n (t :: rest))
      (exitStatement s' (n + d) (t' :: (rest' ++ more))) := by
  unfold exitStatement
  rw [bind_eq_of_ok advance_cons, bind_eq_of_ok advance_cons]
  refine (match_value hs n d).bind (fun e e' he => ?_) rest rest' hrest
  refine (match_endStatement hs ht.span).bind fun a a' ha => .pure ?_
  unfold Stmt.Alike Expr.Alike at *
  rw [Stmt.respan, Stmt.respan, he, ha]

end Plain

/-! ## Blocks and what holds them -/

/-- The statements and the span of a block are the same up to places. -/
def BlockAlike (v : Alignment) (b b' : List Stmt × Span) : Prop :=
  Stmt.AllAlike v b.1 b'.1 ∧ v.left b.2 = v.right b'.2

/-- With given amounts of fuel, statements are read alike in all surroundings that are. A statement
takes at least one token; one that holds others is read from where its first word stands. -/
structure StatementsMatch (v : Alignment) (more : List Token) (whole : Prop) (n n' : Nat) :
    Prop where
  statement : ∀ s s', Seam v more whole s s' → ∀ ts ts', List.Forall₂ (Token.Alike v) ts ts' →
    Follows v more whole (ts.length - 1) (Stmt.Alike v) (statement s n ts)
      (statement s' n' (ts' ++ more))
  ifStatement : ∀ s s', Seam v more whole s s' → ∀ t t' rest rest', t.Alike v t' →
    List.Forall₂ (Token.Alike v) rest rest' →
    Follows v more whole rest.length (Stmt.Alike v) (ifStatement s n (t :: rest))
      (ifStatement s' n' (t' :: (rest' ++ more)))
  fnDeclaration : ∀ s s', Seam v more whole s s' → ∀ t t' rest rest', t.Alike v t' →
    List.Forall₂ (Token.Alike v) rest rest' →
    Follows v more whole rest.length (Stmt.Alike v) (fnDeclaration s n (t :: rest))
      (fnDeclaration s' n' (t' :: (rest' ++ more)))
  block : ∀ s s', Seam v more whole s s' →
    Match v more whole (BlockAlike v) (block s n) (block s' n')
  blockBody : ∀ s s', Seam v more whole s s' → ∀ a a', v.left a = v.right a' →
    Match v more whole (Stmt.AllAlike v) (blockBody s n a) (blockBody s' n' a')

/-- A block that was read goes up to its closing brace. -/
theorem ends_blockBody_rcurly (s : Surroundings) (a : Span) (n : Nat) (ts : List Token) :
    Ends (blockBody s n a ts) (fun _ rest => (next s rest).kind = .rcurly) (fun _ _ => True) := by
  induction n generalizing ts with
  | zero => rw [blockBody_zero]; trivial
  | succ n ih =>
    rw [blockBody, bind_eq_of_ok peek_eq]
    have hmore : Ends ((do
        let first ← statement s n
        let rest ← blockBody s n a
        return first :: rest : Parser (List Stmt)) ts)
        (fun _ rest => (next s rest).kind = .rcurly) (fun _ _ => True) := by
      refine Ends.after fun st left => ?_
      rw [Ends.bind_iff]
      exact ih left
    cases hk : (next s ts).kind with
    | rcurly => exact hk
    | eof => trivial
    | semicolon => exact Ends.after fun _ left => ih left
    | _ => exact hmore

theorem stops_block_nil (heof : s.eof.kind = .eof) (n : Nat) : stops (block s n []) = true := by
  cases n with
  | zero => rw [block_zero]; rfl
  | succ n =>
    rw [block]
    exact stops_bind (stops_expect_nil heof Kind.noConfusion)

section Step

variable (hs : Seam v more whole s s') (ih : StatementsMatch v more whole n (n + d))
include hs ih

theorem follows_statement {ts ts' : List Token} (hts : List.Forall₂ (Token.Alike v) ts ts') :
    Follows v more whole (ts.length - 1) (Stmt.Alike v) (statement s (n + 1) ts)
      (statement s' (n + d + 1) (ts' ++ more)) := by
  rw [statement, statement, bind_eq_of_ok peek_eq, bind_eq_of_ok peek_eq]
  cases hts with
  | nil =>
    rw [show (next s []).kind = .eof from hs.eof]
    rcases hs.next_nil with hend | hpart
    · rw [hend]
      exact follows_unexpected hs .nil _
    · exact .of_stops rfl hpart
  | @cons t t' rest rest' ht hrest =>
    have hnext : next s (t :: rest) = t := rfl
    have hnext' : next s' (t' :: rest' ++ more) = t' := rfl
    rw [hnext, hnext', ht.kind, List.cons_append, List.length_cons, Nat.add_sub_cancel]
    cases hk : t.kind with
    | kLet => exact follows_letStatement hs ht hrest n d
    | ident => exact follows_nameStatement hs ht hrest n d
    | kIf => exact ih.ifStatement s s' hs t t' rest rest' ht hrest
    | kLoop =>
      dsimp only
      rw [bind_eq_of_ok advance_cons, bind_eq_of_ok advance_cons]
      have hinner : Seam v more whole { s with inLoop := true } { s' with inLoop := true } :=
        ⟨hs.eof, hs.eof', hs.ends, hs.opens, rfl, hs.function⟩
      refine (ih.block _ _ hinner).bind (fun b b' hb => .pure ?_) rest rest' hrest
      have hbody := hb.1
      unfold Stmt.Alike Stmt.AllAlike at *
      rw [Stmt.respan, Stmt.respan, hbody, hb.2, v.join ht.span hb.2]
    | kBreak => exact follows_breakStatement hs ht hrest
    | kReturn => exact follows_returnStatement hs ht hrest n d
    | kExit => exact follows_exitStatement hs ht hrest n d
    | kFn => exact ih.fnDeclaration s s' hs t t' rest rest' ht hrest
    | _ => exact follows_unexpected hs (.cons ht hrest) _

theorem follows_ifStatement {t t' : Token} (ht : t.Alike v t') {rest rest' : List Token}
    (hrest : List.Forall₂ (Token.Alike v) rest rest') :
    Follows v more whole rest.length (Stmt.Alike v) (ifStatement s (n + 1) (t :: rest))
      (ifStatement s' (n + d + 1) (t' :: (rest' ++ more))) := by
  rw [ifStatement, ifStatement, bind_eq_of_ok advance_cons, bind_eq_of_ok advance_cons]
  refine (match_value hs n d).bind (fun cond cond' hcond => ?_) rest rest' hrest
  refine (ih.block s s' hs).bind fun b b' hb => ?_
  have hspan := v.join ht.span hb.2
  have hbody := hb.1
  unfold Expr.Alike at hcond
  unfold Stmt.AllAlike at hbody
  refine match_takeIf hs Kind.noConfusion (by decide) (fun _ _ _ _ => ?_) (.pure ?_)
  · -- An `if` may begin the statement behind the seam, but a block that has not begun fails.
    refine match_ifNext hs Kind.noConfusion (fun i i' left left' hi _ hleft => ?_) ?_ fun _ => ?_
    · refine (ih.ifStatement s s' hs i i' left left' hi hleft).bind
        fun st st' us us' _ hst hus hlen => ?_
      refine Follows.mono (Match.pure ?_ us us' hus) (Nat.le_succ_of_le hlen)
      have hstSpan := hst.span
      unfold Stmt.Alike at hst ⊢
      rw [Stmt.respan, Stmt.respan, Stmt.allRespan, Stmt.allRespan, Stmt.allRespan,
        Stmt.allRespan, hcond, hbody, hb.2, hst, hstSpan, v.join hspan hstSpan]
    · refine (ih.block s s' hs).bind fun o o' ho => .pure ?_
      have hother := ho.1
      unfold Stmt.Alike
      unfold Stmt.AllAlike at hother
      rw [Stmt.respan, Stmt.respan, hcond, hbody, hb.2, hother, ho.2, v.join hspan ho.2]
    · exact stops_bind (stops_block_nil hs.eof n)
  · unfold Stmt.Alike
    rw [Stmt.respan, Stmt.respan, hcond, hbody, hb.2, hspan]

theorem follows_fnDeclaration {t t' : Token} (ht : t.Alike v t') {rest rest' : List Token}
    (hrest : List.Forall₂ (Token.Alike v) rest rest') :
    Follows v more whole rest.length (Stmt.Alike v) (fnDeclaration s (n + 1) (t :: rest))
      (fnDeclaration s' (n + d + 1) (t' :: (rest' ++ more))) := by
  rw [fnDeclaration, fnDeclaration, bind_eq_of_ok advance_cons, bind_eq_of_ok advance_cons]
  refine (match_expect hs Kind.noConfusion).bind (fun name name' hname => ?_) rest rest' hrest
  refine (match_expect hs Kind.noConfusion).bind fun _ _ _ => ?_
  refine (match_params hs [] n d).bind fun ps ps' hps => ?_
  refine (match_expect hs Kind.noConfusion).bind fun _ _ _ => ?_
  refine (match_optionalType hs Kind.noConfusion (by decide) n d).bind fun type type' htype => ?_
  subst htype
  rw [hname.1.literal]
  have hinner : Seam v more whole ⟨s.eof, false, some (name.literal, type)⟩
      ⟨s'.eof, false, some (name.literal, type)⟩ := ⟨hs.eof, hs.eof', hs.ends, hs.opens, rfl, rfl⟩
  refine (ih.block _ _ hinner).bind fun b b' hb => .pure ?_
  have hbody := hb.1
  unfold Stmt.Alike
  unfold Stmt.AllAlike at hbody
  unfold Param.AllAlike at hps
  rw [Stmt.respan, Stmt.respan, hps, hbody, hb.2, v.join ht.span hb.2]

theorem match_block :
    Match v more whole (BlockAlike v) (block s (n + 1)) (block s' (n + d + 1)) := by
  rw [block, block]
  refine (match_expect hs Kind.noConfusion).bind fun a a' ha => ?_
  intro ts ts' hts
  refine (ih.blockBody s s' hs _ _ ha.1.span ts ts' hts).bind
    fun ss ss' us us' hok hss hus hlen => ?_
  -- The closing brace is still of the first list, so the block does not reach over the seam.
  have hclosing : (next s us).kind = .rcurly := (ends_blockBody_rcurly s _ n ts).of_ok hok
  cases hus with
  | nil => exact absurd (hclosing.symm.trans hs.eof) Kind.noConfusion
  | @cons c c' left left' hc hleft =>
    rw [List.cons_append, bind_eq_of_ok advance_cons, bind_eq_of_ok advance_cons]
    refine Follows.mono (Match.pure ⟨hss, ?_⟩ left left' hleft) (Nat.le_of_succ_le hlen)
    exact v.join ha.1.span hc.span

theorem match_blockBody {a a' : Span} (ha : v.left a = v.right a') :
    Match v more whole (Stmt.AllAlike v) (blockBody s (n + 1) a) (blockBody s' (n + d + 1) a') := by
  intro ts ts' hts
  rw [blockBody, blockBody, bind_eq_of_ok peek_eq, bind_eq_of_ok peek_eq]
  have hpiece : Follows v more whole ts.length (Stmt.AllAlike v)
      ((do
        let first ← statement s n
        let rest ← blockBody s n a
        return first :: rest : Parser (List Stmt)) ts)
      ((do
        let first ← statement s' (n + d)
        let rest ← blockBody s' (n + d) a'
        return first :: rest : Parser (List Stmt)) (ts' ++ more)) := by
    refine (ih.statement s s' hs ts ts' hts).bind fun st st' us us' _ hst hus hlen => ?_
    refine Follows.mono ?_ (Nat.le_trans hlen (Nat.sub_le _ _))
    refine (ih.blockBody s s' hs a a' ha).bind (fun ss ss' hss => .pure (.cons hst hss)) us us' hus
  have hunclosed : Match v more whole (Stmt.AllAlike v)
      (fail .unclosedBlock a) (fail .unclosedBlock a') := .fail rfl ha
  cases hts with
  | nil =>
    rw [show (next s []).kind = .eof from hs.eof]
    rcases hs.next_nil with hend | hpart
    · rw [hend]
      exact hunclosed [] [] .nil
    · exact .of_stops rfl hpart
  | @cons t t' rest rest' ht hrest =>
    have hnext : next s (t :: rest) = t := rfl
    have hnext' : next s' (t' :: rest' ++ more) = t' := rfl
    rw [hnext, hnext', ht.kind]
    cases hk : t.kind with
    | rcurly => exact Match.pure .nil (t :: rest) (t' :: rest') (.cons ht hrest)
    | eof => exact absurd hk ht.inside
    | semicolon =>
      dsimp only
      rw [List.cons_append, bind_eq_of_ok advance_cons, bind_eq_of_ok advance_cons]
      exact (ih.blockBody s s' hs a a' ha rest rest' hrest).mono (Nat.le_succ _)
    | _ => exact hpiece

end Step

/-- Like tokens give like statements, with no less fuel on the right. -/
theorem statementsMatch (v : Alignment) (more : List Token) (whole : Prop) (n d : Nat) :
    StatementsMatch v more whole n (n + d) := by
  induction n with
  | zero =>
    constructor
    · intro s s' _ ts ts' _; rw [statement_zero]; trivial
    · intro s s' _ t t' rest rest' _ _; rw [ifStatement_zero]; trivial
    · intro s s' _ t t' rest rest' _ _; rw [fnDeclaration_zero]; trivial
    · intro s s' _; rw [block_zero]; exact .outOfFuel _
    · intro s s' _ a a' _; rw [blockBody_zero]; exact .outOfFuel _
  | succ n ih =>
    rw [Nat.succ_add]
    exact ⟨fun _ _ hs _ _ => follows_statement hs ih,
      fun _ _ hs _ _ _ _ ht => follows_ifStatement hs ih ht,
      fun _ _ hs _ _ _ _ ht => follows_fnDeclaration hs ih ht, fun _ _ hs => match_block hs ih,
      fun _ _ hs _ _ => match_blockBody hs ih⟩

/-! ## Programs -/

theorem match_statements (hs : Seam v [] whole s s') (n d : Nat) :
    Match v [] whole (Stmt.AllAlike v) (statements s n) (statements s' (n + d)) := by
  induction n with
  | zero => rw [statements]; exact .outOfFuel _
  | succ n ih =>
    intro ts ts' hts
    have hkind : (next s' (ts' ++ [])).kind = (next s ts).kind := by
      cases hts with
      | nil => exact hs.eof'.trans hs.eof.symm
      | cons ht hrest => exact ht.kind
    rw [Nat.succ_add, statements, statements, bind_eq_of_ok peek_eq, bind_eq_of_ok peek_eq, hkind]
    have hpiece : Follows v [] whole ts.length (Stmt.AllAlike v)
        ((do
          let first ← statement s n
          let rest ← statements s n
          return first :: rest : Parser (List Stmt)) ts)
        ((do
          let first ← statement s' (n + d)
          let rest ← statements s' (n + d)
          return first :: rest : Parser (List Stmt)) (ts' ++ [])) := by
      refine ((statementsMatch v [] whole n d).statement s s' hs ts ts' hts).bind
        fun st st' us us' _ hst hus hlen => ?_
      refine Follows.mono ?_ (Nat.le_trans hlen (Nat.sub_le _ _))
      exact ih.bind (fun ss ss' hss => .pure (.cons hst hss)) us us' hus
    cases hk : (next s ts).kind with
    | eof => exact Match.pure .nil ts ts' hts
    | semicolon =>
      dsimp only
      cases hts with
      | nil => exact absurd (hk.symm.trans hs.eof) Kind.noConfusion
      | @cons t t' rest rest' ht hrest =>
        rw [List.cons_append, bind_eq_of_ok advance_cons, bind_eq_of_ok advance_cons]
        exact (ih rest rest' hrest).mono (Nat.le_succ _)
    | _ => exact hpiece

theorem statements_of_ne {t : Token} {rest : List Token} (heof : t.kind ≠ .eof)
    (hsemicolon : t.kind ≠ .semicolon) :
    statements s (n + 1) (t :: rest) = (do
      let first ← statement s n
      let rest ← statements s n
      return first :: rest : Parser (List Stmt)) (t :: rest) := by
  rw [statements, bind_eq_of_ok peek_cons]
  cases hk : t.kind with
  | eof => exact absurd hk heof
  | semicolon => exact absurd hk hsemicolon
  | _ => rfl

/-- Statements that can be read are read also with more behind them, and then what is behind them
is read, with what fuel is left: at most one unit has gone for each token. -/
theorem statements_append (hs : Seam v more whole s s') (d : Nat) {ts ts' left : List Token}
    {p : Program} (hts : List.Forall₂ (Token.Alike v) ts ts')
    (h : statements s n ts = .ok p left) :
    ∃ p' k, Stmt.AllAlike v p p' ∧ k ≤ ts.length ∧
      ∀ q end_, statements s' (n + d - k) more = .ok q end_ →
        statements s' (n + d) (ts' ++ more) = .ok (p' ++ q) end_ := by
  induction n generalizing ts ts' p with
  | zero => rw [statements] at h; cases h
  | succ n ih =>
    rw [Nat.succ_add]
    cases hts with
    | nil =>
      rw [statements, bind_eq_of_ok peek_eq, show (next s []).kind = .eof from hs.eof] at h
      cases h
      exact ⟨[], 0, .nil, Nat.le_refl 0, fun q end_ hq => hq⟩
    | @cons t t' rest rest' ht hrest =>
      by_cases hsemicolon : t.kind = .semicolon
      · rw [statements_semicolon hsemicolon] at h
        obtain ⟨p', k, hp, hk, happend⟩ := ih hrest h
        refine ⟨p', k + 1, hp, Nat.succ_le_succ hk, fun q end_ hq => ?_⟩
        rw [Nat.succ_sub_succ] at hq
        rw [List.cons_append, statements_semicolon (ht.kind.trans hsemicolon)]
        exact happend q end_ hq
      · rw [statements_of_ne ht.inside hsemicolon] at h
        -- The statement takes a token at least, which pays for its unit of fuel.
        have hst := (statementsMatch v more whole n d).statement s s' hs _ _ (.cons ht hrest)
        cases hx : statement s n (t :: rest) with
        | error e us => rw [bind_eq_of_error hx] at h; cases h
        | ok st us =>
          rw [hx] at hst
          obtain ⟨st', us', hx', hst', hus, hlen⟩ := hst
          rw [bind_eq_of_ok hx] at h
          cases hy : statements s n us with
          | error e end_ => rw [bind_eq_of_error hy] at h; cases h
          | ok ss end_ =>
            rw [bind_eq_of_ok hy] at h
            cases h
            obtain ⟨p', k, hp, hk, happend⟩ := ih hus hy
            have hlen' : us.length ≤ rest.length := hlen
            refine ⟨st' :: p', k + 1, .cons hst' hp, ?_, fun q last hq => ?_⟩
            · exact Nat.succ_le_succ (Nat.le_trans hk hlen')
            · rw [Nat.succ_sub_succ] at hq
              rw [List.cons_append, statements_of_ne (ht.kind ▸ ht.inside)
                (ht.kind ▸ hsemicolon), ← List.cons_append, bind_eq_of_ok hx',
                bind_eq_of_ok (happend q last hq)]
              rfl

/-- Statements that can be read begin as they must. -/
theorem opens_of_statements {t : Token} {rest left : List Token} {p : Program}
    (heof : t.kind ≠ .eof) (h : statements s n (t :: rest) = .ok p left) : Opens t.kind := by
  by_cases hsemicolon : t.kind = .semicolon
  · exact .inr (.inl hsemicolon)
  · cases n with
    | zero => rw [statements] at h; cases h
    | succ n =>
      rw [statements_of_ne heof hsemicolon] at h
      cases n with
      | zero => rw [statement_zero] at h; cases h
      | succ n =>
        refine .inr (.inr ?_)
        by_contra hbegins
        have hstop : statement s (n + 1) (t :: rest) =
            unexpected s (utf8 "a statement") (t :: rest) := by
          rw [statement, bind_eq_of_ok peek_cons]
          revert hbegins
          cases t.kind with
          | kLet | ident | kIf | kLoop | kBreak | kReturn | kExit | kFn =>
            exact fun hbegins => absurd (by decide) hbegins
          | _ => exact fun _ => rfl
        rw [bind_eq_of_error hstop] at h
        cases h

end Parser
end Scriptlet
