import Scriptlet.Proofs.Parallel.Parsing
import Scriptlet.Proofs.Program.Assembly

/-!
# Nesting: the spans of a program nest

What holds of the tokens of a source, that they lie one behind the other and are spelled by their
bytes, passes to the trees that are made of them: statements lie in their blocks, blocks between
their braces, and simple statements end with their semicolons.
-/

namespace Scriptlet

namespace Parser

open Grammar Scriptlet.Span Token

variable {src : Bytes} {s : Surroundings} {a : Nat} {rest : List Token}

/-! ## Simple statements -/

/-- The statement lies between the offset and the tokens left, and its spans nest. -/
def StmtNestsFrom (src : Bytes) (a : Nat) (st : Stmt) (left : List Token) : Prop :=
  ∃ b, st.Nests src ∧ st.span.Lies a b ∧ Behind src b left

/-- What ends with a semicolon covers what was read before it. -/
theorem exists_ended {start : Span} {z : Token} {left : List Token} {parts : List Span}
    {i j c : Nat} (hstart : start = .between i j) (ha : a ≤ i) (hij : i < j) (hjc : j ≤ c)
    (hparts : Row i c parts) (h : Behind src c (z :: left)) (hz : z.kind = .semicolon) :
    ∃ b, (start.join z.span).Ends src ∧ (start.join z.span).Holds parts ∧
      (start.join z.span).Lies a b ∧ Behind src b left := by
  obtain ⟨m, n, hspan, hm, hmn, hn, hwritten, hleft⟩ := h
  rw [hz] at hwritten
  obtain ⟨hnext, hbyte⟩ := hwritten.byte hmn hn (by decide) Kind.noConfusion rfl
  have hjoin : start.join z.span = .between i n := by
    rw [hstart, hspan, join_between (by omega) (by omega)]
  have hrow : Row i n parts := hparts.mono (Nat.le_refl i) (by omega)
  obtain ⟨hinside, hholds, hlies⟩ := hrow.node hjoin (by omega) ha (Nat.le_refl n) hn
  refine ⟨n, ⟨hinside, ?_⟩, hholds, hlies, hleft⟩
  rw [hjoin]
  show src[n - 1]? = _
  rw [hnext]
  exact hbyte

section Simple

variable (heof : s.eof.kind = .eof) (fuel : Nat)
include heof

theorem nests_letStatement (t : Token) (h : Behind src a (t :: rest)) :
    Ends (letStatement s fuel (t :: rest)) (StmtNestsFrom src a) (fun _ _ => True) := by
  unfold letStatement
  rw [bind_eq_of_ok advance_cons]
  obtain ⟨i, j, hspan, ha, hij, -, -, hrest⟩ := h
  refine ends_expect heof Kind.noConfusion fun x left hleft _ => ?_
  subst hleft
  obtain ⟨i', j', hname, hi', hij', hj', -, hrest⟩ := hrest
  refine ends_part (behind_of_optionalType heof fuel Kind.noConfusion hrest)
    fun type left htype => ?_
  obtain ⟨b, hb, hleft⟩ := htype
  refine ends_expect heof Kind.noConfusion fun q after hafter _ => ?_
  subst hafter
  obtain ⟨m, n, -, hm, hmn, -, -, hafter⟩ := hleft
  refine ends_part ((nestsAt heof fuel).expression 0 n after hafter) fun value left hvalue => ?_
  obtain ⟨c, hnests, hlies, hleft⟩ := hvalue
  have hlt := hlies.lt
  refine ends_endStatement heof fun z after hz hsemicolon => ?_
  subst hz
  have hparts : Row i c [x.span, value.span] :=
    ⟨i', j', hname, by omega, hij', (hlies.mono (by omega) (Nat.le_refl c)).row⟩
  obtain ⟨e, hends, hholds, hlies, hafter⟩ :=
    exists_ended hspan ha hij (by omega) hparts hleft hsemicolon
  exact ⟨e, ⟨hends, hholds, ⟨i', j', hname, Nat.zero_le i', hij', hj'⟩, hnests⟩, hlies, hafter⟩

theorem nests_nameStatement (t : Token) (h : Behind src a (t :: rest)) :
    Ends (nameStatement s fuel (t :: rest)) (StmtNestsFrom src a) (fun _ _ => True) := by
  unfold nameStatement
  rw [bind_eq_of_ok peek_cons, bind_eq_of_ok secondKind_cons]
  cases hkind : (next s rest).kind with
  | assign =>
    obtain ⟨q, left, rfl, -⟩ := exists_cons_of_next heof hkind Kind.noConfusion
    obtain ⟨i, j, hspan, ha, hij, -, -, i', j', -, hi', hij', -, -, hrest⟩ := h
    dsimp only
    rw [bind_eq_of_ok advance_cons, bind_eq_of_ok advance_cons]
    refine ends_part ((nestsAt heof fuel).expression 0 j' left hrest) fun value left hvalue => ?_
    obtain ⟨c, hnests, hlies, hleft⟩ := hvalue
    have hlt := hlies.lt
    refine ends_endStatement heof fun z after hz hsemicolon => ?_
    subst hz
    have hparts : Row i c [value.span] := (hlies.mono (by omega) (Nat.le_refl c)).row
    obtain ⟨e, hends, hholds, hlies, hafter⟩ :=
      exists_ended hspan ha hij (by omega) hparts hleft hsemicolon
    exact ⟨e, ⟨hends, hholds, hnests⟩, hlies, hafter⟩
  | lbracket =>
    obtain ⟨q, left, rfl, -⟩ := exists_cons_of_next heof hkind Kind.noConfusion
    obtain ⟨i, j, hspan, ha, hij, -, -, i', j', -, hi', hij', -, -, hrest⟩ := h
    dsimp only
    rw [bind_eq_of_ok advance_cons, bind_eq_of_ok advance_cons]
    refine ends_part ((nestsAt heof fuel).expression 0 j' left hrest) fun place left hplace => ?_
    obtain ⟨b, hplace, hlies, hleft⟩ := hplace
    have hlt := hlies.lt
    refine ends_expect heof Kind.noConfusion fun r after hafter _ => ?_
    subst hafter
    obtain ⟨m, n, -, hm, hmn, -, -, hafter⟩ := hleft
    refine ends_expect heof Kind.noConfusion fun q left hleft _ => ?_
    subst hleft
    obtain ⟨m', n', -, hm', hmn', -, -, hleft⟩ := hafter
    refine ends_part ((nestsAt heof fuel).expression 0 n' left hleft) fun value left hvalue => ?_
    obtain ⟨c, hvalue, hlies', hleft⟩ := hvalue
    have hlt' := hlies'.lt
    refine ends_endStatement heof fun z after hz hsemicolon => ?_
    subst hz
    have hparts : Row i c [place.span, value.span] :=
      (hlies.mono (by omega) (Nat.le_refl b)).cons
        (hlies'.mono (by omega) (Nat.le_refl c)).row
    obtain ⟨e, hends, hholds, hlies, hafter⟩ :=
      exists_ended hspan ha hij (by omega) hparts hleft hsemicolon
    exact ⟨e, ⟨hends, hholds, hplace, hvalue⟩, hlies, hafter⟩
  | lparen =>
    obtain ⟨q, left, rfl, -⟩ := exists_cons_of_next heof hkind Kind.noConfusion
    refine ends_part ((nestsAt heof fuel).call a t q left h) fun c left hc => ?_
    obtain ⟨b, hnests, ⟨i, j, hspan, ha, hij, hj⟩, hleft⟩ := hc
    refine ends_endStatement heof fun z after hz hsemicolon => ?_
    subst hz
    have hparts : Row i b [c.2] := ⟨i, j, hspan, Nat.le_refl i, hij, hj⟩
    obtain ⟨e, hends, hholds, hlies, hafter⟩ :=
      exists_ended hspan ha hij hj hparts hleft hsemicolon
    exact ⟨e, ⟨hends, hholds, hnests⟩, hlies, hafter⟩
  | _ => trivial

theorem nests_breakStatement (t : Token) (h : Behind src a (t :: rest)) :
    Ends (breakStatement s (t :: rest)) (StmtNestsFrom src a) (fun _ _ => True) := by
  unfold breakStatement
  rw [bind_eq_of_ok advance_cons]
  obtain ⟨i, j, hspan, ha, hij, -, -, hrest⟩ := h
  split
  · refine ends_endStatement heof fun z after hz hsemicolon => ?_
    subst hz
    have hparts : Row i j [] := Nat.le_of_lt hij
    obtain ⟨e, hends, -, hlies, hafter⟩ :=
      exists_ended hspan ha hij (Nat.le_refl j) hparts hrest hsemicolon
    exact ⟨e, hends, hlies, hafter⟩
  · trivial

theorem nests_returnStatement (t : Token) (h : Behind src a (t :: rest)) :
    Ends (returnStatement s fuel (t :: rest)) (StmtNestsFrom src a) (fun _ _ => True) := by
  unfold returnStatement
  rw [bind_eq_of_ok advance_cons]
  obtain ⟨i, j, hspan, ha, hij, -, -, hrest⟩ := h
  cases s.function with
  | none => trivial
  | some f =>
  obtain ⟨name, result⟩ := f
  dsimp only
  have hvalue : Ends (returnValue s fuel rest)
      (fun value left => ∃ c, j ≤ c ∧ Row i c (value.toList.map Expr.span) ∧
        (∀ e ∈ value, e.Nests src) ∧ Behind src c left) (fun _ _ => True) := by
    unfold returnValue
    refine ends_ifAt heof Kind.noConfusion (fun z left hz _ => ?_) fun _ => ?_
    · subst hz
      exact ⟨j, Nat.le_refl j, Nat.le_of_lt hij, nofun, hrest⟩
    · refine ends_part ((nestsAt heof fuel).expression 0 j rest hrest) fun value left hvalue => ?_
      obtain ⟨c, hnests, hlies, hleft⟩ := hvalue
      have hlt := hlies.lt
      refine ⟨c, by omega, (hlies.mono (by omega) (Nat.le_refl c)).row, ?_, hleft⟩
      intro e he
      cases he
      exact hnests
  refine ends_part hvalue fun value left hvalue => ?_
  obtain ⟨c, hjc, hparts, hnests, hleft⟩ := hvalue
  refine ends_endStatement heof fun z after hz hsemicolon => ?_
  subst hz
  obtain ⟨e, hends, hholds, hlies, hafter⟩ :=
    exists_ended hspan ha hij hjc hparts hleft hsemicolon
  cases value with
  | none =>
    cases result with
    | none => exact ⟨e, hends, hlies, hafter⟩
    | some type => trivial
  | some v =>
    cases result with
    | none => trivial
    | some type => exact ⟨e, ⟨hends, hholds, hnests v rfl⟩, hlies, hafter⟩

theorem nests_exitStatement (t : Token) (h : Behind src a (t :: rest)) :
    Ends (exitStatement s fuel (t :: rest)) (StmtNestsFrom src a) (fun _ _ => True) := by
  unfold exitStatement
  rw [bind_eq_of_ok advance_cons]
  obtain ⟨i, j, hspan, ha, hij, -, -, hrest⟩ := h
  refine ends_part ((nestsAt heof fuel).expression 0 j rest hrest) fun value left hvalue => ?_
  obtain ⟨c, hnests, hlies, hleft⟩ := hvalue
  have hlt := hlies.lt
  refine ends_endStatement heof fun z after hz hsemicolon => ?_
  subst hz
  have hparts : Row i c [value.span] := (hlies.mono (by omega) (Nat.le_refl c)).row
  obtain ⟨e, hends, hholds, hlies, hafter⟩ :=
    exists_ended hspan ha hij (by omega) hparts hleft hsemicolon
  exact ⟨e, ⟨hends, hholds, hnests⟩, hlies, hafter⟩

theorem nests_params (seen : List Bytes) (h : Behind src a rest) :
    Ends (params s seen fuel rest)
      (fun ps left => ∃ b, Row a b (ps.map Param.span) ∧ (∀ p ∈ ps, p.span.Inside src) ∧
        Behind src b left) (fun _ _ => True) := by
  induction fuel generalizing seen a rest with
  | zero => trivial
  | succ fuel ih =>
    rw [params]
    refine ends_ifAt heof Kind.noConfusion (fun t left hleft _ => ?_) fun _ => ?_
    · subst hleft
      exact ⟨a, Nat.le_refl a, List.forall_mem_nil _, h⟩
    refine ends_expect heof Kind.noConfusion fun x left hleft _ => ?_
    subst hleft
    obtain ⟨i, j, hspan, ha, hij, hj, -, hrest⟩ := h
    split
    · trivial
    refine ends_expect heof Kind.noConfusion fun c left' hleft' _ => ?_
    subst hleft'
    obtain ⟨i', j', -, hi', hij', -, -, hrest⟩ := hrest
    refine ends_part (behind_of_typeRef heof fuel hrest) fun type after htype => ?_
    obtain ⟨b, hb, hafter⟩ := htype
    have hinside : x.span.Inside src := ⟨i, j, hspan, Nat.zero_le i, hij, hj⟩
    refine ends_ifAt heof Kind.noConfusion (fun d us hus _ => ?_) fun _ => ?_
    · subst hus
      obtain ⟨m, n, -, hm, hmn, -, -, hus⟩ := hafter
      rw [bind_eq_of_ok advance_cons]
      refine ends_part (ih (x.literal :: seen) hus) fun ps left hps => ?_
      obtain ⟨e, hrow, hall, hleft⟩ := hps
      exact ⟨e, ⟨i, j, hspan, ha, hij, hrow.mono (by omega) (Nat.le_refl e)⟩,
        List.forall_mem_cons.2 ⟨hinside, hall⟩, hleft⟩
    · exact ⟨b, ⟨i, j, hspan, ha, hij, show j ≤ b by omega⟩,
        List.forall_mem_singleton.2 hinside, hafter⟩

end Simple

/-! ## Statements that hold statements -/

/-- What the statement parsers give with a given amount of fuel. -/
structure StmtNestsAt (src : Bytes) (eof : Token) (fuel : Nat) : Prop where
  statement : ∀ s : Surroundings, s.eof = eof → ∀ a rest, Behind src a rest →
    Ends (statement s fuel rest) (StmtNestsFrom src a) (fun _ _ => True)
  ifStatement : ∀ s : Surroundings, s.eof = eof → ∀ a t rest, Behind src a (t :: rest) →
    Ends (ifStatement s fuel (t :: rest))
      (fun st left => StmtNestsFrom src a st left ∧ st.Branches) (fun _ _ => True)
  fnDeclaration : ∀ s : Surroundings, s.eof = eof → ∀ a t rest, Behind src a (t :: rest) →
    Ends (fnDeclaration s fuel (t :: rest)) (StmtNestsFrom src a) (fun _ _ => True)
  block : ∀ s : Surroundings, s.eof = eof → ∀ a rest, Behind src a rest →
    Ends (block s fuel rest)
      (fun b left => ∃ c, b.2.Braces src (b.1.map Stmt.span) ∧ Stmt.AllNest src b.1 ∧
        b.2.Lies a c ∧ Behind src c left) (fun _ _ => True)
  blockBody : ∀ s : Surroundings, s.eof = eof → ∀ opening a rest, Behind src a rest →
    Ends (blockBody s fuel opening rest)
      (fun ss left => ∃ b z after, Row a b (ss.map Stmt.span) ∧ Stmt.AllNest src ss ∧
        left = z :: after ∧ z.kind = .rcurly ∧ Behind src b left) (fun _ _ => True)

section Step

variable {eof : Token} {fuel : Nat} (heof : eof.kind = .eof) (ih : StmtNestsAt src eof fuel)
include heof ih

theorem nests_statement (s : Surroundings) (hs : s.eof = eof) (a : Nat) (rest : List Token)
    (h : Behind src a rest) :
    Ends (statement s (fuel + 1) rest) (StmtNestsFrom src a) (fun _ _ => True) := by
  have hseof : s.eof.kind = .eof := hs ▸ heof
  rw [statement, bind_eq_of_ok peek_eq]
  cases rest with
  | nil =>
    have hnext : (next s []).kind = .eof := hseof
    rw [hnext]
    trivial
  | cons t rest =>
    have hnext : next s (t :: rest) = t := rfl
    rw [hnext]
    cases t.kind with
    | kLet => exact nests_letStatement hseof fuel t h
    | ident => exact nests_nameStatement hseof fuel t h
    | kIf => exact (ih.ifStatement s hs a t rest h).mono (fun st left h => h.1) (fun _ _ h => h)
    | kLoop =>
      dsimp only
      rw [bind_eq_of_ok advance_cons]
      obtain ⟨i, j, hspan, ha, hij, -, -, hrest⟩ := h
      refine ends_part (ih.block { s with inLoop := true } hs j rest hrest) fun b left hb => ?_
      obtain ⟨c, hbraces, hall, ⟨k, l, hspan', hk, hkl, hl⟩, hleft⟩ := hb
      have hjoin : t.span.join b.2 = .between i l := by
        rw [hspan, hspan', join_between (by omega) (by omega)]
      have hrow : Row i l [b.2] := ⟨k, l, hspan', by omega, hkl, Nat.le_refl l⟩
      obtain ⟨hinside, hholds, hlies⟩ := hrow.node hjoin (by omega) ha hl hleft.le
      exact ⟨c, ⟨hinside, hholds, hbraces, hall⟩, hlies, hleft⟩
    | kBreak => exact nests_breakStatement hseof t h
    | kReturn => exact nests_returnStatement hseof fuel t h
    | kExit => exact nests_exitStatement hseof fuel t h
    | kFn => exact ih.fnDeclaration s hs a t rest h
    | _ => trivial

theorem nests_ifStatement (s : Surroundings) (hs : s.eof = eof) (a : Nat) (t : Token)
    (rest : List Token) (h : Behind src a (t :: rest)) :
    Ends (ifStatement s (fuel + 1) (t :: rest))
      (fun st left => StmtNestsFrom src a st left ∧ st.Branches) (fun _ _ => True) := by
  have hseof : s.eof.kind = .eof := hs ▸ heof
  rw [ifStatement, bind_eq_of_ok advance_cons]
  obtain ⟨i, j, hspan, ha, hij, -, -, hrest⟩ := h
  refine ends_part ((nestsAt hseof fuel).expression 0 j rest hrest) fun cond left hcond => ?_
  obtain ⟨b, hcond, hlies, hleft⟩ := hcond
  have hlt := hlies.lt
  refine ends_part (ih.block s hs b left hleft) fun body after hbody => ?_
  obtain ⟨c, hbraces, hall, ⟨k, l, hspan', hk, hkl, hl⟩, hafter⟩ := hbody
  have hjoin : t.span.join body.2 = .between i l := by
    rw [hspan, hspan', join_between (by omega) (by omega)]
  have hbodyLies : body.2.Lies b l := ⟨k, l, hspan', hk, hkl, Nat.le_refl l⟩
  have hcondLies : cond.span.Lies i b := hlies.mono (by omega) (Nat.le_refl b)
  refine ends_ifAt hseof Kind.noConfusion (fun e left hleft _ => ?_) fun _ => ?_
  · subst hleft
    obtain ⟨m, n, -, hm, hmn, -, -, hrest⟩ := hafter
    rw [bind_eq_of_ok advance_cons]
    -- Whatever the other branch is, it lies behind the body and the whole reaches to its end.
    have hwhole {otherSpan : Span} {d : Nat} {left : List Token} (hother : otherSpan.Lies n d)
        (hleft : Behind src d left) : ((t.span.join body.2).join otherSpan).Inside src ∧
          ((t.span.join body.2).join otherSpan).Holds [cond.span, body.2, otherSpan] ∧
          ((t.span.join body.2).join otherSpan).Lies a d := by
      obtain ⟨p, q, hother, hp, hpq, hq⟩ := hother
      have hjoin' : (t.span.join body.2).join otherSpan = .between i q := by
        rw [hjoin, hother, join_between (by omega) (by omega)]
      have hotherRow : Row l q [otherSpan] := ⟨p, q, hother, by omega, hpq, Nat.le_refl q⟩
      exact (hcondLies.cons (hbodyLies.cons hotherRow)).node hjoin' (by omega) ha hq hleft.le
    refine ends_ifAt hseof Kind.noConfusion (fun f left' hleft' _ => ?_) fun _ => ?_
    · subst hleft'
      refine ends_part (ih.ifStatement s hs n f left' hrest) fun nested after hnested => ?_
      obtain ⟨⟨d, hnests, hlies', hafter⟩, hbranches⟩ := hnested
      obtain ⟨hinside, hholds, hlies⟩ := hwhole hlies' hafter
      exact ⟨⟨d, ⟨hinside, hholds, hcond, hbraces, hall, .inr ⟨nested, rfl, hbranches, rfl⟩,
        hnests, trivial⟩, hlies, hafter⟩, trivial⟩
    · refine ends_part (ih.block s hs n left hrest) fun other after hother => ?_
      obtain ⟨d, hbraces', hall', hlies', hafter⟩ := hother
      obtain ⟨hinside, hholds, hlies⟩ := hwhole hlies' hafter
      exact ⟨⟨d, ⟨hinside, hholds, hcond, hbraces, hall, .inl hbraces', hall'⟩, hlies, hafter⟩,
        trivial⟩
  · have hrow : Row i l [cond.span, body.2] := hcondLies.cons hbodyLies.row
    obtain ⟨hinside, hholds, hlies⟩ := hrow.node hjoin (by omega) ha hl hafter.le
    exact ⟨⟨c, ⟨hinside, hholds, hcond, hbraces, hall⟩, hlies, hafter⟩, trivial⟩

theorem nests_fnDeclaration (s : Surroundings) (hs : s.eof = eof) (a : Nat) (t : Token)
    (rest : List Token) (h : Behind src a (t :: rest)) :
    Ends (fnDeclaration s (fuel + 1) (t :: rest)) (StmtNestsFrom src a) (fun _ _ => True) := by
  have hseof : s.eof.kind = .eof := hs ▸ heof
  rw [fnDeclaration, bind_eq_of_ok advance_cons]
  obtain ⟨i, j, hspan, ha, hij, -, -, hrest⟩ := h
  refine ends_expect hseof Kind.noConfusion fun x left hleft _ => ?_
  subst hleft
  obtain ⟨i₁, j₁, -, hi₁, hij₁, -, -, hrest⟩ := hrest
  refine ends_expect hseof Kind.noConfusion fun p left' hleft' _ => ?_
  subst hleft'
  obtain ⟨i₂, j₂, -, hi₂, hij₂, -, -, hrest⟩ := hrest
  refine ends_part (nests_params hseof fuel [] hrest) fun ps after hps => ?_
  obtain ⟨b, hparams, hinsideParams, hafter⟩ := hps
  have hb := hparams.le
  refine ends_expect hseof Kind.noConfusion fun q left hleft _ => ?_
  subst hleft
  obtain ⟨i₃, j₃, -, hi₃, hij₃, -, -, hrest⟩ := hafter
  refine ends_part (behind_of_optionalType hseof fuel Kind.noConfusion hrest)
    fun result after hr => ?_
  obtain ⟨c, hc, hafter⟩ := hr
  refine ends_part (ih.block ⟨s.eof, false, some (x.literal, result)⟩ hs c after hafter)
    fun body left hbody => ?_
  obtain ⟨d, hbraces, hall, ⟨k, l, hspan', hk, hkl, hl⟩, hleft⟩ := hbody
  have hjoin : t.span.join body.2 = .between i l := by
    rw [hspan, hspan', join_between (by omega) (by omega)]
  have hbodyRow : Row b l [body.2] := ⟨k, l, hspan', by omega, hkl, Nat.le_refl l⟩
  have hrow : Row i l (ps.map Param.span ++ [body.2]) :=
    (hparams.mono (by omega) (Nat.le_refl b)).append hbodyRow
  obtain ⟨hinside, hholds, hlies⟩ := hrow.node hjoin (by omega) ha hl hleft.le
  exact ⟨d, ⟨hinside, hholds, hinsideParams, hbraces, hall⟩, hlies, hleft⟩

theorem nests_block (s : Surroundings) (hs : s.eof = eof) (a : Nat) (rest : List Token)
    (h : Behind src a rest) :
    Ends (block s (fuel + 1) rest)
      (fun b left => ∃ c, b.2.Braces src (b.1.map Stmt.span) ∧ Stmt.AllNest src b.1 ∧
        b.2.Lies a c ∧ Behind src c left) (fun _ _ => True) := by
  have hseof : s.eof.kind = .eof := hs ▸ heof
  rw [block]
  refine ends_expect hseof Kind.noConfusion fun t left hleft ht => ?_
  subst hleft
  obtain ⟨i, j, hspan, ha, hij, hj, hopening, hrest⟩ := h
  rw [ht] at hopening
  obtain ⟨hj', hfirst⟩ := hopening.byte hij hj (by decide) Kind.noConfusion rfl
  refine ends_part (ih.blockBody s hs t.span j left hrest) fun body left hbody => ?_
  obtain ⟨b, z, after, hrow, hall, rfl, hz, m, n, hspan', hm, hmn, hn, hclosing, hafter⟩ := hbody
  rw [hz] at hclosing
  obtain ⟨hn', hlast⟩ := hclosing.byte hmn hn (by decide) Kind.noConfusion rfl
  rw [bind_eq_of_ok advance_cons]
  have hb := hrow.le
  have hjoin : t.span.join z.span = .between i n := by
    rw [hspan, hspan', join_between (by omega) (by omega)]
  have hlies : (t.span.join z.span).Lies a n := ⟨i, n, hjoin, ha, by omega, Nat.le_refl n⟩
  refine ⟨n, ⟨hlies.mono (Nat.zero_le a) hn, ?_, ?_, ?_⟩, hall, hlies, hafter⟩
  · rw [hjoin]
    exact hfirst
  · rw [hjoin]
    show src[n - 1]? = _
    rw [hn']
    exact hlast
  · -- Between the braces: behind the first byte and before the last.
    have hbetween : Span.mk ((Span.between i n).start + 1) ((Span.between i n).stop - 1) =
        .between j m := by
      unfold Span.between
      congr 1
      · dsimp only
        omega
      · dsimp only
        omega
    show Holds ⟨(t.span.join z.span).start + 1, (t.span.join z.span).stop - 1⟩ _
    rw [hjoin, hbetween]
    exact hrow.holds (Nat.le_refl j) hm

theorem nests_blockBody (s : Surroundings) (hs : s.eof = eof) (opening : Span) (a : Nat)
    (rest : List Token) (h : Behind src a rest) :
    Ends (blockBody s (fuel + 1) opening rest)
      (fun ss left => ∃ b z after, Row a b (ss.map Stmt.span) ∧ Stmt.AllNest src ss ∧
        left = z :: after ∧ z.kind = .rcurly ∧ Behind src b left) (fun _ _ => True) := by
  have hseof : s.eof.kind = .eof := hs ▸ heof
  rw [blockBody, bind_eq_of_ok peek_eq]
  have hmore : Ends ((do
        let first ← statement s fuel
        let rest ← blockBody s fuel opening
        return first :: rest : Parser (List Stmt)) rest)
      (fun ss left => ∃ b z after, Row a b (ss.map Stmt.span) ∧ Stmt.AllNest src ss ∧
        left = z :: after ∧ z.kind = .rcurly ∧ Behind src b left) (fun _ _ => True) := by
    refine ends_part (ih.statement s hs a rest h) fun st left hst => ?_
    obtain ⟨b, hnests, hlies, hleft⟩ := hst
    refine ends_part (ih.blockBody s hs opening b left hleft) fun ss left hss => ?_
    obtain ⟨c, z, after, hrow, hall, hss⟩ := hss
    exact ⟨c, z, after, hlies.cons hrow, ⟨hnests, hall⟩, hss⟩
  cases hk : (next s rest).kind with
  | rcurly =>
    obtain ⟨z, after, rfl, hz⟩ := exists_cons_of_next hseof hk Kind.noConfusion
    exact ⟨a, z, after, Nat.le_refl a, trivial, rfl, hz, h⟩
  | eof => trivial
  | semicolon =>
    obtain ⟨z, after, rfl, -⟩ := exists_cons_of_next hseof hk Kind.noConfusion
    obtain ⟨i, j, -, ha, hij, -, -, hrest⟩ := h
    dsimp only
    rw [bind_eq_of_ok advance_cons]
    refine (ih.blockBody s hs opening j after hrest).mono (fun ss left hss => ?_) (fun _ _ h => h)
    obtain ⟨b, z, after, hrow, hss⟩ := hss
    exact ⟨b, z, after, hrow.mono (by omega) (Nat.le_refl b), hss⟩
  | _ => exact hmore

end Step

theorem stmtNestsAt {eof : Token} (heof : eof.kind = .eof) (fuel : Nat) :
    StmtNestsAt src eof fuel := by
  induction fuel with
  | zero =>
    constructor
    · intro s _ a rest _; rw [statement_zero]; trivial
    · intro s _ a t rest _; rw [ifStatement_zero]; trivial
    · intro s _ a t rest _; rw [fnDeclaration_zero]; trivial
    · intro s _ a rest _; rw [block_zero]; trivial
    · intro s _ opening a rest _; rw [blockBody_zero]; trivial
  | succ fuel ih =>
    exact ⟨nests_statement heof ih, nests_ifStatement heof ih, nests_fnDeclaration heof ih,
      nests_block heof ih, nests_blockBody heof ih⟩

theorem nests_statements (heof : s.eof.kind = .eof) (fuel : Nat) (h : Behind src a rest) :
    Ends (statements s fuel rest)
      (fun ss _ => ∃ b, Row a b (ss.map Stmt.span) ∧ Stmt.AllNest src ss) (fun _ _ => True) := by
  induction fuel generalizing a rest with
  | zero => trivial
  | succ fuel ih =>
    rw [statements, bind_eq_of_ok peek_eq]
    have hmore : Ends ((do
          let first ← statement s fuel
          let rest ← statements s fuel
          return first :: rest : Parser (List Stmt)) rest)
        (fun ss _ => ∃ b, Row a b (ss.map Stmt.span) ∧ Stmt.AllNest src ss) (fun _ _ => True) := by
      refine ends_part ((stmtNestsAt heof fuel).statement s rfl a rest h) fun st left hst => ?_
      obtain ⟨b, hnests, hlies, hleft⟩ := hst
      refine ends_part (ih hleft) fun ss left hss => ?_
      obtain ⟨c, hrow, hall⟩ := hss
      exact ⟨c, hlies.cons hrow, hnests, hall⟩
    cases hk : (next s rest).kind with
    | eof => exact ⟨a, Nat.le_refl a, trivial⟩
    | semicolon =>
      obtain ⟨z, after, rfl, -⟩ := exists_cons_of_next heof hk Kind.noConfusion
      obtain ⟨i, j, -, ha, hij, -, -, hrest⟩ := h
      dsimp only
      rw [bind_eq_of_ok advance_cons]
      refine (ih hrest).mono (fun ss left hss => ?_) (fun _ _ h => h)
      obtain ⟨b, hrow, hall⟩ := hss
      exact ⟨b, hrow.mono (by omega) (Nat.le_refl b), hall⟩
    | _ => exact hmore

end Parser

/-! ## Programs -/

namespace Program

variable {src : Bytes} {p : Program}

theorem exists_row (h : ofSource src = .ok p) :
    ∃ b, Span.Row 0 b (p.map Stmt.span) ∧ Stmt.AllNest src p := by
  obtain ⟨ts, hlex, hparse⟩ := exists_of_ofSource h
  obtain ⟨body, rfl, htiles⟩ := tiles_of_lex hlex
  have hbody : ∀ t ∈ body, t.kind ≠ .eof := by
    intro t ht
    obtain ⟨a, b, -, -, -, -, hwritten⟩ := htiles.exists_span t ht
    exact hwritten.ne_eof
  obtain ⟨left, hstatements⟩ := (parse_eq_ok_iff hbody rfl).1 hparse
  exact (Parser.nests_statements rfl _ (.of_tiles htiles)).of_ok hstatements

/-- The spans of a parsed program nest: those of all its nodes lie in the source and are not empty,
those of the parts of a node lie in it one behind the other, and statements follow each other. -/
theorem nests_of_ofSource (h : ofSource src = .ok p) :
    (∀ n ∈ Stmt.allNodes p, n.2.Inside src) ∧ Stmt.AllNest src p ∧
      p.Pairwise fun s t => s.span.stop ≤ t.span.start := by
  obtain ⟨b, hrow, hall⟩ := exists_row h
  exact ⟨Stmt.inside_of_mem_allNodes p hall, hall, List.pairwise_map.1 hrow.ordered⟩

/-- The second branch of this program is a block that stands for no braces. -/
theorem nests_of_ofSource_else_if :
    ∃ p, ofSource (utf8 "if a \x7b f(x); \x7d else if b \x7b \x7d") = .ok p ∧
      Stmt.allNodes p = [(.ifStmt, .between 0 28), (.ident, .between 3 4), (.block, .between 5 14),
        (.callStmt, .between 7 12), (.call, .between 7 11), (.callName, .between 7 8),
        (.ident, .between 9 10), (.block, .between 20 28), (.ifStmt, .between 20 28),
        (.ident, .between 23 24), (.block, .between 25 28)] ∧
      (∀ n ∈ Stmt.allNodes p,
        n.2.Inside (utf8 "if a \x7b f(x); \x7d else if b \x7b \x7d")) ∧
      Stmt.AllNest (utf8 "if a \x7b f(x); \x7d else if b \x7b \x7d") p ∧
      p.Pairwise fun s t => s.span.stop ≤ t.span.start := by
  have hnodes : (ofSource (utf8 "if a \x7b f(x); \x7d else if b \x7b \x7d")).toOption.map
      Stmt.allNodes = some [(.ifStmt, .between 0 28), (.ident, .between 3 4),
        (.block, .between 5 14), (.callStmt, .between 7 12), (.call, .between 7 11),
        (.callName, .between 7 8), (.ident, .between 9 10), (.block, .between 20 28),
        (.ifStmt, .between 20 28), (.ident, .between 23 24), (.block, .between 25 28)] := by
    decide +kernel
  cases hp : ofSource (utf8 "if a \x7b f(x); \x7d else if b \x7b \x7d") with
  | error d => rw [hp] at hnodes; cases hnodes
  | ok p =>
    rw [hp] at hnodes
    exact ⟨p, rfl, Option.some.inj hnodes, nests_of_ofSource hp⟩

end Program
end Scriptlet
