import Scriptlet.Proofs.Grammar.Soundness.Expression

/-!
# Statement: what is accepted as a program is one

The statement parsers take pieces of the grammar, each at the place its surroundings stand for. A
type that left a `=` behind is followed by it, so it is refused everywhere but before the value of a
new variable.
-/

namespace Scriptlet

open Grammar

namespace Parser

variable {s : Surroundings}

/-! ## Types that may be left out, and parameters -/

theorem TypeTaken.plain {rest left : List Token} {t : Ty} (h : TypeTaken rest t left)
    (hrest : Plain rest) : Plain left := by
  cases h with
  | whole h ht =>
    subst h
    exact hrest.right
  | cut h hw hn hl hu hq ha ht hleft =>
    subst h hleft
    intro t ht
    rcases List.mem_cons.1 ht with rfl | ht
    · rw [ha]
      exact ⟨Kind.noConfusion, Kind.noConfusion⟩
    · exact hrest.tail.tail.right.tail t ht

/-- What an optional type behind a mark took. -/
inductive MarkedType (mark : Kind) (rest : List Token) : Option Ty → List Token → Prop
  | none : MarkedType mark rest none rest
  | some {m : Token} {ts left : List Token} {t : Ty} (hrest : rest = m :: ts) (hm : m.kind = mark)
    (h : TypeTaken ts t left) : MarkedType mark rest (some t) left

theorem ends_optionalType (heof : s.eof.kind = .eof) (fuel : Nat) {mark : Kind}
    (hmark : mark ≠ .eof) (rest : List Token) :
    Ends (optionalType s fuel mark rest) (MarkedType mark rest) (fun _ _ => True) := by
  unfold optionalType
  refine ends_ifAt heof hmark (fun m left hrest hm => ?_) fun _ => .none
  rw [bind_eq_of_ok advance_cons]
  refine ends_part (ends_typeRef heof fuel left) fun t after ht => ?_
  exact .some hrest hm ht

/-- Parameters are taken up to the closing parenthesis; their names are new. Where the last type
left a `=` behind, nothing that closes the list follows. -/
theorem ends_params (heof : s.eof.kind = .eof) (seen : List Bytes) (fuel : Nat)
    (rest : List Token) (hrest : Plain rest) :
    Ends (params s seen fuel rest)
      (fun ps left => Plain left ∧ ((next s left).kind = .assign ∨
        ∃ ts, rest = ts ++ left ∧ ParamsForm ts (ps.map Param.bare) ∧
          (ps.map Param.name).Nodup ∧ ∀ p ∈ ps, p.name ∉ seen)) (fun _ _ => True) := by
  induction fuel generalizing seen rest with
  | zero => trivial
  | succ fuel ih =>
    rw [params]
    refine ends_ifAt heof Kind.noConfusion (fun t left hleft _ => ?_) fun _ => ?_
    · subst hleft
      exact ⟨hrest, .inr ⟨[], rfl, .none, List.nodup_nil, fun p hp => by cases hp⟩⟩
    refine ends_expect heof Kind.noConfusion fun x left hleft hx => ?_
    subst hleft
    split
    · trivial
    rename_i hnew
    rw [Bool.not_eq_true, List.contains_eq_mem, decide_eq_false_iff_not] at hnew
    refine ends_expect heof Kind.noConfusion fun c left' hleft' hc => ?_
    subst hleft'
    refine ends_part (ends_typeRef heof fuel left') fun t after ht => ?_
    have hafter := ht.plain hrest.tail.tail
    refine ends_ifAt heof Kind.noConfusion (fun d us hus hd => ?_) fun _ => ?_
    · cases ht with
      | cut _ _ _ _ _ _ ha _ hcut =>
        -- The next token cannot be both the comma and the `=` left behind.
        rw [hcut] at hus
        cases hus
        rw [hd] at ha
        cases ha
      | whole h ht =>
        subst h hus
        rw [bind_eq_of_ok advance_cons]
        refine ends_part (ih (x.literal :: seen) us hafter.tail) fun ps end_ hps => ?_
        obtain ⟨hend, hps⟩ := hps
        refine ⟨hend, hps.imp_right fun hps => ?_⟩
        obtain ⟨vs, rfl, hform, hnodup, hfresh⟩ := hps
        refine ⟨x :: c :: (_ ++ d :: vs), by simp, .more hx hc ht hd hform, ?_, ?_⟩
        · refine List.nodup_cons.2 ⟨fun hmem => ?_, hnodup⟩
          obtain ⟨p, hp, hname⟩ := List.mem_map.1 hmem
          exact hfresh p hp (hname ▸ List.mem_cons_self ..)
        · intro p hp
          rcases List.mem_cons.1 hp with rfl | hp
          · exact hnew
          · exact fun hmem => hfresh p hp (List.mem_cons_of_mem _ hmem)
    · refine ⟨hafter, ?_⟩
      cases ht with
      | cut _ _ _ _ _ _ ha _ hcut =>
        rw [hcut]
        exact .inl ha
      | whole h ht =>
        subst h
        have hone : [x.literal].Nodup := List.nodup_cons.2 ⟨List.not_mem_nil, List.nodup_nil⟩
        refine .inr ⟨x :: c :: _, rfl, .last hx hc ht, hone, fun p hp => ?_⟩
        rw [List.mem_singleton.1 hp]
        exact hnew

/-! ## Simple statements -/

section Simple

variable (heof : s.eof.kind = .eof) (fuel : Nat) (c : Place)
include heof

theorem ends_value (rest : List Token) (hrest : Plain rest) :
    Ends (expression s fuel 0 rest)
      (fun e left => ∃ ts, rest = ts ++ left ∧ Derives ts (.expr 1 e.bare)) (fun _ _ => True) :=
  ((derivesAt heof fuel).expression 0 (Nat.zero_le 3) rest hrest).mono (fun _ _ h => h.1)
    (fun _ _ h => h)

theorem ends_letStatement {k : Token} (hk : k.kind = .kLet) (rest : List Token)
    (hrest : Plain rest) :
    Ends (letStatement s fuel (k :: rest))
      (fun st left => ∃ ts, k :: rest = ts ++ left ∧ Forms c ts (.stmt st.bare))
      (fun _ _ => True) := by
  unfold letStatement
  rw [bind_eq_of_ok advance_cons]
  refine ends_expect heof Kind.noConfusion fun x left hleft hx => ?_
  subst hleft
  refine ends_part (ends_optionalType heof fuel Kind.noConfusion left) fun type after htype => ?_
  refine ends_expect heof Kind.noConfusion fun q us hafter hq => ?_
  -- The type and the `=` are taken together, since they may share a token.
  have hannotation : ∃ ts, left = ts ++ us ∧ Annotation ts type := by
    cases htype with
    | none => exact ⟨[q], hafter, .plain hq⟩
    | some hl hm ht =>
      subst hl
      cases ht with
      | whole h ht =>
        subst h hafter
        exact ⟨_ :: (_ ++ [q]), by simp, .typed hm ht hq⟩
      | @cut w l p a ts us' u h hw hn hl hu hp ha ht hcut =>
        subst h ht
        rw [hafter] at hcut
        obtain ⟨rfl, rfl⟩ := List.cons.inj hcut
        exact ⟨_ :: w :: l :: (ts ++ [p]), by simp, .joined hm hw hn hl hu hp⟩
  obtain ⟨ts, rfl, hann⟩ := hannotation
  refine ends_part (ends_value heof fuel us hrest.tail.right) fun value after' hvalue => ?_
  obtain ⟨vs, rfl, hvs⟩ := hvalue
  refine ends_endStatement heof fun z end_ hend hz => ?_
  subst hend
  exact ⟨k :: x :: (ts ++ (vs ++ [z])), by simp, .letVar hk hx hann hvs hz⟩

theorem ends_nameStatement {x : Token} (hx : x.kind = .ident) (rest : List Token)
    (hrest : Plain rest) :
    Ends (nameStatement s fuel (x :: rest))
      (fun st left => ∃ ts, x :: rest = ts ++ left ∧ Forms c ts (.stmt st.bare))
      (fun _ _ => True) := by
  unfold nameStatement
  rw [bind_eq_of_ok peek_cons, bind_eq_of_ok secondKind_cons]
  cases hkind : (next s rest).kind with
  | assign =>
    obtain ⟨q, left, rfl, hq⟩ := exists_cons_of_next heof hkind Kind.noConfusion
    dsimp only
    rw [bind_eq_of_ok advance_cons, bind_eq_of_ok advance_cons]
    refine ends_part (ends_value heof fuel left hrest.tail) fun value after hvalue => ?_
    obtain ⟨ts, rfl, hts⟩ := hvalue
    refine ends_endStatement heof fun z end_ hend hz => ?_
    subst hend
    exact ⟨x :: q :: (ts ++ [z]), by simp, .assign hx hq hts hz⟩
  | lbracket =>
    obtain ⟨l, left, rfl, hl⟩ := exists_cons_of_next heof hkind Kind.noConfusion
    dsimp only
    rw [bind_eq_of_ok advance_cons, bind_eq_of_ok advance_cons]
    refine ends_part (ends_value heof fuel left hrest.tail) fun place after hplace => ?_
    obtain ⟨ts, rfl, hts⟩ := hplace
    refine ends_expect heof Kind.noConfusion fun r after' hr' hr => ?_
    subst hr'
    refine ends_expect heof Kind.noConfusion fun q after'' hq' hq => ?_
    subst hq'
    have hvalue := ends_value heof fuel after'' hrest.tail.right.tail.tail
    refine ends_part hvalue fun value end_ hv => ?_
    obtain ⟨us, rfl, hus⟩ := hv
    refine ends_endStatement heof fun z end_ hend hz => ?_
    subst hend
    exact ⟨x :: l :: (ts ++ r :: q :: (us ++ [z])), by simp, .assignAt hx hl hts hr hq hus hz⟩
  | lparen =>
    obtain ⟨l, left, rfl, hl⟩ := exists_cons_of_next heof hkind Kind.noConfusion
    refine ends_part ((derivesAt heof fuel).call x l left hrest.tail) fun args after hargs => ?_
    obtain ⟨ts, r, rfl, hts, hr⟩ := hargs
    refine ends_endStatement heof fun z end_ hend hz => ?_
    subst hend
    exact ⟨x :: l :: (ts ++ [r, z]), by simp, .call hx hl hts hr hz⟩
  | _ => trivial

theorem ends_breakStatement {k : Token} (hk : k.kind = .kBreak) (rest : List Token) :
    Ends (breakStatement s (k :: rest))
      (fun st left => ∃ ts, k :: rest = ts ++ left ∧ Forms s.place ts (.stmt st.bare))
      (fun _ _ => True) := by
  unfold breakStatement
  rw [bind_eq_of_ok advance_cons]
  split
  · rename_i hloop
    refine ends_endStatement heof fun z left hleft hz => ?_
    subst hleft
    exact ⟨[k, z], rfl, .stop hk hloop hz⟩
  · trivial

theorem ends_returnStatement {k : Token} (hk : k.kind = .kReturn) (rest : List Token)
    (hrest : Plain rest) :
    Ends (returnStatement s fuel (k :: rest))
      (fun st left => ∃ ts, k :: rest = ts ++ left ∧ Forms s.place ts (.stmt st.bare))
      (fun _ _ => True) := by
  unfold returnStatement
  rw [bind_eq_of_ok advance_cons]
  cases hfun : s.function with
  | none => trivial
  | some f =>
    obtain ⟨name, result⟩ := f
    have hplace : s.place.function = some result := by rw [Surroundings.place, hfun]; rfl
    dsimp only
    -- The value is read first; whether there may be one is checked behind the semicolon.
    have hvalue : Ends (returnValue s fuel rest)
        (fun value left => (value = none ∧ rest = left) ∨
          ∃ e ts, value = some e ∧ rest = ts ++ left ∧ Derives ts (.expr 1 e.bare))
        (fun _ _ => True) := by
      unfold returnValue
      refine ends_ifAt heof Kind.noConfusion (fun z left hleft _ => .inl ⟨rfl, hleft⟩) fun _ => ?_
      refine ends_part (ends_value heof fuel rest hrest) fun e left he => ?_
      obtain ⟨ts, hleft, hts⟩ := he
      exact .inr ⟨e, ts, rfl, hleft, hts⟩
    refine ends_part hvalue fun value left hleft => ?_
    refine ends_endStatement heof fun z end_ hend hz => ?_
    subst hend
    rcases hleft with ⟨rfl, rfl⟩ | ⟨e, ts, rfl, rfl, hts⟩
    · cases result with
      | none => exact ⟨[k, z], rfl, .ret hk hplace hz⟩
      | some t => trivial
    · cases result with
      | none => trivial
      | some t => exact ⟨k :: (ts ++ [z]), by simp, .retValue hk hplace hts hz⟩

theorem ends_exitStatement {k : Token} (hk : k.kind = .kExit) (rest : List Token)
    (hrest : Plain rest) :
    Ends (exitStatement s fuel (k :: rest))
      (fun st left => ∃ ts, k :: rest = ts ++ left ∧ Forms c ts (.stmt st.bare))
      (fun _ _ => True) := by
  unfold exitStatement
  rw [bind_eq_of_ok advance_cons]
  refine ends_part (ends_value heof fuel rest hrest) fun value left hvalue => ?_
  obtain ⟨ts, rfl, hts⟩ := hvalue
  refine ends_endStatement heof fun z end_ hend hz => ?_
  subst hend
  exact ⟨k :: (ts ++ [z]), by simp, .exit hk hts hz⟩

end Simple

/-! ## Statements that hold statements -/

/-- What the statement parsers take with a given amount of fuel. -/
structure FormsAt (eof : Token) (fuel : Nat) : Prop where
  statement : ∀ s : Surroundings, s.eof = eof → ∀ rest, Plain rest →
    Ends (statement s fuel rest)
      (fun st left => ∃ ts, rest = ts ++ left ∧ Forms s.place ts (.stmt st.bare))
      (fun _ _ => True)
  ifStatement : ∀ s : Surroundings, s.eof = eof → ∀ k rest, k.kind = .kIf → Plain rest →
    Ends (ifStatement s fuel (k :: rest))
      (fun st left => ∃ ts, rest = ts ++ left ∧ Forms s.place (k :: ts) (.stmt st.bare))
      (fun _ _ => True)
  fnDeclaration : ∀ s : Surroundings, s.eof = eof → ∀ c k rest, k.kind = .kFn → Plain rest →
    Ends (fnDeclaration s fuel (k :: rest))
      (fun st left => ∃ ts, rest = ts ++ left ∧ Forms c (k :: ts) (.stmt st.bare))
      (fun _ _ => True)
  block : ∀ s : Surroundings, s.eof = eof → ∀ rest, Plain rest →
    Ends (block s fuel rest)
      (fun b left => ∃ ts, rest = ts ++ left ∧ Forms s.place ts (.block (Stmt.allBare b.1)))
      (fun _ _ => True)
  blockBody : ∀ s : Surroundings, s.eof = eof → ∀ opening rest, Plain rest →
    Ends (blockBody s fuel opening rest)
      (fun ss left => (∃ ts, rest = ts ++ left ∧ Forms s.place ts (.body (Stmt.allBare ss))) ∧
        (next s left).kind = .rcurly) (fun _ _ => True)

/-- A block begins with its brace. -/
theorem ends_block_of_ne {rest : List Token} (h : (next s rest).kind ≠ .lcurly) (fuel : Nat) :
    Ends (block s fuel rest) (fun _ _ => False) (fun _ _ => True) := by
  cases fuel with
  | zero => rw [block]; trivial
  | succ fuel =>
    rw [block, bind_eq_of_error (expect_eq_of_ne h)]
    trivial

section Step

variable {eof : Token} {fuel : Nat} (heof : eof.kind = .eof) (ih : FormsAt eof fuel)
include heof ih

theorem ends_statement (s : Surroundings) (hs : s.eof = eof) (rest : List Token)
    (hrest : Plain rest) :
    Ends (statement s (fuel + 1) rest)
      (fun st left => ∃ ts, rest = ts ++ left ∧ Forms s.place ts (.stmt st.bare))
      (fun _ _ => True) := by
  have hseof : s.eof.kind = .eof := hs ▸ heof
  rw [statement, bind_eq_of_ok peek_eq]
  cases rest with
  | nil =>
    have hnext : (next s []).kind = .eof := hseof
    rw [hnext]
    trivial
  | cons k rest =>
    have hnext : next s (k :: rest) = k := rfl
    rw [hnext]
    cases hk : k.kind with
    | kLet => exact ends_letStatement hseof fuel _ hk rest hrest.tail
    | ident => exact ends_nameStatement hseof fuel _ hk rest hrest.tail
    | kIf =>
      refine (ih.ifStatement s hs k rest hk hrest.tail).mono (fun st left h => ?_)
        (fun _ _ h => h)
      obtain ⟨ts, rfl, hts⟩ := h
      exact ⟨k :: ts, rfl, hts⟩
    | kLoop =>
      dsimp only
      rw [bind_eq_of_ok advance_cons]
      refine ends_part (ih.block { s with inLoop := true } hs rest hrest.tail) fun b left hb => ?_
      obtain ⟨ts, rfl, hts⟩ := hb
      exact ⟨k :: ts, rfl, .loop hk hts⟩
    | kBreak => exact ends_breakStatement hseof hk rest
    | kReturn => exact ends_returnStatement hseof fuel hk rest hrest.tail
    | kExit => exact ends_exitStatement hseof fuel _ hk rest hrest.tail
    | kFn =>
      refine (ih.fnDeclaration s hs s.place k rest hk hrest.tail).mono (fun st left h => ?_)
        (fun _ _ h => h)
      obtain ⟨ts, rfl, hts⟩ := h
      exact ⟨k :: ts, rfl, hts⟩
    | _ => trivial

theorem ends_ifStatement (s : Surroundings) (hs : s.eof = eof) (k : Token) (rest : List Token)
    (hk : k.kind = .kIf) (hrest : Plain rest) :
    Ends (ifStatement s (fuel + 1) (k :: rest))
      (fun st left => ∃ ts, rest = ts ++ left ∧ Forms s.place (k :: ts) (.stmt st.bare))
      (fun _ _ => True) := by
  have hseof : s.eof.kind = .eof := hs ▸ heof
  rw [ifStatement, bind_eq_of_ok advance_cons]
  refine ends_part (ends_value hseof fuel rest hrest) fun cond left hcond => ?_
  obtain ⟨ts, rfl, hts⟩ := hcond
  refine ends_part (ih.block s hs left hrest.right) fun body after hbody => ?_
  obtain ⟨us, rfl, hus⟩ := hbody
  have hafter := hrest.right.right
  refine ends_ifAt hseof Kind.noConfusion (fun l left hleft hl => ?_) fun _ => ?_
  · subst hleft
    rw [bind_eq_of_ok advance_cons]
    refine ends_ifAt hseof Kind.noConfusion (fun i left' hleft' hi => ?_) fun _ => ?_
    · subst hleft'
      refine ends_part (ih.ifStatement s hs i left' hi hafter.tail.tail) fun nested end_ hn => ?_
      obtain ⟨vs, rfl, hvs⟩ := hn
      exact ⟨ts ++ (us ++ l :: i :: vs), by simp, .elseIf hk hts hus hl hi hvs⟩
    · refine ends_part (ih.block s hs left hafter.tail) fun other end_ hother => ?_
      obtain ⟨vs, rfl, hvs⟩ := hother
      exact ⟨ts ++ (us ++ l :: vs), by simp, .ifElse hk hts hus hl hvs⟩
  · exact ⟨ts ++ us, by simp, .when hk hts hus⟩

theorem ends_fnDeclaration (s : Surroundings) (hs : s.eof = eof) (c : Place) (k : Token)
    (rest : List Token) (hk : k.kind = .kFn) (hrest : Plain rest) :
    Ends (fnDeclaration s (fuel + 1) (k :: rest))
      (fun st left => ∃ ts, rest = ts ++ left ∧ Forms c (k :: ts) (.stmt st.bare))
      (fun _ _ => True) := by
  have hseof : s.eof.kind = .eof := hs ▸ heof
  rw [fnDeclaration, bind_eq_of_ok advance_cons]
  refine ends_expect hseof Kind.noConfusion fun x left hleft hx => ?_
  subst hleft
  refine ends_expect hseof Kind.noConfusion fun l left' hleft' hl => ?_
  subst hleft'
  refine ends_part (ends_params hseof [] fuel left' hrest.tail.tail) fun ps after hps => ?_
  obtain ⟨hafter, hassign | ⟨ts, rfl, hform, hnodup, -⟩⟩ := hps
  · -- The last parameter's type left a `=`, which does not close the list.
    rw [bind_eq_of_error (expect_eq_of_ne (by rw [hassign]; exact Kind.noConfusion))]
    trivial
  refine ends_expect hseof Kind.noConfusion fun r left hleft hr => ?_
  subst hleft
  refine ends_part (ends_optionalType hseof fuel Kind.noConfusion left) fun result after' ht => ?_
  -- Whatever the result, the body is taken at the place it declares.
  have hblock (us vs : List Token) (hvs : Plain vs) (hleft : left = us ++ vs)
      (hus : ResultForm us result) :
      Ends ((do
          let __x ← block ⟨s.eof, false, some (x.literal, result)⟩ fuel
          return Stmt.fn x.literal ps result __x.1 __x.2 (k.span.join __x.2) : Parser Stmt) vs)
        (fun st end_ => ∃ ws, x :: l :: (ts ++ r :: left) = ws ++ end_ ∧
          Forms c (k :: ws) (.stmt st.bare)) (fun _ _ => True) := by
    subst hleft
    refine ends_part (ih.block ⟨s.eof, false, some (x.literal, result)⟩ hs vs hvs)
      fun b end_ hb => ?_
    obtain ⟨ws, rfl, hws⟩ := hb
    have hnames : ((ps.map Param.bare).map Param.name).Nodup := by
      rw [List.map_map]
      exact hnodup
    exact ⟨x :: l :: (ts ++ r :: (us ++ ws)), by simp,
      .fn hk hx hl hform hnames hr hus hws⟩
  cases ht with
  | none => exact hblock [] left hafter.tail rfl .none
  | @some a us _ t hleft ha ht =>
    have hplain := ht.plain (by rw [hleft] at hafter; exact hafter.tail.tail)
    cases ht with
    | whole h ht =>
      refine hblock (a :: _) after' hplain ?_ (.some ha ht)
      rw [hleft, h]
      rfl
    | cut _ _ _ _ _ _ hcut _ hleft' =>
      -- The result type left a `=`, where the brace of the body would have to be.
      have hnext : (next ⟨s.eof, false, some (x.literal, some t)⟩ after').kind ≠ .lcurly := by
        rw [hleft', next_cons, hcut]
        exact Kind.noConfusion
      exact ends_part (ends_block_of_ne hnext fuel) fun _ _ h => h.elim

theorem ends_block (s : Surroundings) (hs : s.eof = eof) (rest : List Token) (hrest : Plain rest) :
    Ends (block s (fuel + 1) rest)
      (fun b left => ∃ ts, rest = ts ++ left ∧ Forms s.place ts (.block (Stmt.allBare b.1)))
      (fun _ _ => True) := by
  have hseof : s.eof.kind = .eof := hs ▸ heof
  rw [block]
  refine ends_expect hseof Kind.noConfusion fun l left hleft hl => ?_
  subst hleft
  refine ends_part (ih.blockBody s hs l.span left hrest.tail) fun body after hbody => ?_
  obtain ⟨⟨ts, rfl, hts⟩, hnext⟩ := hbody
  obtain ⟨r, end_, rfl, hr⟩ := exists_cons_of_next hseof hnext Kind.noConfusion
  exact ⟨l :: (ts ++ [r]), by simp, .block hl hts hr⟩

theorem ends_blockBody (s : Surroundings) (hs : s.eof = eof) (opening : Span) (rest : List Token)
    (hrest : Plain rest) :
    Ends (blockBody s (fuel + 1) opening rest)
      (fun ss left => (∃ ts, rest = ts ++ left ∧ Forms s.place ts (.body (Stmt.allBare ss))) ∧
        (next s left).kind = .rcurly) (fun _ _ => True) := by
  have hseof : s.eof.kind = .eof := hs ▸ heof
  rw [blockBody, bind_eq_of_ok peek_eq]
  have hmore : Ends ((do
        let first ← statement s fuel
        let rest ← blockBody s fuel opening
        return first :: rest : Parser (List Stmt)) rest)
      (fun ss left => (∃ ts, rest = ts ++ left ∧ Forms s.place ts (.body (Stmt.allBare ss))) ∧
        (next s left).kind = .rcurly) (fun _ _ => True) := by
    refine ends_part (ih.statement s hs rest hrest) fun first left hfirst => ?_
    obtain ⟨ts, rfl, hts⟩ := hfirst
    refine ends_part (ih.blockBody s hs opening left hrest.right) fun others after hothers => ?_
    obtain ⟨⟨us, rfl, hus⟩, hnext⟩ := hothers
    exact ⟨⟨ts ++ us, by simp, .moreStmts hts hus⟩, hnext⟩
  cases hk : (next s rest).kind with
  | rcurly => exact ⟨⟨[], rfl, .noStmts⟩, hk⟩
  | eof => trivial
  | semicolon =>
    obtain ⟨z, left, rfl, hz⟩ := exists_cons_of_next hseof hk Kind.noConfusion
    dsimp only
    rw [bind_eq_of_ok advance_cons]
    refine (ih.blockBody s hs opening left hrest.tail).mono (fun ss after h => ?_)
      (fun _ _ h => h)
    obtain ⟨⟨ts, rfl, hts⟩, hnext⟩ := h
    exact ⟨⟨z :: ts, rfl, .semicolon hz hts⟩, hnext⟩
  | _ => exact hmore

end Step

/-- What is taken for a statement is one, by induction on the fuel. -/
theorem formsAt {eof : Token} (heof : eof.kind = .eof) (fuel : Nat) : FormsAt eof fuel := by
  induction fuel with
  | zero =>
    constructor
    · intro s _ rest _; rw [statement]; trivial
    · intro s _ k rest _ _; rw [ifStatement]; trivial
    · intro s _ c k rest _ _; rw [fnDeclaration]; trivial
    · intro s _ rest _; rw [block]; trivial
    · intro s _ opening rest _; rw [blockBody]; trivial
  | succ fuel ih =>
    exact ⟨ends_statement heof ih, ends_ifStatement heof ih, ends_fnDeclaration heof ih,
      ends_block heof ih, ends_blockBody heof ih⟩

/-- What is taken for a program is one, and nothing is left. -/
theorem ends_statements (heof : s.eof.kind = .eof) (fuel : Nat) (rest : List Token)
    (hrest : Plain rest) :
    Ends (statements s fuel rest)
      (fun ss _ => Forms s.place rest (.body (Stmt.allBare ss))) (fun _ _ => True) := by
  induction fuel generalizing rest with
  | zero => trivial
  | succ fuel ih =>
    rw [statements, bind_eq_of_ok peek_eq]
    have hmore : Ends ((do
          let first ← statement s fuel
          let rest ← statements s fuel
          return first :: rest : Parser (List Stmt)) rest)
        (fun ss _ => Forms s.place rest (.body (Stmt.allBare ss))) (fun _ _ => True) := by
      refine ends_part ((formsAt heof fuel).statement s rfl rest hrest) fun first left h => ?_
      obtain ⟨ts, rfl, hts⟩ := h
      refine ends_part (ih left hrest.right) fun others after hothers => ?_
      exact .moreStmts hts hothers
    cases hk : (next s rest).kind with
    | eof =>
      -- Plain tokens hold no end of file, so the list is empty.
      cases rest with
      | nil => exact .noStmts
      | cons t rest => exact absurd hk (hrest t (List.mem_cons_self ..)).1
    | semicolon =>
      obtain ⟨z, left, rfl, hz⟩ := exists_cons_of_next heof hk Kind.noConfusion
      dsimp only
      rw [bind_eq_of_ok advance_cons]
      exact (ih left hrest.tail).mono (fun ss after h => .semicolon hz h) (fun _ _ h => h)
    | _ => exact hmore

end Parser
end Scriptlet
