import Scriptlet.Proofs.Grammar.Soundness.Expression
import Scriptlet.Proofs.Program.Nesting

/-!
# Assembly: how spans are put together

A parser that starts at some offset of the source takes tokens that lie behind it, and what it
gives lies between that offset and the one where the tokens left over begin. So the parts of a node
lie one behind the other as they were read, and the node covers them from the first to the last.
-/

namespace Scriptlet

/-! ## Spans in a row -/

namespace Span

variable {s : Span} {a b c i j k l : Nat} {ps qs : List Span}

theorem Lies.mono (h : s.Lies a b) (hl : i ≤ a) (hr : b ≤ j) : s.Lies i j := by
  obtain ⟨k, l, hs, ha, hkl, hb⟩ := h
  exact ⟨k, l, hs, by omega, hkl, by omega⟩

theorem Lies.lt (h : s.Lies a b) : a < b := by
  obtain ⟨k, l, -, ha, hkl, hb⟩ := h
  omega

theorem join_between (hl : i ≤ k) (hr : j ≤ l) :
    (Span.between i j).join (Span.between k l) = .between i l := by
  unfold join between
  congr 1
  · rw [if_neg (show ¬ (k : Int) < i by omega)]
  · by_cases h : (l : Int) > j
    · rw [if_pos h]
    · rw [if_neg h]
      show (j : Int) = l
      omega

/-- The spans lie between the offsets, none of them empty and each behind those before it. -/
def Row (a b : Nat) : List Span → Prop
  | [] => a ≤ b
  | p :: ps => ∃ i j, p = .between i j ∧ a ≤ i ∧ i < j ∧ Row j b ps

theorem Row.le (h : Row a b ps) : a ≤ b := by
  induction ps generalizing a with
  | nil => exact h
  | cons p ps ih =>
    obtain ⟨i, j, -, ha, hij, hrest⟩ := h
    have hj := ih hrest
    omega

theorem Row.mono (h : Row a b ps) (hl : i ≤ a) (hr : b ≤ j) : Row i j ps := by
  induction ps generalizing a i with
  | nil => exact Nat.le_trans hl (Nat.le_trans h hr)
  | cons p ps ih =>
    obtain ⟨k, l, hp, ha, hkl, hrest⟩ := h
    exact ⟨k, l, hp, by omega, hkl, ih hrest (Nat.le_refl l)⟩

theorem Lies.cons (h : s.Lies a c) (hps : Row c b ps) : Row a b (s :: ps) := by
  obtain ⟨i, j, hs, ha, hij, hj⟩ := h
  exact ⟨i, j, hs, ha, hij, hps.mono hj (Nat.le_refl b)⟩

theorem Lies.row (h : s.Lies a b) : Row a b [s] := h.cons (Nat.le_refl b)

theorem Row.append (h : Row a c ps) (hqs : Row c b qs) : Row a b (ps ++ qs) := by
  induction ps generalizing a with
  | nil => exact hqs.mono h (Nat.le_refl b)
  | cons p ps ih =>
    obtain ⟨i, j, hp, ha, hij, hrest⟩ := h
    exact ⟨i, j, hp, ha, hij, ih hrest⟩

theorem Row.within (h : Row a b ps) : ∀ p ∈ ps, (a : Int) ≤ p.start ∧ p.stop ≤ b := by
  induction ps generalizing a with
  | nil => nofun
  | cons p ps ih =>
    obtain ⟨i, j, rfl, ha, hij, hrest⟩ := h
    intro q hq
    rcases List.mem_cons.1 hq with rfl | hq
    · have hb := hrest.le
      unfold between
      dsimp only
      omega
    · have hwithin := ih hrest q hq
      omega

theorem Row.ordered (h : Row a b ps) : ps.Pairwise fun p q => p.stop ≤ q.start := by
  induction ps generalizing a with
  | nil => exact .nil
  | cons p ps ih =>
    obtain ⟨i, j, rfl, ha, hij, hrest⟩ := h
    exact .cons (fun q hq => (hrest.within q hq).1) (ih hrest)

/-- A span holds what lies in a row between its ends. -/
theorem Row.holds (h : Row a b ps) (hl : i ≤ a) (hr : b ≤ j) : (Span.between i j).Holds ps :=
  ⟨(h.mono hl hr).within, h.ordered⟩

/-- A node that covers a row of spans lies where they do, and they nest in it. -/
theorem Row.node {src : Bytes} (h : Row i l ps) (hs : s = .between i l) (hil : i < l) (ha : a ≤ i)
    (hb : l ≤ b) (hsrc : b ≤ src.length) : s.Inside src ∧ s.Holds ps ∧ s.Lies a b := by
  subst hs
  exact ⟨⟨i, l, rfl, Nat.zero_le i, hil, by omega⟩, h.holds (Nat.le_refl i) (Nat.le_refl l),
    i, l, rfl, ha, hil, hb⟩

end Span

/-! ## Tokens in a row -/

/-- The tokens lie in the source behind the offset, each behind those before it and spelled by its
bytes. -/
def Token.Behind (src : Bytes) (a : Nat) : List Token → Prop
  | [] => a ≤ src.length
  | t :: rest => ∃ i j, t.span = .between i j ∧ a ≤ i ∧ i < j ∧ j ≤ src.length ∧
    t.kind.WrittenAs t.literal (src.slice i j) ∧ Token.Behind src j rest

namespace Token.Behind

variable {src : Bytes} {a b : Nat} {t : Token} {rest : List Token}

theorem le (h : Behind src a rest) : a ≤ src.length := by
  cases rest with
  | nil => exact h
  | cons t rest =>
    obtain ⟨i, j, -, ha, hij, hj, -⟩ := h
    omega

theorem mono (h : Behind src a rest) (hb : b ≤ a) : Behind src b rest := by
  cases rest with
  | nil => exact Nat.le_trans hb h
  | cons t rest =>
    obtain ⟨i, j, hspan, ha, hrest⟩ := h
    exact ⟨i, j, hspan, by omega, hrest⟩

theorem of_tiles (h : Tiles src a rest) : Behind src a rest := by
  induction h with
  | done => exact Nat.le_refl _
  | skip hij hj hskips rest ih => exact ih.mono (Nat.le_of_lt hij)
  | @token i j k literal ts hij hj hwritten rest ih =>
    exact ⟨i, j, rfl, Nat.le_refl i, hij, hj, hwritten, ih⟩

end Token.Behind

/-! ## Signs in the source -/

section

variable {src w literal : Bytes} {i j : Nat} {k : Kind} {b : UInt8}

/-- A token of such a kind is spelled by its name. -/
theorem Kind.WrittenAs.eq_name (h : k.WrittenAs literal w) (hk : k ∈ Kind.signs)
    (hne : k ≠ .caret) : w = k.name := by
  cases h with
  | keyword | sign => rfl
  | power => exact absurd rfl hne
  | ident | int | str => exact absurd hk (by decide)

theorem slice_eq_singleton (hij : i < j) (hj : j ≤ src.length) (h : src.slice i j = [b]) :
    j = i + 1 ∧ src[i]? = some b := by
  have hlength : (src.slice i j).length = j - i := by
    rw [Bytes.slice, List.length_drop, List.length_take, Nat.min_eq_left hj]
  rw [h, List.length_singleton] at hlength
  have hnext : j = i + 1 := by omega
  refine ⟨hnext, ?_⟩
  have hhead : (src.slice i j)[0]? = some b := by rw [h]; rfl
  rw [Bytes.slice, List.getElem?_drop, List.getElem?_take_of_lt (by omega)] at hhead
  exact hhead

/-- A sign of one character is one byte of the source. -/
theorem Kind.WrittenAs.byte (h : k.WrittenAs literal (src.slice i j)) (hij : i < j)
    (hj : j ≤ src.length) (hk : k ∈ Kind.signs) (hne : k ≠ .caret) (hname : k.name = [b]) :
    j = i + 1 ∧ src[i]? = some b :=
  slice_eq_singleton hij hj ((h.eq_name hk hne).trans hname)

/-- The second half of a `>=` is a `=`. -/
theorem Kind.WrittenAs.half (h : Kind.WrittenAs .gtEq literal (src.slice i j)) (hij : i < j)
    (hj : j ≤ src.length) :
    i + 1 < j ∧ Kind.WrittenAs .assign [] (src.slice (i + 1) j) := by
  have hname : src.slice i j = utf8 ">=" := h.eq_name (by decide) Kind.noConfusion
  have hhalf : src.slice (i + 1) j = utf8 "=" := by
    have hdrop : src.slice (i + 1) j = (src.slice i j).drop 1 := by
      rw [Bytes.slice, Bytes.slice, List.drop_drop]
    rw [hdrop, hname]
    rfl
  have hlength : (src.slice i j).length = j - i := by
    rw [Bytes.slice, List.length_drop, List.length_take, Nat.min_eq_left hj]
  rw [hname] at hlength
  have htwo : (utf8 ">=").length = 2 := rfl
  refine ⟨by omega, ?_⟩
  rw [hhalf]
  exact .sign (k := .assign) (by decide)

end

namespace Parser

open Grammar Scriptlet.Span Token

variable {src : Bytes} {s : Surroundings} {a : Nat} {rest : List Token}

/-! ## Types -/

theorem behind_of_typeRef (heof : s.eof.kind = .eof) (fuel : Nat) (h : Behind src a rest) :
    Ends (typeRef s fuel rest) (fun _ left => ∃ b, a ≤ b ∧ Behind src b left)
      (fun _ _ => True) := by
  induction fuel generalizing a rest with
  | zero => trivial
  | succ fuel ih =>
    rw [typeRef]
    refine ends_expect heof Kind.noConfusion fun w left hleft hw => ?_
    subst hleft
    obtain ⟨i, j, -, ha, hij, hj, -, hrest⟩ := h
    cases Ty.ofName? w.literal with
    | some t => exact ⟨j, by omega, hrest⟩
    | none =>
      dsimp only
      split
      · trivial
      · refine ends_expect heof Kind.noConfusion fun l left' hleft hl => ?_
        subst hleft
        obtain ⟨i', j', -, ha', hij', hj', -, hrest⟩ := hrest
        refine ends_part (ih hrest) fun elem after helem => ?_
        obtain ⟨b, hb, hafter⟩ := helem
        rw [bind_eq_of_ok peek_eq]
        split
        · -- The `=` that is left of a `>=` lies where its second half does.
          rename_i hq
          obtain ⟨q, us, rfl, hkind⟩ := exists_cons_of_next heof hq Kind.noConfusion
          obtain ⟨k, l, hspan, hk, hkl, hl, hwritten, hrest⟩ := hafter
          rw [hkind] at hwritten
          obtain ⟨hhalf, hassign⟩ := hwritten.half hkl hl
          refine ⟨b, by omega, k + 1, l, ?_, by omega, hhalf, hl, hassign, hrest⟩
          show q.span.tail = _
          rw [hspan, Span.tail_between hkl]
        · refine ends_expect heof Kind.noConfusion fun r us hus hr => ?_
          subst hus
          obtain ⟨k, l, -, hk, hkl, hl, -, hrest⟩ := hafter
          exact ⟨l, by omega, hrest⟩

theorem behind_of_optionalType (heof : s.eof.kind = .eof) (fuel : Nat) {mark : Kind}
    (hmark : mark ≠ .eof) (h : Behind src a rest) :
    Ends (optionalType s fuel mark rest) (fun _ left => ∃ b, a ≤ b ∧ Behind src b left)
      (fun _ _ => True) := by
  unfold optionalType
  refine ends_ifAt heof hmark (fun t left hleft _ => ?_) fun _ => ⟨a, Nat.le_refl a, h⟩
  subst hleft
  obtain ⟨i, j, -, ha, hij, hj, -, hrest⟩ := h
  rw [bind_eq_of_ok advance_cons]
  refine ends_part (behind_of_typeRef heof fuel hrest) fun t left ht => ?_
  obtain ⟨b, hb, hleft⟩ := ht
  exact ⟨b, by omega, hleft⟩

/-! ## Expressions -/

/-- The expression lies between the offset and the tokens left, and its spans nest. -/
def NestsFrom (src : Bytes) (a : Nat) (e : Expr) (left : List Token) : Prop :=
  ∃ b, e.Nests src ∧ e.span.Lies a b ∧ Behind src b left

/-- A token that is an expression by itself. -/
theorem nestsFrom_token {e : Expr} {t : Token} {left : List Token} (h : Behind src a (t :: left))
    (hspan : e.span = t.span) (hnests : t.span.Inside src → e.Nests src) :
    NestsFrom src a e left := by
  obtain ⟨i, j, htoken, hi, hij, hj, -, hrest⟩ := h
  refine ⟨j, hnests ⟨i, j, htoken, Nat.zero_le i, hij, hj⟩, ?_, hrest⟩
  rw [hspan]
  exact ⟨i, j, htoken, hi, hij, Nat.le_refl j⟩

/-- What the expression parsers give with a given amount of fuel. -/
structure NestsAt (src : Bytes) (s : Surroundings) (fuel : Nat) : Prop where
  expression : ∀ min a rest, Behind src a rest →
    Ends (expression s fuel min rest) (NestsFrom src a) (fun _ _ => True)
  operators : ∀ min a e rest, NestsFrom src a e rest →
    Ends (operators s fuel min e rest) (NestsFrom src a) (fun _ _ => True)
  unary : ∀ a rest, Behind src a rest →
    Ends (unary s fuel rest) (NestsFrom src a) (fun _ _ => True)
  indices : ∀ a e rest, NestsFrom src a e rest →
    Ends (indices s fuel e rest) (NestsFrom src a) (fun _ _ => True)
  primary : ∀ a rest, Behind src a rest →
    Ends (primary s fuel rest) (NestsFrom src a) (fun _ _ => True)
  call : ∀ a t l rest, Behind src a (t :: l :: rest) →
    Ends (call s fuel (t :: l :: rest))
      (fun c left => NestsFrom src a (.call t.literal t.span c.1 c.2) left) (fun _ _ => True)
  items : ∀ closing, closing ≠ .eof → ∀ a rest, Behind src a rest →
    Ends (items s fuel closing rest)
      (fun es left => ∃ b, Row a b (es.map Expr.span) ∧ Expr.AllNest src es ∧ Behind src b left)
      (fun _ _ => True)

section Step

variable {fuel : Nat} (heof : s.eof.kind = .eof) (ih : NestsAt src s fuel)
include heof ih

omit heof in
theorem nests_expression (min a : Nat) (rest : List Token) (h : Behind src a rest) :
    Ends (expression s (fuel + 1) min rest) (NestsFrom src a) (fun _ _ => True) := by
  rw [expression]
  exact ends_part (ih.unary a rest h) fun e left he => ih.operators min a e left he

theorem nests_operators (min a : Nat) (e : Expr) (rest : List Token) (h : NestsFrom src a e rest) :
    Ends (operators s (fuel + 1) min e rest) (NestsFrom src a) (fun _ _ => True) := by
  rw [operators, bind_eq_of_ok peek_eq]
  cases hop : binOp? (next s rest).kind with
  | none => exact h
  | some op =>
    dsimp only
    split
    · exact h
    · have hsign : sign op ≠ .eof := by cases op <;> exact Kind.noConfusion
      obtain ⟨t, left, rfl, -⟩ := exists_cons_of_next heof (eq_sign_of_binOp? hop) hsign
      obtain ⟨b, he, ⟨i, j, hspan, hi, hij, hj⟩, i', j', -, hb, hij', hj', -, hrest⟩ := h
      rw [bind_eq_of_ok advance_cons]
      refine ends_part (ih.expression _ j' left hrest) fun right after hright => ?_
      obtain ⟨c, hnests, ⟨k, l, hspan', hk, hkl, hl⟩, hafter⟩ := hright
      have hjoin : e.span.join right.span = .between i l := by
        rw [hspan, hspan', join_between (by omega) (by omega)]
      have hrow : Row i l [e.span, right.span] :=
        ⟨i, j, hspan, Nat.le_refl i, hij, k, l, hspan', by omega, hkl, Nat.le_refl l⟩
      obtain ⟨hinside, hholds, hlies⟩ := hrow.node hjoin (by omega) hi hl hafter.le
      exact ih.operators min a _ after ⟨c, ⟨hinside, hholds, he, hnests⟩, hlies, hafter⟩

theorem nests_unary (a : Nat) (rest : List Token) (h : Behind src a rest) :
    Ends (unary s (fuel + 1) rest) (NestsFrom src a) (fun _ _ => True) := by
  rw [unary]
  refine ends_ifAt heof Kind.noConfusion (fun t left hleft _ => ?_) fun _ => ?_
  · subst hleft
    obtain ⟨i, j, hspan, ha, hij, -, -, hrest⟩ := h
    rw [bind_eq_of_ok advance_cons]
    refine ends_part (ih.expression 3 j left hrest) fun operand after hoperand => ?_
    obtain ⟨c, hnests, ⟨k, l, hspan', hk, hkl, hl⟩, hafter⟩ := hoperand
    have hjoin : t.span.join operand.span = .between i l := by
      rw [hspan, hspan', join_between (by omega) (by omega)]
    have hrow : Row i l [operand.span] := ⟨k, l, hspan', by omega, hkl, Nat.le_refl l⟩
    obtain ⟨hinside, hholds, hlies⟩ := hrow.node hjoin (by omega) ha hl hafter.le
    exact ⟨c, ⟨hinside, hholds, hnests⟩, hlies, hafter⟩
  · exact ends_part (ih.primary a rest h) fun target left htarget =>
      ih.indices a target left htarget

theorem nests_indices (a : Nat) (e : Expr) (rest : List Token) (h : NestsFrom src a e rest) :
    Ends (indices s (fuel + 1) e rest) (NestsFrom src a) (fun _ _ => True) := by
  rw [indices]
  refine ends_ifAt heof Kind.noConfusion (fun t left hleft _ => ?_) fun _ => h
  subst hleft
  obtain ⟨b, he, ⟨i, j, hspan, hi, hij, hj⟩, i', j', -, hb, hij', -, -, hrest⟩ := h
  rw [bind_eq_of_ok advance_cons]
  refine ends_part (ih.expression 0 j' left hrest) fun place after hplace => ?_
  obtain ⟨c, hnests, ⟨k, l, hspan', hk, hkl, hl⟩, hafter⟩ := hplace
  refine ends_expect heof Kind.noConfusion fun r after' hr _ => ?_
  subst hr
  obtain ⟨m, n, hclosing, hm, hmn, hn, -, hleft⟩ := hafter
  have hjoin : e.span.join r.span = .between i n := by
    rw [hspan, hclosing, join_between (by omega) (by omega)]
  have hrow : Row i n [e.span, place.span] :=
    ⟨i, j, hspan, Nat.le_refl i, hij, k, l, hspan', by omega, hkl, show l ≤ n by omega⟩
  obtain ⟨hinside, hholds, hlies⟩ := hrow.node hjoin (by omega) hi (Nat.le_refl n) hn
  exact ih.indices a _ after' ⟨n, ⟨hinside, hholds, he, hnests⟩, hlies, hleft⟩

theorem nests_items (closing : Kind) (hclosing : closing ≠ .eof) (a : Nat) (rest : List Token)
    (h : Behind src a rest) :
    Ends (items s (fuel + 1) closing rest)
      (fun es left => ∃ b, Row a b (es.map Expr.span) ∧ Expr.AllNest src es ∧ Behind src b left)
      (fun _ _ => True) := by
  rw [items]
  refine ends_ifAt heof hclosing (fun t left hleft _ => ?_) fun _ => ?_
  · rw [← hleft]
    exact ⟨a, Nat.le_refl a, trivial, h⟩
  refine ends_part (ih.expression 0 a rest h) fun first left hfirst => ?_
  obtain ⟨b, hnests, hlies, hleft⟩ := hfirst
  refine ends_ifAt heof Kind.noConfusion (fun t after hafter _ => ?_) fun _ => ?_
  · subst hafter
    obtain ⟨i, j, -, hb, hij, -, -, hrest⟩ := hleft
    rw [bind_eq_of_ok advance_cons]
    refine ends_part (ih.items closing hclosing j after hrest) fun es left hes => ?_
    obtain ⟨c, hrow, hall, hleft⟩ := hes
    exact ⟨c, hlies.cons (hrow.mono (by omega) (Nat.le_refl c)), ⟨hnests, hall⟩, hleft⟩
  · exact ⟨b, hlies.row, ⟨hnests, trivial⟩, hleft⟩

theorem nests_call (a : Nat) (t l : Token) (rest : List Token)
    (h : Behind src a (t :: l :: rest)) :
    Ends (call s (fuel + 1) (t :: l :: rest))
      (fun c left => NestsFrom src a (.call t.literal t.span c.1 c.2) left) (fun _ _ => True) := by
  rw [call, bind_eq_of_ok advance_cons, bind_eq_of_ok advance_cons]
  obtain ⟨i, j, hspan, hi, hij, hj, -, i', j', -, hi', hij', -, -, hrest⟩ := h
  refine ends_part (ih.items .rparen Kind.noConfusion j' rest hrest) fun args left hargs => ?_
  obtain ⟨b, hrow, hall, hleft⟩ := hargs
  refine ends_expect heof Kind.noConfusion fun r after hafter _ => ?_
  subst hafter
  obtain ⟨m, n, hclosing, hm, hmn, hn, -, hafter⟩ := hleft
  have hb := hrow.le
  have hjoin : t.span.join r.span = .between i n := by
    rw [hspan, hclosing, join_between (by omega) (by omega)]
  have hparts : Row i n (t.span :: args.map Expr.span) :=
    ⟨i, j, hspan, Nat.le_refl i, hij, hrow.mono (by omega) (by omega)⟩
  obtain ⟨hinside, hholds, hlies⟩ := hparts.node hjoin (by omega) hi (Nat.le_refl n) hn
  exact ⟨n, ⟨hinside, hholds, ⟨i, j, hspan, Nat.zero_le i, hij, hj⟩, hall⟩, hlies, hafter⟩

theorem nests_primary (a : Nat) (rest : List Token) (h : Behind src a rest) :
    Ends (primary s (fuel + 1) rest) (NestsFrom src a) (fun _ _ => True) := by
  rw [primary, bind_eq_of_ok peek_eq]
  cases rest with
  | nil =>
    have hnext : (next s []).kind = .eof := heof
    rw [hnext]
    trivial
  | cons t rest =>
    have hnext : next s (t :: rest) = t := rfl
    rw [hnext]
    cases hk : t.kind with
    | int =>
      dsimp only
      rw [bind_eq_of_ok advance_cons]
      cases readInt64 t.literal with
      | ok n => exact nestsFrom_token h rfl id
      | error e => trivial
    | str | kTrue | kFalse => exact nestsFrom_token h rfl id
    | ident =>
      dsimp only
      rw [bind_eq_of_ok secondKind_cons]
      split
      · rename_i hl
        obtain ⟨l, rest, rfl, hl⟩ := exists_cons_of_next heof hl Kind.noConfusion
        exact ends_part (ih.call a t l rest h) fun c left hc => hc
      · exact nestsFrom_token h rfl id
    | lparen =>
      dsimp only
      obtain ⟨i, j, -, ha, hij, -, -, hrest⟩ := h
      rw [bind_eq_of_ok advance_cons]
      refine ends_part (ih.expression 0 j rest hrest) fun inner left hinner => ?_
      obtain ⟨b, hnests, hlies, hleft⟩ := hinner
      refine ends_expect heof Kind.noConfusion fun r after hafter _ => ?_
      subst hafter
      obtain ⟨m, n, -, hm, hmn, -, -, hafter⟩ := hleft
      exact ⟨n, hnests, hlies.mono (by omega) (by omega), hafter⟩
    | lbracket =>
      dsimp only
      obtain ⟨i, j, hspan, hi, hij, -, -, hrest⟩ := h
      rw [bind_eq_of_ok advance_cons]
      refine ends_part (ih.items .rbracket Kind.noConfusion j rest hrest)
        fun elems left helems => ?_
      obtain ⟨b, hrow, hall, hleft⟩ := helems
      refine ends_expect heof Kind.noConfusion fun r after hafter _ => ?_
      subst hafter
      obtain ⟨m, n, hclosing, hm, hmn, hn, -, hafter⟩ := hleft
      have hb := hrow.le
      have hjoin : t.span.join r.span = .between i n := by
        rw [hspan, hclosing, join_between (by omega) (by omega)]
      have hparts : Row i n (elems.map Expr.span) := hrow.mono (by omega) (by omega)
      obtain ⟨hinside, hholds, hlies⟩ := hparts.node hjoin (by omega) hi (Nat.le_refl n) hn
      exact ⟨n, ⟨hinside, hholds, hall⟩, hlies, hafter⟩
    | _ => trivial

end Step

theorem nestsAt (heof : s.eof.kind = .eof) (fuel : Nat) : NestsAt src s fuel := by
  induction fuel with
  | zero =>
    constructor
    · intro min a rest _; rw [expression_zero]; trivial
    · intro min a e rest _; rw [operators_zero]; trivial
    · intro a rest _; rw [unary_zero]; trivial
    · intro a e rest _; rw [indices_zero]; trivial
    · intro a rest _; rw [primary_zero]; trivial
    · intro a t l rest _; rw [call_zero]; trivial
    · intro closing _ a rest _; rw [items_zero]; trivial
  | succ fuel ih =>
    exact ⟨nests_expression ih, nests_operators heof ih, nests_unary heof ih,
      nests_indices heof ih, nests_primary heof ih, nests_call heof ih, nests_items heof ih⟩

end Parser
end Scriptlet
