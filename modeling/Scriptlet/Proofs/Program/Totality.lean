import Mathlib.Data.List.TakeWhile
import Scriptlet.Proofs.Parallel.Parsing
import Scriptlet.Proofs.Program.Cursor

/-!
# Totality: every list of tokens is a program or is refused

Statements move the cursor as expressions do. From what one function does it follows what the whole
descent does on any list of tokens, however it came about: the descent ends, it never leaves the
list, and it comes to what the tokens up to the first end of file come to.
-/

namespace Scriptlet

namespace Parser

variable {ts tail : List Token} {s s' : Surroundings} {n : Nat}

/-! ## Parts of statements -/

section Parts

variable (hs : Fence tail s s')
include hs

theorem scan_params (seen : List Bytes) (n : Nat) :
    Scan ts tail n 0 1 (params s seen n) (params s' seen n) := by
  induction n generalizing seen with
  | zero => exact .outOfFuel
  | succ n ih =>
    rw [params, params]
    refine .spend ?_
    refine scan_ifAt hs (.pure []) ?_
    refine (scan_expect hs Kind.noConfusion).bind (Nat.le_refl 0) fun name => ?_
    refine .branch (.fail rfl) ?_
    refine (scan_expect hs Kind.noConfusion).bind (Nat.zero_le _) fun _ => ?_
    refine (scan_typeRef hs n).bind (by omega) fun type => ?_
    refine scan_ifOn hs Kind.noConfusion (scanOn_advance fun _ => ?_) (.pure _)
    exact (ih (name.literal :: seen)).bind (by omega) fun rest => .pure _

theorem scan_value (n : Nat) : Scan ts tail n 1 4 (expression s n 0) (expression s' n 0) :=
  (scansExpressions hs n).expression 0

theorem scan_returnValue (n : Nat) :
    Scan ts tail n 0 4 (returnValue s n) (returnValue s' n) := by
  unfold returnValue
  refine scan_ifAt hs (.pure none) ?_
  exact (scan_value hs n).bind (Nat.le_refl 4) fun value => .pure (some value)

/-! ## Statements without statements in them -/

theorem scanOn_letStatement (n : Nat) :
    ScanOn ts tail n 1 1 (letStatement s n) (letStatement s' n) := by
  refine scanOn_advance fun start => ?_
  refine (scan_expect hs Kind.noConfusion).bind (Nat.zero_le _) fun name => ?_
  refine (scan_optionalType hs n Kind.noConfusion).bind (by omega) fun type => ?_
  refine (scan_expect hs Kind.noConfusion).bind (Nat.zero_le _) fun _ => ?_
  refine (scan_value hs n).bind (by omega) fun value => ?_
  exact (scan_endStatement hs start.span).bind (Nat.zero_le _) fun span => .pure _

theorem scanOn_nameStatement (n : Nat) :
    ScanOn ts tail n 1 1 (nameStatement s n) (nameStatement s' n) := by
  intro i t left h
  unfold nameStatement
  rw [List.cons_append, bind_eq_of_ok peek_cons, bind_eq_of_ok peek_cons,
    bind_eq_of_ok secondKind_cons, bind_eq_of_ok secondKind_cons, hs.next_append]
  cases hk : (next s left).kind with
  | assign =>
    obtain ⟨q, left, rfl, -⟩ := exists_cons_of_next hs.eof hk Kind.noConfusion
    refine scans_advance_two h ?_
    refine (scan_value hs n).bind (by omega) fun value => ?_
    exact (scan_endStatement hs t.span).bind (Nat.zero_le _) fun span => .pure _
  | lbracket =>
    obtain ⟨l, left, rfl, -⟩ := exists_cons_of_next hs.eof hk Kind.noConfusion
    refine scans_advance_two h ?_
    refine (scan_value hs n).bind (by omega) fun index => ?_
    refine (scan_expect hs Kind.noConfusion).bind (Nat.zero_le _) fun _ => ?_
    refine (scan_expect hs Kind.noConfusion).bind (Nat.zero_le _) fun _ => ?_
    refine (scan_value hs n).bind (by omega) fun value => ?_
    exact (scan_endStatement hs t.span).bind (Nat.zero_le _) fun span => .pure _
  | lparen =>
    obtain ⟨l, left, rfl, -⟩ := exists_cons_of_next hs.eof hk Kind.noConfusion
    refine ((scansExpressions hs n).call i t l left h).bind id fun c m us _ hm hus => ?_
    have hended : Scan ts tail n 0 0
        (do
          let span ← endStatement s c.2
          return Stmt.call t.literal t.span c.1 c.2 span)
        (do
          let span ← endStatement s' c.2
          return Stmt.call t.literal t.span c.1 c.2 span) :=
      (scan_endStatement hs c.2).bind (Nat.le_refl 0) fun span => .pure _
    have hlength := h.length
    have hlength' := hus.length
    exact (hended m us hus).mono hm (by omega)
  | _ => exact scanOn_advance (fun _ => scan_unexpected hs _) i t left h

theorem scanOn_breakStatement : ScanOn ts tail n 1 1 (breakStatement s) (breakStatement s') := by
  refine scanOn_advance fun start => ?_
  rw [hs.inLoop]
  refine .branch ?_ (.fail rfl)
  exact (scan_endStatement hs start.span).bind (Nat.zero_le _) fun span => .pure _

theorem scanOn_returnStatement (n : Nat) :
    ScanOn ts tail n 1 1 (returnStatement s n) (returnStatement s' n) := by
  refine scanOn_advance fun start => ?_
  rw [hs.function]
  cases s.function with
  | none => exact .fail rfl
  | some function =>
    obtain ⟨name, result⟩ := function
    dsimp only
    refine (scan_returnValue hs n).bind (by omega) fun value => ?_
    refine (scan_endStatement hs start.span).bind (Nat.zero_le _) fun span => ?_
    cases value with
    | none =>
      cases result with
      | none => exact .pure _
      | some type => exact .fail rfl
    | some value =>
      cases result with
      | none => exact .fail rfl
      | some type => exact .pure _

theorem scanOn_exitStatement (n : Nat) :
    ScanOn ts tail n 1 1 (exitStatement s n) (exitStatement s' n) := by
  refine scanOn_advance fun start => ?_
  refine (scan_value hs n).bind (by omega) fun value => ?_
  exact (scan_endStatement hs start.span).bind (Nat.zero_le _) fun span => .pure _

end Parts

/-! ## Blocks and what holds them -/

/-- With a given amount of fuel, statements are read the same way in all surroundings. One that
holds others is read from where its first word stands. -/
structure ScansStatements (ts tail : List Token) (n : Nat) : Prop where
  statement : ∀ s s', Fence tail s s' → Scan ts tail n 1 2 (statement s n) (statement s' n)
  ifStatement : ∀ s s', Fence tail s s' →
    ScanOn ts tail n 1 1 (ifStatement s n) (ifStatement s' n)
  fnDeclaration : ∀ s s', Fence tail s s' →
    ScanOn ts tail n 1 1 (fnDeclaration s n) (fnDeclaration s' n)
  block : ∀ s s', Fence tail s s' → Scan ts tail n 1 1 (block s n) (block s' n)
  blockBody : ∀ s s', Fence tail s s' → ∀ opening,
    Scan ts tail n 0 3 (blockBody s n opening) (blockBody s' n opening)

section Step

variable (hs : Fence tail s s') (ih : ScansStatements ts tail n)
include hs ih

theorem scan_statement :
    Scan ts tail (n + 1) 1 2 (statement s (n + 1)) (statement s' (n + 1)) := by
  rw [statement, statement]
  refine .spend ?_
  intro i left hleft
  rw [bind_eq_of_ok peek_eq, bind_eq_of_ok peek_eq, hs.next_append]
  cases left with
  | nil =>
    rw [show (next s []).kind = .eof from hs.eof]
    exact scan_unexpected hs _ i [] hleft
  | cons t rest =>
    rw [next_cons]
    cases hk : t.kind with
    | kLet => exact scanOn_letStatement hs n i t rest hleft
    | ident => exact scanOn_nameStatement hs n i t rest hleft
    | kIf => exact ih.ifStatement s s' hs i t rest hleft
    | kLoop =>
      have hinner : Fence tail { s with inLoop := true } { s' with inLoop := true } :=
        ⟨hs.eof, hs.head, rfl, hs.function⟩
      refine scanOn_advance (fun start => ?_) i t rest hleft
      exact (ih.block _ _ hinner).bind (by omega) fun b => .pure _
    | kBreak => exact scanOn_breakStatement hs i t rest hleft
    | kReturn => exact scanOn_returnStatement hs n i t rest hleft
    | kExit => exact scanOn_exitStatement hs n i t rest hleft
    | kFn => exact ih.fnDeclaration s s' hs i t rest hleft
    | _ => exact scan_unexpected hs _ i (t :: rest) hleft

theorem scanOn_ifStatement :
    ScanOn ts tail (n + 1) 1 1 (ifStatement s (n + 1)) (ifStatement s' (n + 1)) := by
  rw [ifStatement, ifStatement]
  refine .spend ?_
  refine scanOn_advance fun start => ?_
  refine (scan_value hs n).bind (by omega) fun cond => ?_
  refine (ih.block s s' hs).bind (by omega) fun b => ?_
  refine scan_ifOn hs Kind.noConfusion (scanOn_advance fun _ => ?_) (.pure _)
  refine scan_ifOn hs Kind.noConfusion (fun i t left h => ?_) ?_
  · -- An `else if` begins with the `if` that is there, so it is read from a token.
    refine (ih.ifStatement s s' hs i t left h).bind (by omega) fun nested m us _ hm hus => ?_
    exact ⟨rfl, m, by omega, hus⟩
  · exact (ih.block s s' hs).bind (by omega) fun other => .pure _

theorem scanOn_fnDeclaration :
    ScanOn ts tail (n + 1) 1 1 (fnDeclaration s (n + 1)) (fnDeclaration s' (n + 1)) := by
  rw [fnDeclaration, fnDeclaration]
  refine .spend ?_
  refine scanOn_advance fun start => ?_
  refine (scan_expect hs Kind.noConfusion).bind (Nat.zero_le _) fun name => ?_
  refine (scan_expect hs Kind.noConfusion).bind (Nat.zero_le _) fun _ => ?_
  refine (scan_params hs [] n).bind (by omega) fun params => ?_
  refine (scan_expect hs Kind.noConfusion).bind (Nat.zero_le _) fun _ => ?_
  refine (scan_optionalType hs n Kind.noConfusion).bind (by omega) fun result => ?_
  have hinner : Fence tail ⟨s.eof, false, some (name.literal, result)⟩
      ⟨s'.eof, false, some (name.literal, result)⟩ := ⟨hs.eof, hs.head, rfl, rfl⟩
  exact (ih.block _ _ hinner).bind (by omega) fun b => .pure _

theorem scan_block : Scan ts tail (n + 1) 1 1 (block s (n + 1)) (block s' (n + 1)) := by
  rw [block, block]
  refine .spend ?_
  refine (scan_expect hs Kind.noConfusion).bind (Nat.le_refl 0) fun opening => ?_
  intro i left hleft
  refine (ih.blockBody s s' hs opening.span i left hleft).bind (by omega)
    fun body m us hok hm hus => ?_
  -- The statements end before a closing brace, so there is a token to take.
  have hclosing : (next s us).kind = .rcurly := (ends_blockBody_rcurly s _ n left).of_ok hok
  obtain ⟨t, rest, rfl, -⟩ := exists_cons_of_next hs.eof hclosing Kind.noConfusion
  rw [List.cons_append, bind_eq_of_ok advance_cons, bind_eq_of_ok advance_cons]
  exact ⟨rfl, m + 1, by omega, hus.step⟩

theorem scan_blockBody (opening : Span) :
    Scan ts tail (n + 1) 0 3 (blockBody s (n + 1) opening) (blockBody s' (n + 1) opening) := by
  rw [blockBody, blockBody]
  refine .spend ?_
  have hmore : Scan ts tail n 0 2
      (do
        let first ← statement s n
        let rest ← blockBody s n opening
        return first :: rest)
      (do
        let first ← statement s' n
        let rest ← blockBody s' n opening
        return first :: rest) := by
    refine (ih.statement s s' hs).bind (Nat.le_refl 2) fun first => ?_
    exact (ih.blockBody s s' hs opening).bind (by omega) fun rest => .pure _
  intro i left hleft
  rw [bind_eq_of_ok peek_eq, bind_eq_of_ok peek_eq, hs.next_append]
  cases hk : (next s left).kind with
  | rcurly => exact Scan.pure [] i left hleft
  | eof => exact Scan.fail rfl i left hleft
  | semicolon =>
    obtain ⟨t, rest, rfl, -⟩ := exists_cons_of_next hs.eof hk Kind.noConfusion
    refine scanOn_advance (fun _ => ?_) i t rest hleft
    exact (ih.blockBody s s' hs opening).mono (Nat.le_refl 0) (by omega)
  | _ => exact hmore i left hleft

end Step

theorem scansStatements (ts tail : List Token) (n : Nat) : ScansStatements ts tail n := by
  induction n with
  | zero =>
    constructor
    · intro s s' _; rw [statement_zero, statement_zero]; exact .outOfFuel
    · intro s s' _; rw [ifStatement_zero, ifStatement_zero]; exact Scan.outOfFuel.on
    · intro s s' _; rw [fnDeclaration_zero, fnDeclaration_zero]; exact Scan.outOfFuel.on
    · intro s s' _; rw [block_zero, block_zero]; exact .outOfFuel
    · intro s s' _ opening; rw [blockBody_zero, blockBody_zero]; exact .outOfFuel
  | succ n ih =>
    exact ⟨fun _ _ hs => scan_statement hs ih, fun _ _ hs => scanOn_ifStatement hs ih,
      fun _ _ hs => scanOn_fnDeclaration hs ih, fun _ _ hs => scan_block hs ih,
      fun _ _ hs => scan_blockBody hs ih⟩

theorem scan_statements (hs : Fence tail s s') (n : Nat) :
    Scan ts tail n 0 3 (statements s n) (statements s' n) := by
  induction n with
  | zero => exact .outOfFuel
  | succ n ih =>
    rw [statements, statements]
    refine .spend ?_
    have hmore : Scan ts tail n 0 2
        (do
          let first ← statement s n
          let rest ← statements s n
          return first :: rest)
        (do
          let first ← statement s' n
          let rest ← statements s' n
          return first :: rest) := by
      refine ((scansStatements ts tail n).statement s s' hs).bind (Nat.le_refl 2) fun first => ?_
      exact ih.bind (by omega) fun rest => .pure _
    intro i left hleft
    rw [bind_eq_of_ok peek_eq, bind_eq_of_ok peek_eq, hs.next_append]
    cases hk : (next s left).kind with
    | eof => exact Scan.pure [] i left hleft
    | semicolon =>
      obtain ⟨t, rest, rfl, -⟩ := exists_cons_of_next hs.eof hk Kind.noConfusion
      refine scanOn_advance (fun _ => ?_) i t rest hleft
      exact ih.mono (Nat.le_refl 0) (by omega)
    | _ => exact hmore i left hleft

/-- The descent at the top of a program, with `beyond` to stand for the end of the list. -/
def descend (beyond : Token) (fuel : Nat) : Parser Program := statements ⟨beyond, false, none⟩ fuel

/-- The same outcome, with more tokens left behind. -/
def followedBy {α : Type} (more : List Token) :
    EStateM.Result ParseStop (List Token) α → EStateM.Result ParseStop (List Token) α
  | .ok a left => .ok a (left ++ more)
  | .error e left => .error e (left ++ more)

/-- What a descent came to, unless it ran out of fuel. -/
def verdict? : EStateM.Result ParseStop (List Token) Program → Option (Except Diagnostic Program)
  | .ok p _ => some (.ok p)
  | .error (.fault d) _ => some (.error d)
  | .error .outOfFuel _ => none

end Parser

/-! ## Lists of tokens -/

namespace Program

open Scriptlet.Parser

variable {tokens : List Token}

/-- The list that is read: an end of file is supplied where its last token ends, unless that is
one. -/
def closed (tokens : List Token) : List Token :=
  if tokens.getLast?.map Token.kind = some .eof then tokens
  else
    let stop := (tokens.getLast?.map fun t => t.span.stop).getD 0
    tokens ++ [⟨.eof, [], ⟨stop, stop⟩⟩]

theorem ne_eof_of_mem_body {t : Token} (ht : t ∈ body tokens) : t.kind ≠ .eof :=
  bne_iff_ne.1 (List.mem_takeWhile_imp (p := fun t : Token => t.kind != .eof) ht)

/-- A list goes on with its end of file behind its body, or it is its body. -/
theorem eq_body_or (tokens : List Token) :
    (∃ more, tokens = body tokens ++ endToken tokens :: more) ∨
      tokens = body tokens ∧ tokens.find? (fun t => t.kind == .eof) = none := by
  cases hfind : tokens.find? fun t => t.kind == .eof with
  | some e =>
    obtain ⟨he, front, more, rfl, hfront⟩ := List.find?_eq_some_iff_append.1 hfind
    have heof : e.kind = .eof := eq_of_beq he
    have hinside : ∀ t ∈ front, t.kind ≠ .eof := fun t ht => by simpa using hfront t ht
    rw [body_append_eof hinside heof, endToken_append_eof hinside heof]
    exact .inl ⟨more, rfl⟩
  | none =>
    refine .inr ⟨(List.takeWhile_eq_self_iff.2 fun t ht => ?_).symm, rfl⟩
    simpa using List.find?_eq_none.1 hfind t ht

theorem endToken_kind (tokens : List Token) : (endToken tokens).kind = .eof := by
  unfold endToken
  split
  · rename_i e hfind
    exact eq_of_beq (List.find?_some (p := fun t : Token => t.kind == .eof) hfind)
  · rfl

/-- The list that is read goes on with an end of file behind the body. -/
theorem exists_closed_eq (tokens : List Token) :
    ∃ more, closed tokens = body tokens ++ endToken tokens :: more := by
  obtain ⟨more, htokens⟩ | ⟨htokens, hfind⟩ := eq_body_or tokens
  · unfold closed
    split
    · exact ⟨more, htokens⟩
    · exact ⟨_, (congrArg (· ++ [_]) htokens).trans (List.append_assoc _ _ _)⟩
  · have hlast : tokens.getLast?.map Token.kind ≠ some .eof := by
      intro hlast
      obtain ⟨t, ht, hkind⟩ := Option.map_eq_some_iff.1 hlast
      have hmem : t ∈ body tokens := htokens ▸ List.mem_of_getLast? ht
      exact ne_eof_of_mem_body hmem hkind
    refine ⟨[], ?_⟩
    rw [← htokens]
    unfold closed endToken
    rw [if_neg hlast, hfind]

/-- Of a list, parsing looks at the body and at the end of file. -/
theorem parse_congr {others : List Token} (hbody : body tokens = body others)
    (hend : endToken tokens = endToken others) : parse tokens = parse others := by
  unfold parse
  rw [hbody, hend]

theorem parse_take (tokens : List Token) :
    parse (tokens.take ((body tokens).length + 1)) = parse tokens := by
  obtain ⟨more, htokens⟩ | ⟨htokens, -⟩ := eq_body_or tokens
  · have hinside : ∀ t ∈ body tokens, t.kind ≠ .eof := fun t => ne_eof_of_mem_body
    have htake : tokens.take ((body tokens).length + 1) = body tokens ++ [endToken tokens] := by
      refine (congrArg (List.take ((body tokens).length + 1)) htokens).trans ?_
      rw [List.take_append, List.take_of_length_le (Nat.le_succ _), Nat.add_sub_cancel_left]
      rfl
    rw [htake]
    exact parse_congr (body_append_eof hinside (endToken_kind tokens))
      (endToken_append_eof hinside (endToken_kind tokens))
  · rw [← htokens, List.take_of_length_le (Nat.le_succ _)]

/-- The cursor stands at a token of the list that is read, at the one numbered `stop` or before. -/
def StandsIn (tokens : List Token) (stop : Nat) (left : List Token) : Prop :=
  ∃ i ≤ stop, Cursor (closed tokens) i left

/-- The descent over the whole list goes as the descent over its body does, and leaves alone what is
behind the list. -/
theorem exists_descent (tokens : List Token) (fuel : Nat) :
    ∃ r, (∀ beyond behind,
        descend beyond fuel (closed tokens ++ behind) = followedBy behind r) ∧
      Ends r (fun _ => StandsIn tokens (body tokens).length)
        (fun _ => StandsIn tokens (body tokens).length) ∧
      verdict? r = verdict? (descend (endToken tokens) fuel (body tokens)) ∧
      (verdict? r = none → fuel < fuelFor (body tokens).length) ∧
      ∀ d, verdict? r = some (.error d) → d.code = .malformed := by
  obtain ⟨more, hclosed⟩ := exists_closed_eq tokens
  have hscan : ∀ beyond behind, Scans (body tokens) (endToken tokens :: (more ++ behind)) 0
      (fuel < 8 * (body tokens).length + 3) (descend (endToken tokens) fuel (body tokens))
      (descend beyond fuel (closed tokens ++ behind)) := by
    intro beyond behind
    rw [hclosed, List.append_assoc]
    have hfence : Fence (endToken tokens :: (more ++ behind)) ⟨endToken tokens, false, none⟩
        ⟨beyond, false, none⟩ := ⟨endToken_kind tokens, ⟨_, rfl⟩, rfl, rfl⟩
    exact scan_statements hfence fuel 0 (body tokens) (.start _)
  -- What is behind the list is behind the end of file, and so is not looked at.
  have hbehind : ∀ left behind : List Token, left ++ endToken tokens :: (more ++ behind) =
      (left ++ endToken tokens :: more) ++ behind := by
    intro left behind
    rw [List.append_assoc, List.cons_append]
  have hin : ∀ i left, Cursor (body tokens) i left →
      StandsIn tokens (body tokens).length (left ++ endToken tokens :: more) := by
    intro i left h
    refine ⟨i, h.le, ?_⟩
    rw [hclosed]
    exact h.append _
  cases hr : descend (endToken tokens) fuel (body tokens) with
  | ok p left =>
    rw [hr] at hscan
    obtain ⟨-, i, -, hleft⟩ := hscan (endToken tokens) []
    refine ⟨.ok p (left ++ endToken tokens :: more), fun beyond behind => ?_,
      hin i left hleft, rfl, fun hnone => ?_, fun d hd => ?_⟩
    · rw [(hscan beyond behind).1, hbehind]
      rfl
    · cases hnone
    · cases hd
  | error e left =>
    rw [hr] at hscan
    obtain ⟨-, ⟨i, hleft⟩, hdue⟩ := hscan (endToken tokens) []
    refine ⟨.error e (left ++ endToken tokens :: more), fun beyond behind => ?_,
      hin i left hleft, by cases e <;> rfl, fun hnone => ?_, fun d hd => ?_⟩
    · rw [(hscan beyond behind).1, hbehind]
      rfl
    · cases e with
      | fault d => cases hnone
      | outOfFuel =>
        have hshort : fuel < 8 * (body tokens).length + 3 := hdue
        unfold fuelFor
        omega
    · cases e with
      | fault d' => cases hd; exact hdue
      | outOfFuel => cases hd

/-- What more fuel comes to is what less fuel came to. -/
theorem verdict?_of_le {n m : Nat} (hnm : n ≤ m) {v : Except Diagnostic Program}
    (hv : verdict? (descend (endToken tokens) n (body tokens)) = some v) :
    verdict? (descend (endToken tokens) m (body tokens)) = some v := by
  obtain ⟨d, rfl⟩ := Nat.exists_eq_add_of_le hnm
  have hinside : ∀ t ∈ body tokens, t.kind ≠ .eof := fun t => ne_eof_of_mem_body
  have hfollows : Follows .refl [] True (body tokens).length (Stmt.AllAlike .refl)
      (descend (endToken tokens) n (body tokens)) (descend (endToken tokens) (n + d) (body tokens)) :=
    follows_statements (forall₂_alike_refl hinside) (endToken_kind tokens) ⟨rfl, rfl, rfl⟩ n d
  cases hr : descend (endToken tokens) n (body tokens) with
  | ok p left =>
    rw [hr] at hfollows hv
    obtain ⟨p', left', hr', hp, -⟩ := hfollows
    obtain rfl : p = p' := hp.eq_of_refl
    rw [hr']
    exact hv
  | error e left =>
    rw [hr] at hfollows hv
    cases e with
    | outOfFuel => cases hv
    | fault f =>
      obtain ⟨f', left', hr', hf⟩ := hfollows trivial
      have hsame : f.respan id = f'.respan id := hf
      rw [Diagnostic.respan_id, Diagnostic.respan_id] at hsame
      rw [hr', ← hsame]
      exact hv

/-- The fuel that is handed out is enough, and what is found with it is the outcome. -/
theorem verdict?_fuelFor (tokens : List Token) :
    verdict? (descend (endToken tokens) (fuelFor (body tokens).length) (body tokens)) =
      some (parse tokens) := by
  obtain ⟨r, -, -, hr, hfuel, -⟩ := exists_descent tokens (fuelFor (body tokens).length)
  rw [hr] at hfuel
  change _ = some (match descend (endToken tokens) (fuelFor (body tokens).length) (body tokens) with
    | .ok program _ => Except.ok program
    | .error (.fault d) _ => .error d
    | .error .outOfFuel _ => .error ⟨.unclosedBlock, (endToken tokens).span⟩)
  cases h : descend (endToken tokens) (fuelFor (body tokens).length) (body tokens) with
  | ok p left => rfl
  | error e left =>
    cases e with
    | fault d => rfl
    | outOfFuel =>
      rw [h] at hfuel
      exact absurd (hfuel rfl) (Nat.lt_irrefl _)

theorem eq_parse_of_verdict? {fuel : Nat} {v : Except Diagnostic Program}
    (hv : verdict? (descend (endToken tokens) fuel (body tokens)) = some v) : v = parse tokens := by
  -- Of two amounts of fuel that are enough, the smaller comes to what the larger does.
  have hparse := verdict?_fuelFor tokens
  rcases Nat.le_total fuel (fuelFor (body tokens).length) with hle | hle
  · rw [verdict?_of_le hle hv] at hparse
    exact Option.some.inj hparse
  · rw [verdict?_of_le hle hparse] at hv
    exact (Option.some.inj hv).symm

/-- Parsing is total. On any list of tokens, the descent over the whole list goes the same way
whatever is behind the list and whatever stands for its end, and wherever it ends for want of fuel or
otherwise, the cursor is at a token, no further than the first end of file. With fuel for the tokens
before that it comes to a program or to a syntax error, and nothing behind makes a difference. -/
theorem parsing_is_total_and_in_bounds (tokens : List Token) :
    ∃ stop < (closed tokens).length,
      (∀ i t, (closed tokens)[i]? = some t → i ≤ stop → (t.kind = .eof ↔ i = stop)) ∧
      (∀ fuel, ∃ r,
        (∀ beyond behind, descend beyond fuel (closed tokens ++ behind) = followedBy behind r) ∧
        Ends r (fun _ => StandsIn tokens stop) (fun _ => StandsIn tokens stop) ∧
        (verdict? r = some (parse tokens) ∨ verdict? r = none ∧ fuel < fuelFor stop)) ∧
      (∀ d, parse tokens = .error d → d.notice.key = utf8 "E0001") ∧
      parse (tokens.take (stop + 1)) = parse tokens := by
  obtain ⟨more, hclosed⟩ := exists_closed_eq tokens
  refine ⟨(body tokens).length, ?_, fun i t ht hi => ?_, fun fuel => ?_, fun d hd => ?_,
    parse_take tokens⟩
  · rw [hclosed, List.length_append, List.length_cons]
    omega
  · rw [hclosed] at ht
    rcases Nat.lt_or_eq_of_le hi with hlt | rfl
    · rw [List.getElem?_append_left hlt] at ht
      have hne : t.kind ≠ .eof := ne_eof_of_mem_body (List.mem_of_getElem? ht)
      exact ⟨fun h => absurd h hne, fun h => absurd h (Nat.ne_of_lt hlt)⟩
    · rw [List.getElem?_append_right (Nat.le_refl _), Nat.sub_self] at ht
      cases ht
      exact ⟨fun _ => rfl, fun _ => endToken_kind tokens⟩
  · obtain ⟨r, hr, hends, hverdict, hfuel, -⟩ := exists_descent tokens fuel
    refine ⟨r, hr, hends, ?_⟩
    cases hv : verdict? r with
    | none => exact .inr ⟨rfl, hfuel hv⟩
    | some v => exact .inl (congrArg some (eq_parse_of_verdict? (hverdict ▸ hv)))
  · obtain ⟨r, -, -, hverdict, -, hcode⟩ := exists_descent tokens (fuelFor (body tokens).length)
    rw [hverdict, verdict?_fuelFor, hd] at hcode
    exact congrArg Code.key (hcode d rfl)

end Program
end Scriptlet
