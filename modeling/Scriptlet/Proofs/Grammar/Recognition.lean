import Scriptlet.Proofs.Grammar.Completeness.Statement
import Scriptlet.Proofs.Grammar.Soundness.Statement

/-!
# Recognition: the parser accepts exactly the grammar

What the parser gives for a list of tokens is what the grammar derives from it, up to places. Since
the parser is a function, the grammar assigns at most one program to a list.
-/

namespace Scriptlet

open Grammar

variable {body more : List Token} {eof : Token} {p q : Program}

/-! ## The tokens that are parsed -/

namespace Program

theorem body_append_eof (hbody : ∀ t ∈ body, t.kind ≠ .eof) (heof : eof.kind = .eof) :
    Program.body (body ++ eof :: more) = body := by
  have hall : ∀ t ∈ body, (t.kind != .eof) = true := fun t ht => bne_iff_ne.2 (hbody t ht)
  rw [Program.body, List.takeWhile_append_of_pos hall, List.takeWhile_cons, heof]
  exact List.append_nil body

theorem endToken_append_eof (hbody : ∀ t ∈ body, t.kind ≠ .eof) (heof : eof.kind = .eof) :
    endToken (body ++ eof :: more) = eof := by
  have hnone : body.find? (fun t => t.kind == .eof) = none := by
    rw [List.find?_eq_none]
    intro t ht h
    exact hbody t ht (eq_of_beq h)
  rw [endToken, List.find?_append, hnone, Option.none_or, List.find?_cons, heof]
  rfl

/-- Parsing succeeds if the statements up to the end of file do. -/
theorem parse_eq_ok_iff (hbody : ∀ t ∈ body, t.kind ≠ .eof) (heof : eof.kind = .eof) :
    parse (body ++ [eof]) = .ok p ↔
      ∃ left, Parser.statements ⟨eof, false, none⟩ (fuelFor body.length) body = .ok p left := by
  unfold parse
  rw [body_append_eof hbody heof, endToken_append_eof hbody heof]
  dsimp only
  cases h : Parser.statements ⟨eof, false, none⟩ (fuelFor body.length) body with
  | ok p' left =>
    constructor
    · intro hp
      cases hp
      exact ⟨left, rfl⟩
    · rintro ⟨_, hp⟩
      cases hp
      rfl
  | error stop left =>
    constructor
    · intro hp
      cases stop with
      | fault d => cases hp
      | outOfFuel => cases hp
    · rintro ⟨_, hp⟩
      cases hp

end Program

/-! ## Both directions -/

/-- A program of the grammar is what its tokens are read as. -/
theorem Grammar.Programs.statements_eq (h : Programs body p) (heof : eof.kind = .eof) :
    ∃ p', Stmt.allBare p' = p ∧
      Parser.statements ⟨eof, false, none⟩ (Program.fuelFor body.length) body = .ok p' [] := by
  have hreads : Parser.ReadsBody ⟨eof, false, none⟩ body p := Parser.readsPiece h _ rfl
  exact hreads.statements heof _ (by unfold Program.fuelFor; omega)

/-- The grammar assigns at most one program to a list of tokens. -/
theorem Grammar.Programs.unique (h : Programs body p) (h' : Programs body q) : p = q := by
  -- Both are what the parser gives, with any token for the end.
  obtain ⟨p', hp, hx⟩ := h.statements_eq (show (⟨.eof, [], .origin⟩ : Token).kind = .eof from rfl)
  obtain ⟨q', hq, hy⟩ := h'.statements_eq (show (⟨.eof, [], .origin⟩ : Token).kind = .eof from rfl)
  rw [hx] at hy
  cases hy
  exact hp.symm.trans hq

/-- On tokens with an end of file at their end and nowhere else, and with numerals for integers,
parsing succeeds with a program exactly if the grammar derives that program, which is the only
one. -/
theorem parse_accepts_exactly_the_grammar (hbody : Plain body) (heof : eof.kind = .eof) :
    (∀ p, (∃ p', Program.parse (body ++ [eof]) = .ok p' ∧ Stmt.allBare p' = p) ↔
      Programs body p) ∧
    ∀ p q, Programs body p → Programs body q → p = q := by
  have hinside : ∀ t ∈ body, t.kind ≠ .eof := fun t ht => (hbody t ht).1
  refine ⟨fun p => ⟨?_, ?_⟩, fun p q => Programs.unique⟩
  · rintro ⟨p', hparse, rfl⟩
    obtain ⟨left, hx⟩ := (Program.parse_eq_ok_iff hinside heof).1 hparse
    exact (Parser.ends_statements heof _ body hbody).of_ok hx
  · intro hp
    obtain ⟨p', hbare, hx⟩ := hp.statements_eq heof
    exact ⟨p', (Program.parse_eq_ok_iff hinside heof).2 ⟨[], hx⟩, hbare⟩

/-- In `let v: vec<int>= [-a ^ 2,];` the `>=` closes the type, and the minus takes the power. -/
theorem negated_power_in_a_joined_let :
    let body : List Token :=
      [⟨.kLet, [], .origin⟩, ⟨.ident, utf8 "v", .origin⟩, ⟨.colon, [], .origin⟩,
        ⟨.ident, utf8 "vec", .origin⟩, ⟨.lt, [], .origin⟩, ⟨.ident, utf8 "int", .origin⟩,
        ⟨.gtEq, [], .origin⟩, ⟨.lbracket, [], .origin⟩, ⟨.minus, [], .origin⟩,
        ⟨.ident, utf8 "a", .origin⟩, ⟨.caret, [], .origin⟩, ⟨.int, utf8 "2", .origin⟩,
        ⟨.comma, [], .origin⟩, ⟨.rbracket, [], .origin⟩, ⟨.semicolon, [], .origin⟩]
    Plain body ∧ Programs body
      [.letVar (utf8 "v") .origin (some Ty.int.vecOf)
        (.vec [.neg (.binary .pow (.ident (utf8 "a") .origin) (.int 2 .origin) .origin) .origin]
          .origin) .origin] := by
  intro body
  have hbody : Plain body := by decide +kernel
  have heof : (⟨.eof, [], .origin⟩ : Token).kind = .eof := rfl
  exact ⟨hbody, ((parse_accepts_exactly_the_grammar hbody heof).1 _).1 ⟨_, rfl, rfl⟩⟩

end Scriptlet
