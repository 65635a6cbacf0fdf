import Scriptlet.Proofs.Grammar.Recognition
import Scriptlet.Proofs.Lexing.Respelling
import Scriptlet.Proofs.Lexing.Tiling
import Scriptlet.Proofs.Parallel.Parsing
import Scriptlet.Proofs.Text.Parts

/-!
# Legibility: the words and strings of a program

The scanner takes only words for identifiers, and writes every character of a string out again, so
what is malformed in a source stays outside of its tokens. The grammar takes the names and the
strings of a program from its tokens and makes none up. So in a parsed program names are words and
strings are well-formed texts, whatever the bytes of its source.
-/

namespace Scriptlet

mutual

/-- The names in the expression are words, and its strings well formed. -/
def Expr.Legible : Expr → Prop
  | .int .. | .bool .. => True
  | .str s _ => isUtf8 s = true
  | .ident name _ => name.Word
  | .vec elems _ => Expr.AllLegible elems
  | .neg operand _ => operand.Legible
  | .binary _ left right _ => left.Legible ∧ right.Legible
  | .call name _ args _ => name.Word ∧ Expr.AllLegible args
  | .index target place _ => target.Legible ∧ place.Legible

/-- The names in the expressions are words, and their strings well formed. -/
def Expr.AllLegible : List Expr → Prop
  | [] => True
  | e :: rest => e.Legible ∧ Expr.AllLegible rest

end

mutual

/-- The names in the statement are words, and its strings well formed. -/
def Stmt.Legible : Stmt → Prop
  | .letVar name _ _ value _ => name.Word ∧ value.Legible
  | .assign name value _ => name.Word ∧ value.Legible
  | .assignAt name place value _ => name.Word ∧ place.Legible ∧ value.Legible
  | .call name _ args _ _ => name.Word ∧ Expr.AllLegible args
  | .when cond body _ _ => cond.Legible ∧ Stmt.AllLegible body
  | .ifElse cond body _ other _ _ => cond.Legible ∧ Stmt.AllLegible body ∧ Stmt.AllLegible other
  | .loop body _ _ => Stmt.AllLegible body
  | .stop _ | .ret none _ => True
  | .ret (some value) _ | .exit value _ => value.Legible
  | .fn name params _ body _ _ =>
    name.Word ∧ (∀ p ∈ params, p.name.Word) ∧ Stmt.AllLegible body

/-- The names in the statements are words, and their strings well formed. -/
def Stmt.AllLegible : List Stmt → Prop
  | [] => True
  | s :: rest => s.Legible ∧ Stmt.AllLegible rest

end

/-! ## Trees without places -/

mutual

theorem Expr.legible_bare : (e : Expr) → (e.bare.Legible ↔ e.Legible)
  | .int .. | .str .. | .bool .. | .ident .. => Iff.rfl
  | .vec elems _ => Expr.allLegible_allBare elems
  | .neg operand _ => operand.legible_bare
  | .binary _ left right _ => and_congr left.legible_bare right.legible_bare
  | .call _ _ args _ => and_congr_right fun _ => Expr.allLegible_allBare args
  | .index target place _ => and_congr target.legible_bare place.legible_bare

theorem Expr.allLegible_allBare :
    (es : List Expr) → (Expr.AllLegible (Expr.allBare es) ↔ Expr.AllLegible es)
  | [] => Iff.rfl
  | e :: rest => and_congr e.legible_bare (Expr.allLegible_allBare rest)

end

mutual

theorem Stmt.legible_bare : (s : Stmt) → (s.bare.Legible ↔ s.Legible)
  | .letVar _ _ _ value _ | .assign _ value _ => and_congr_right fun _ => value.legible_bare
  | .assignAt _ place value _ =>
    and_congr_right fun _ => and_congr place.legible_bare value.legible_bare
  | .call _ _ args _ _ => and_congr_right fun _ => Expr.allLegible_allBare args
  | .when cond body _ _ => and_congr cond.legible_bare (Stmt.allLegible_allBare body)
  | .ifElse cond body _ other _ _ =>
    and_congr cond.legible_bare
      (and_congr (Stmt.allLegible_allBare body) (Stmt.allLegible_allBare other))
  | .loop body _ _ => Stmt.allLegible_allBare body
  | .stop _ | .ret none _ => Iff.rfl
  | .ret (some value) _ | .exit value _ => value.legible_bare
  | .fn _ params _ body _ _ =>
    have hparams : (∀ p ∈ params.map Param.bare, p.name.Word) ↔ ∀ p ∈ params, p.name.Word :=
      List.forall_mem_map
    and_congr_right fun _ => and_congr hparams (Stmt.allLegible_allBare body)

theorem Stmt.allLegible_allBare :
    (ss : List Stmt) → (Stmt.AllLegible (Stmt.allBare ss) ↔ Stmt.AllLegible ss)
  | [] => Iff.rfl
  | s :: rest => and_congr s.legible_bare (Stmt.allLegible_allBare rest)

end

/-! ## Tokens of a source -/

open Lexer

/-- A string is written out character by character. -/
theorem Quotes.isUtf8 {gs : List Glyph} {literal : Bytes} (h : Quotes gs literal) :
    isUtf8 literal = true := by
  induction h with
  | nil => rfl
  | plain hquote hslash h ih => exact isUtf8_append (isUtf8_encodeChar _) ih
  | escaped hb hc h ih => exact isUtf8_append (isUtf8_encodeChar _) ih

/-- An identifier is spelled like no keyword. -/
theorem Kind.ne_of_ofWord {w : Bytes} (h : Kind.ofWord w = .ident) :
    ∀ k ∈ Kind.keywords, k.name ≠ w := by
  intro k hk hname
  have hsome : (Kind.keywords.find? fun k => k.name = w).isSome = true :=
    List.find?_isSome.2 ⟨k, hk, decide_eq_true hname⟩
  obtain ⟨found, hfound⟩ := Option.isSome_iff_exists.1 hsome
  have hident : found = .ident := by
    unfold Kind.ofWord at h
    rw [hfound] at h
    exact h
  have hmem := List.mem_of_find?_eq_some hfound
  rw [hident] at hmem
  revert hmem
  decide

/-- What is written somewhere in a source is a token of the language. -/
theorem Kind.WrittenAs.spellable {k : Kind} {literal w : Bytes} (h : k.WrittenAs literal w)
    (span : Span) : Token.Spellable ⟨k, literal, span⟩ := by
  have hfixed : ∀ k ∈ Kind.keywords ++ Kind.signs,
      (k ≠ .eof ∧ ∀ n, k ≠ .other n) ∧ k ≠ .ident ∧ k ≠ .int ∧ k ≠ .str := by
    simp only [← Kind.mem_all_iff]
    decide
  have hbare {k : Kind} (hk : k ∈ Kind.keywords ++ Kind.signs) : Token.Spellable ⟨k, [], span⟩ := by
    obtain ⟨hkind, hident, hint, hstr⟩ := hfixed k hk
    exact ⟨hkind, fun h => absurd h hident, fun h => absurd h hint, fun h => absurd h hstr,
      fun _ => rfl⟩
  have hvaried : ∀ k ∈ [Kind.ident, .int, .str],
      (k ≠ .eof ∧ ∀ n, k ≠ .other n) ∧ k ∉ Kind.keywords ++ Kind.signs := by
    simp only [← Kind.mem_all_iff]
    decide
  cases h with
  | keyword hk => exact hbare (List.mem_append_left _ hk)
  | sign hk => exact hbare (List.mem_append_right _ hk)
  | power => exact hbare (by decide)
  | ident hw hk =>
    obtain ⟨hkind, hfree⟩ := hvaried .ident (by decide)
    exact ⟨hkind, fun _ => ⟨hw, Kind.ne_of_ofWord hk⟩, nofun, nofun, fun hmem => absurd hmem hfree⟩
  | int hw =>
    obtain ⟨hkind, hfree⟩ := hvaried .int (by decide)
    exact ⟨hkind, nofun, fun _ => hw, nofun, fun hmem => absurd hmem hfree⟩
  | str hglyphs hq hquotes hq' =>
    obtain ⟨hkind, hfree⟩ := hvaried .str (by decide)
    exact ⟨hkind, nofun, nofun, fun _ => hquotes.isUtf8, fun hmem => absurd hmem hfree⟩

/-! ## Phrases of the grammar -/

namespace Grammar

/-- The names in the phrase are words, and its strings well formed. -/
def Phrase.Legible : Phrase → Prop
  | .expr _ e => e.Legible
  | .items es => Expr.AllLegible es

/-- The names in the piece are words, and its strings well formed. -/
def Piece.Legible : Piece → Prop
  | .stmt s => s.Legible
  | .block ss | .body ss => Stmt.AllLegible ss

variable {ts : List Token}

theorem Derives.legible {ph : Phrase} (h : Derives ts ph) (hts : ∀ t ∈ ts, t.Spellable) :
    ph.Legible := by
  induction h with
  | int | yes | no => trivial
  | str hk => exact (hts _ List.mem_cons_self).str hk
  | ident hk => exact ((hts _ List.mem_cons_self).ident hk).1
  | call hk hl h hr ih =>
    exact ⟨((hts _ List.mem_cons_self).ident hk).1, ih fun t ht => hts t (by simp [ht])⟩
  | vec hl h hr ih => exact ih fun t ht => hts t (by simp [ht])
  | paren hl h hr ih => exact ih fun t ht => hts t (by simp [ht])
  | index h hl h' hr ih ih' =>
    exact ⟨ih fun t ht => hts t (by simp [ht]), ih' fun t ht => hts t (by simp [ht])⟩
  | neg hk h ih => exact ih fun t ht => hts t (by simp [ht])
  | binary h hk h' ih ih' =>
    exact ⟨ih fun t ht => hts t (by simp [ht]), ih' fun t ht => hts t (by simp [ht])⟩
  | loosen hl h ih => exact ih hts
  | noItems => trivial
  | lastItem h ih => exact ⟨ih hts, trivial⟩
  | moreItems h hk h' ih ih' =>
    exact ⟨ih fun t ht => hts t (by simp [ht]), ih' fun t ht => hts t (by simp [ht])⟩

theorem ParamsForm.legible {params : List Param} (h : ParamsForm ts params)
    (hts : ∀ t ∈ ts, t.Spellable) : ∀ p ∈ params, p.name.Word := by
  induction h with
  | none => nofun
  | last hx hc h =>
    intro p hp
    rw [List.mem_singleton.1 hp]
    exact ((hts _ List.mem_cons_self).ident hx).1
  | more hx hc h hd h' ih =>
    intro p hp
    rcases List.mem_cons.1 hp with rfl | hp
    · exact ((hts _ List.mem_cons_self).ident hx).1
    · exact ih (fun t ht => hts t (by simp [ht])) p hp

theorem Forms.legible {c : Place} {piece : Piece} (h : Forms c ts piece)
    (hts : ∀ t ∈ ts, t.Spellable) : piece.Legible := by
  induction h with
  | letVar hk hx ha h hz =>
    exact ⟨((hts _ (by simp)).ident hx).1, h.legible fun t ht => hts t (by simp [ht])⟩
  | assign hx hq h hz =>
    exact ⟨((hts _ (by simp)).ident hx).1, h.legible fun t ht => hts t (by simp [ht])⟩
  | assignAt hx hl h hr hq h' hz =>
    exact ⟨((hts _ (by simp)).ident hx).1, h.legible fun t ht => hts t (by simp [ht]),
      h'.legible fun t ht => hts t (by simp [ht])⟩
  | call hx hl h hr hz =>
    exact ⟨((hts _ (by simp)).ident hx).1, h.legible fun t ht => hts t (by simp [ht])⟩
  | when hk h hb ih =>
    exact ⟨h.legible fun t ht => hts t (by simp [ht]), ih fun t ht => hts t (by simp [ht])⟩
  | ifElse hk h hb hl ho ih ih' =>
    exact ⟨h.legible fun t ht => hts t (by simp [ht]), ih fun t ht => hts t (by simp [ht]),
      ih' fun t ht => hts t (by simp [ht])⟩
  | elseIf hk h hb hl hi ho ih ih' =>
    refine ⟨h.legible fun t ht => hts t (by simp [ht]), ih fun t ht => hts t (by simp [ht]), ?_⟩
    refine ⟨ih' fun t ht => hts t ?_, trivial⟩
    rcases List.mem_cons.1 ht with rfl | ht
    · simp
    · simp [ht]
  | loop hk hb ih => exact ih fun t ht => hts t (by simp [ht])
  | stop | ret => trivial
  | retValue hk hc h hz => exact h.legible fun t ht => hts t (by simp [ht])
  | exit hk h hz => exact h.legible fun t ht => hts t (by simp [ht])
  | fn hk hx hl hp hd hr ht hb ih =>
    exact ⟨((hts _ (by simp)).ident hx).1, hp.legible fun t ht => hts t (by simp [ht]),
      ih fun t ht => hts t (by simp [ht])⟩
  | block hl h hr ih => exact ih fun t ht => hts t (by simp [ht])
  | noStmts => trivial
  | semicolon hz h ih => exact ih fun t ht => hts t (by simp [ht])
  | moreStmts h h' ih ih' =>
    exact ⟨ih fun t ht => hts t (by simp [ht]), ih' fun t ht => hts t (by simp [ht])⟩

end Grammar

/-! ## Programs of a source -/

open Grammar

/-- The names of a parsed program are words, and its strings are well formed. -/
theorem Program.allLegible_of_ofSource {source : Bytes} {p : Program}
    (h : Program.ofSource source = .ok p) : Stmt.AllLegible p := by
  cases hlex : Token.lex source with
  | error d =>
    unfold Program.ofSource at h
    rw [hlex] at h
    cases h
  | ok ts =>
    obtain ⟨body, rfl, htiles⟩ := tiles_of_lex hlex
    have hspellable : ∀ t ∈ body, t.Spellable := by
      intro t ht
      obtain ⟨a, b, -, -, -, -, hwritten⟩ := htiles.exists_span t ht
      exact hwritten.spellable t.span
    have hplain : Plain body := fun t ht => ⟨(hspellable t ht).kind.1, (hspellable t ht).int⟩
    rw [Program.ofSource_of_lex hlex] at h
    obtain ⟨left, hstatements⟩ :=
      (Program.parse_eq_ok_iff (fun t ht => (hplain t ht).1) rfl).1 h
    have hforms : Forms .top body (.body (Stmt.allBare p)) :=
      (Parser.ends_statements rfl _ body hplain).of_ok hstatements
    exact (Stmt.allLegible_allBare p).1 (hforms.legible hspellable)

end Scriptlet
