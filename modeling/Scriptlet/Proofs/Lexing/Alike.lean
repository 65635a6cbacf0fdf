import Mathlib.Data.List.Forall2
import Scriptlet.Proofs.Lexing.Offsets

/-!
# Alike: reading the same at other offsets

Two scanners in the same lexeme, at offsets that correspond and with corresponding tokens behind
them, remain so while they read the same glyphs: the offset reached is only ever recorded. The
second may have found other tokens before.
-/

namespace Scriptlet

/-- The token is the same at corresponding offsets. -/
inductive Token.Moved (ρ : Nat → Nat → Prop) : Token → Token → Prop
  | mk {a a' b b' : Nat} (k : Kind) (literal : Bytes) (ha : ρ a a') (hb : ρ b b') :
    Moved ρ ⟨k, literal, .between a b⟩ ⟨k, literal, .between a' b'⟩

namespace Lexer

variable {ρ : Nat → Nat → Prop} {before : List Token} {s s' t : State} {g : Glyph}

/-- The lexemes are the same, begun at corresponding offsets. -/
inductive Lexeme.Alike (ρ : Nat → Nat → Prop) : Lexeme → Lexeme → Prop
  | gap : Alike ρ .gap .gap
  | comment : Alike ρ .comment .comment
  | sign {a a' : Nat} (h : ρ a a') (c : Char) : Alike ρ (.sign a c) (.sign a' c)
  | word {a a' : Nat} (h : ρ a a') (text : Bytes) : Alike ρ (.word a text) (.word a' text)
  | number {a a' : Nat} (h : ρ a a') (digits : Bytes) :
    Alike ρ (.number a digits) (.number a' digits)
  | text {a a' : Nat} (h : ρ a a') (text : Bytes) : Alike ρ (.text a text) (.text a' text)
  | escape {a a' : Nat} (h : ρ a a') (text : Bytes) : Alike ρ (.escape a text) (.escape a' text)

/-- The states are the same up to offsets, but for tokens that the second found before. -/
structure State.Alike (ρ : Nat → Nat → Prop) (before : List Token) (s s' : State) : Prop where
  lexeme : s.lexeme.Alike ρ s'.lexeme
  pos : ρ s.pos s'.pos
  rev : ∃ found, s'.rev = found ++ before ∧ List.Forall₂ (Token.Moved ρ) s.rev found

/-- A character belongs to both or to neither. -/
theorem Lexeme.Alike.holds_eq {l l' : Lexeme} (h : l.Alike ρ l') (c : Char) :
    l.holds c = l'.holds c := by
  cases h with
  | gap | comment | sign | word | number | text | escape => rfl

namespace State.Alike

/-- Entering another lexeme leaves what was found. -/
theorem enter (h : s.Alike ρ before s') {l l' : Lexeme} (hl : l.Alike ρ l') {p p' : Nat}
    (hp : ρ p p') : (⟨l, p, s.rev⟩ : State).Alike ρ before ⟨l', p', s'.rev⟩ := ⟨hl, hp, h.rev⟩

theorem emit (h : s.Alike ρ before s') (k : Kind) (literal : Bytes) {a a' b b' : Nat}
    (ha : ρ a a') (hb : ρ b b') :
    (s.emit k literal a b).Alike ρ before (s'.emit k literal a' b') := by
  obtain ⟨found, hrev, hfound⟩ := h.rev
  refine ⟨.gap, hb, ⟨k, literal, .between a' b'⟩ :: found, ?_, .cons (.mk k literal ha hb) hfound⟩
  unfold State.emit
  rw [hrev]
  rfl

theorem close (h : s.Alike ρ before s') (hclose : Lexer.close s = .ok t) :
    ∃ t', Lexer.close s' = .ok t' ∧ t.Alike ρ before t' := by
  obtain ⟨lexeme, pos, rev⟩ := s
  obtain ⟨lexeme', pos', rev'⟩ := s'
  have hpos : ρ pos pos' := h.pos
  cases h.lexeme with
  | gap => cases hclose; exact ⟨_, rfl, h.enter .gap hpos⟩
  | comment => cases hclose; exact ⟨_, rfl, h.enter .gap hpos⟩
  | sign ha c =>
    simp only [Lexer.close] at hclose ⊢
    cases hk : sign? c with
    | none => rw [hk] at hclose; cases hclose
    | some k => rw [hk] at hclose; cases hclose; exact ⟨_, rfl, h.emit k [] ha hpos⟩
  | word ha text =>
    simp only [Lexer.close] at hclose ⊢
    split at hclose
    · cases hclose; exact ⟨_, rfl, h.emit .ident _ ha hpos⟩
    · cases hclose; exact ⟨_, rfl, h.emit _ [] ha hpos⟩
  | number ha digits =>
    simp only [Lexer.close] at hclose ⊢
    split at hclose
    · cases hclose; exact ⟨_, rfl, h.emit .int _ ha hpos⟩
    · cases hclose
  | text ha text => cases hclose
  | escape ha text => cases hclose

variable (hρ : ∀ {i i' : Nat} (w : Nat), ρ i i' → ρ (i + w) (i' + w))
include hρ

theorem start (h : s.Alike ρ before s') (hstart : Lexer.start s g = .ok t) :
    ∃ t', Lexer.start s' g = .ok t' ∧ t.Alike ρ before t' := by
  have hpos := h.pos
  have hstop := hρ g.width hpos
  -- The tests are of the character alone, so both take the same way through them.
  unfold Lexer.start at hstart ⊢
  dsimp only at hstart ⊢
  by_cases hhash : (g.char == '#') = true
  · rw [if_pos hhash] at hstart ⊢
    cases hstart
    exact ⟨_, rfl, h.enter .comment hstop⟩
  rw [if_neg hhash] at hstart ⊢
  by_cases hblank : isBlank g.char = true
  · rw [if_pos hblank] at hstart ⊢
    cases hstart
    exact ⟨_, rfl, h.enter .gap hstop⟩
  rw [if_neg hblank] at hstart ⊢
  by_cases hpair : startsPair g.char = true
  · rw [if_pos hpair] at hstart ⊢
    cases hstart
    exact ⟨_, rfl, h.enter (.sign hpos _) hstop⟩
  rw [if_neg hpair] at hstart ⊢
  cases hk : sign? g.char with
  | some k => rw [hk] at hstart; cases hstart; exact ⟨_, rfl, h.emit k [] hpos hstop⟩
  | none =>
    rw [hk] at hstart
    dsimp only at hstart ⊢
    by_cases hquote : (g.char == '"') = true
    · rw [if_pos hquote] at hstart ⊢
      cases hstart
      exact ⟨_, rfl, h.enter (.text hpos _) hstop⟩
    rw [if_neg hquote] at hstart ⊢
    by_cases hdigit : isAsciiDigit g.char = true
    · rw [if_pos hdigit] at hstart ⊢
      cases hstart
      exact ⟨_, rfl, h.enter (.number hpos _) hstop⟩
    rw [if_neg hdigit] at hstart ⊢
    by_cases hword : startsWord g.char = true
    · rw [if_pos hword] at hstart ⊢
      cases hstart
      exact ⟨_, rfl, h.enter (.word hpos _) hstop⟩
    · rw [if_neg hword] at hstart
      cases hstart

/-- The next glyph does the same to both, where it belongs to the open lexeme. -/
theorem step_of_holds (h : s.Alike ρ before s') (hholds : s.lexeme.holds g.char = true)
    (hstep : Lexer.step s g = .ok t) : ∃ t', Lexer.step s' g = .ok t' ∧ t.Alike ρ before t' := by
  obtain ⟨lexeme, pos, rev⟩ := s
  obtain ⟨lexeme', pos', rev'⟩ := s'
  have hstop : ρ (pos + g.width) (pos' + g.width) := hρ g.width h.pos
  cases h.lexeme with
  | gap => cases hholds
  | comment =>
    cases hstep
    refine ⟨_, rfl, h.enter ?_ hstop⟩
    split
    · exact .gap
    · exact .comment
  | sign ha c =>
    obtain ⟨k, hk⟩ := Option.isSome_iff_exists.1 hholds
    simp only [Lexer.step, hk] at hstep ⊢
    cases hstep
    exact ⟨_, rfl, h.emit k [] ha hstop⟩
  | word ha text =>
    have hword : continuesWord g.char = true := hholds
    simp only [Lexer.step, hword, if_true] at hstep ⊢
    cases hstep
    exact ⟨_, rfl, h.enter (.word ha _) hstop⟩
  | number ha digits =>
    have hdigit : isAsciiDigit g.char = true := hholds
    simp only [Lexer.step, hdigit, if_true] at hstep ⊢
    cases hstep
    exact ⟨_, rfl, h.enter (.number ha _) hstop⟩
  | text ha text =>
    simp only [Lexer.step] at hstep ⊢
    by_cases hquote : (g.char == '"') = true
    · rw [if_pos hquote] at hstep ⊢
      cases hstep
      exact ⟨_, rfl, h.emit .str _ ha hstop⟩
    rw [if_neg hquote] at hstep ⊢
    by_cases hescape : (g.char == '\\') = true
    · rw [if_pos hescape] at hstep ⊢
      cases hstep
      exact ⟨_, rfl, h.enter (.escape ha _) hstop⟩
    · rw [if_neg hescape] at hstep ⊢
      cases hstep
      exact ⟨_, rfl, h.enter (.text ha _) hstop⟩
  | escape ha text =>
    simp only [Lexer.step] at hstep ⊢
    cases hc : escape? g.char with
    | none => rw [hc] at hstep; cases hstep
    | some c => rw [hc] at hstep; cases hstep; exact ⟨_, rfl, h.enter (.text ha _) hstop⟩

theorem step (h : s.Alike ρ before s') (hstep : Lexer.step s g = .ok t) :
    ∃ t', Lexer.step s' g = .ok t' ∧ t.Alike ρ before t' := by
  cases hholds : s.lexeme.holds g.char with
  | true => exact h.step_of_holds hρ hholds hstep
  | false =>
    rw [step_eq_restart hholds] at hstep
    rw [step_eq_restart (h.lexeme.holds_eq _ ▸ hholds)]
    obtain ⟨u, hclose, hstart⟩ := exists_of_restart hstep
    obtain ⟨u', hclose', hu⟩ := h.close hclose
    obtain ⟨t', hstart', ht⟩ := hu.start hρ hstart
    refine ⟨t', ?_, ht⟩
    unfold restart
    rw [hclose']
    exact hstart'

theorem foldlM (h : s.Alike ρ before s') {gs : List Glyph}
    (hread : gs.foldlM Lexer.step s = .ok t) :
    ∃ t', gs.foldlM Lexer.step s' = .ok t' ∧ t.Alike ρ before t' := by
  induction gs generalizing s s' with
  | nil => cases hread; exact ⟨s', rfl, h⟩
  | cons g gs ih =>
    obtain ⟨u, hstep, hrest⟩ := exists_of_foldlM_cons hread
    obtain ⟨u', hstep', hu⟩ := h.step hρ hstep
    obtain ⟨t', hrest', ht⟩ := ih hu hrest
    exact ⟨t', (foldlM_cons_of_ok hstep').trans hrest', ht⟩

end State.Alike
end Lexer
end Scriptlet
