import Scriptlet.Proofs.Lexing.Glyphs
import Scriptlet.Token.Lexer

/-!
# Offsets: where tokens begin and end

A glyph either belongs to the open lexeme or ends it. What is found while reading reaches from
where a lexeme began to where it ended, so an offset that was passed inside a lexeme, or inside a
glyph, is no token's beginning or end: not of those found so far, nor of any found later.
-/

namespace Scriptlet

/-- The token begins or ends at the offset. -/
def Token.Touches (t : Token) (i : Nat) : Prop := t.span.start = i ∨ t.span.stop = i

instance (t : Token) (i : Nat) : Decidable (t.Touches i) := inferInstanceAs (Decidable (_ ∨ _))

theorem Token.touches_of_span {t : Token} {a b i : Nat} (h : t.span = .between a b) :
    t.Touches i ↔ a = i ∨ b = i := by
  unfold Touches
  rw [h]
  unfold Span.between
  dsimp only
  omega

namespace Lexer

/-- Where the token that is open began. -/
def Lexeme.from? : Lexeme → Option Nat
  | .gap | .comment => none
  | .sign a _ | .word a _ | .number a _ | .text a _ | .escape a _ => some a

/-- Whether the character belongs to the open lexeme. -/
def Lexeme.holds (c : Char) : Lexeme → Bool
  | .gap => false
  | .comment | .text _ _ | .escape _ _ => true
  | .sign _ d => (pair? d c).isSome
  | .word _ _ => continuesWord c
  | .number _ _ => isAsciiDigit c

variable {s s' : State} {g : Glyph}

/-! ## What one glyph can do -/

theorem sign?_ne_eof {c : Char} {k : Kind} (h : sign? c = some k) : k ≠ .eof := by
  unfold sign? at h
  split at h <;> cases h <;> exact Kind.noConfusion

theorem pair?_ne_eof {c d : Char} {k : Kind} (h : pair? c d = some k) : k ≠ .eof := by
  unfold pair? at h
  split at h <;> cases h <;> exact Kind.noConfusion

theorem ofWord_ne_eof (word : Bytes) : Kind.ofWord word ≠ .eof := by
  unfold Kind.ofWord
  cases hfind : Kind.keywords.find? (fun k => k.name = word) with
  | none => exact Kind.noConfusion
  | some k =>
    have hmem := List.mem_of_find?_eq_some hfind
    rintro rfl
    revert hmem
    decide

/-- Ending a lexeme gives at most one token, from where the lexeme began. -/
theorem close_cases (h : close s = .ok s') :
    s'.lexeme = .gap ∧ s'.pos = s.pos ∧ (s'.rev = s.rev ∨
      ∃ k literal a, k ≠ .eof ∧ a ∈ s.lexeme.from? ∧
        s'.rev = ⟨k, literal, .between a s.pos⟩ :: s.rev) := by
  obtain ⟨lexeme, pos, rev⟩ := s
  cases lexeme with
  | gap | comment => cases h; exact ⟨rfl, rfl, .inl rfl⟩
  | sign a c =>
    simp only [close] at h
    cases hk : sign? c with
    | none => rw [hk] at h; cases h
    | some k =>
      rw [hk] at h
      cases h
      exact ⟨rfl, rfl, .inr ⟨k, [], a, sign?_ne_eof hk, rfl, rfl⟩⟩
  | word a text =>
    simp only [close] at h
    split at h
    · cases h
      exact ⟨rfl, rfl, .inr ⟨.ident, _, a, Kind.noConfusion, rfl, rfl⟩⟩
    · cases h
      exact ⟨rfl, rfl, .inr ⟨_, [], a, ofWord_ne_eof _, rfl, rfl⟩⟩
  | number a digits =>
    simp only [close] at h
    split at h
    · cases h
      exact ⟨rfl, rfl, .inr ⟨.int, _, a, Kind.noConfusion, rfl, rfl⟩⟩
    · cases h
  | text a rev | escape a rev => cases h

/-- Starting a lexeme opens it at the offset reached, or gives its token at once. -/
theorem start_cases (h : start s g = .ok s') :
    s'.pos = s.pos + g.width ∧
      (s'.rev = s.rev ∧ (∀ a ∈ s'.lexeme.from?, a = s.pos) ∨
        s'.lexeme = .gap ∧ ∃ k, k ≠ .eof ∧
          s'.rev = ⟨k, [], .between s.pos (s.pos + g.width)⟩ :: s.rev) := by
  unfold start at h
  dsimp only at h
  split at h
  · cases h; exact ⟨rfl, .inl ⟨rfl, nofun⟩⟩
  split at h
  · cases h; exact ⟨rfl, .inl ⟨rfl, nofun⟩⟩
  split at h
  · cases h; exact ⟨rfl, .inl ⟨rfl, fun a ha => by cases ha; rfl⟩⟩
  cases hk : sign? g.char with
  | some k =>
    rw [hk] at h
    cases h
    exact ⟨rfl, .inr ⟨rfl, k, sign?_ne_eof hk, rfl⟩⟩
  | none =>
    rw [hk] at h
    dsimp only at h
    split at h
    · cases h; exact ⟨rfl, .inl ⟨rfl, fun a ha => by cases ha; rfl⟩⟩
    split at h
    · cases h; exact ⟨rfl, .inl ⟨rfl, fun a ha => by cases ha; rfl⟩⟩
    split at h
    · cases h; exact ⟨rfl, .inl ⟨rfl, fun a ha => by cases ha; rfl⟩⟩
    · cases h

/-- A glyph that belongs to the open lexeme leaves it open, or completes it. -/
theorem step_cases_of_holds (hholds : s.lexeme.holds g.char = true) (h : step s g = .ok s') :
    s'.pos = s.pos + g.width ∧
      (s'.rev = s.rev ∧ (∀ a ∈ s'.lexeme.from?, a ∈ s.lexeme.from?) ∨
        s'.lexeme = .gap ∧ ∃ k literal a, k ≠ .eof ∧ a ∈ s.lexeme.from? ∧
          s'.rev = ⟨k, literal, .between a (s.pos + g.width)⟩ :: s.rev) := by
  obtain ⟨lexeme, pos, rev⟩ := s
  cases lexeme with
  | gap => cases hholds
  | comment =>
    cases h
    refine ⟨rfl, .inl ⟨rfl, fun a ha => ?_⟩⟩
    dsimp only at ha
    split at ha <;> cases ha
  | sign a c =>
    obtain ⟨k, hk⟩ := Option.isSome_iff_exists.1 hholds
    simp only [step, hk] at h
    cases h
    exact ⟨rfl, .inr ⟨rfl, k, [], a, pair?_ne_eof hk, rfl, rfl⟩⟩
  | word a text =>
    have hword : continuesWord g.char = true := hholds
    simp only [step, hword, if_true] at h
    cases h
    exact ⟨rfl, .inl ⟨rfl, fun _ ha => ha⟩⟩
  | number a digits =>
    have hdigit : isAsciiDigit g.char = true := hholds
    simp only [step, hdigit, if_true] at h
    cases h
    exact ⟨rfl, .inl ⟨rfl, fun _ ha => ha⟩⟩
  | text a text =>
    simp only [step] at h
    split at h
    · cases h
      exact ⟨rfl, .inr ⟨rfl, .str, _, a, Kind.noConfusion, rfl, rfl⟩⟩
    · split at h
      · cases h
        exact ⟨rfl, .inl ⟨rfl, fun _ ha => ha⟩⟩
      · cases h
        exact ⟨rfl, .inl ⟨rfl, fun _ ha => ha⟩⟩
  | escape a text =>
    simp only [step] at h
    split at h
    · cases h
      exact ⟨rfl, .inl ⟨rfl, fun _ ha => ha⟩⟩
    · cases h

/-- A glyph that does not belong to the open lexeme ends it and starts the next. -/
theorem step_eq_restart (h : s.lexeme.holds g.char = false) : step s g = restart s g := by
  obtain ⟨lexeme, pos, rev⟩ := s
  cases lexeme with
  | gap => rfl
  | comment | text | escape => cases h
  | sign a c =>
    have hnone : pair? c g.char = none := by
      cases hpair : pair? c g.char with
      | none => rfl
      | some k => rw [Lexeme.holds, hpair] at h; cases h
    simp only [step, hnone]
  | word a text =>
    have hword : continuesWord g.char = false := h
    simp only [step, hword, Bool.false_eq_true, if_false]
  | number a digits =>
    have hdigit : isAsciiDigit g.char = false := h
    simp only [step, hdigit, Bool.false_eq_true, if_false]

theorem exists_of_restart (h : restart s g = .ok s') :
    ∃ t, close s = .ok t ∧ start t g = .ok s' := by
  unfold restart at h
  cases hclose : close s with
  | error d => rw [hclose] at h; cases h
  | ok t =>
    rw [hclose] at h
    exact ⟨t, rfl, h⟩

theorem foldlM_cons_of_ok {gs : List Glyph} (h : step s g = .ok s') :
    (g :: gs).foldlM step s = gs.foldlM step s' := by
  rw [List.foldlM_cons, h]
  rfl

theorem exists_of_foldlM_cons {u : State} {gs : List Glyph}
    (h : (g :: gs).foldlM step s = .ok u) : ∃ t, step s g = .ok t ∧ gs.foldlM step t = .ok u := by
  cases hstep : step s g with
  | error d => rw [List.foldlM_cons, hstep] at h; cases h
  | ok t => exact ⟨t, rfl, foldlM_cons_of_ok hstep ▸ h⟩

theorem foldlM_append_of_ok {gs gs' : List Glyph} (h : gs.foldlM step s = .ok s') :
    (gs ++ gs').foldlM step s = gs'.foldlM step s' := by
  rw [List.foldlM_append, h]
  rfl

theorem pos_step (h : step s g = .ok s') : s'.pos = s.pos + g.width := by
  cases hholds : s.lexeme.holds g.char with
  | true => exact (step_cases_of_holds hholds h).1
  | false =>
    rw [step_eq_restart hholds] at h
    obtain ⟨t, hclose, hstart⟩ := exists_of_restart h
    rw [(start_cases hstart).1, (close_cases hclose).2.1]

theorem pos_foldlM {u : State} {gs : List Glyph} (h : gs.foldlM step s = .ok u) :
    u.pos = s.pos + (gs.flatMap Glyph.bytes).length := by
  induction gs generalizing s with
  | nil => cases h; rfl
  | cons g gs ih =>
    obtain ⟨t, hstep, hrest⟩ := exists_of_foldlM_cons h
    rw [ih hrest, pos_step hstep, List.flatMap_cons, List.length_append, Nat.add_assoc]
    rfl

/-! ## What was found so far -/

/-- What the scanner has found lies behind it: tokens that are not empty, before any lexeme that is
open. -/
structure State.Sound (s : State) : Prop where
  from_lt : ∀ a ∈ s.lexeme.from?, a < s.pos
  tokens : ∀ t ∈ s.rev, t.kind ≠ .eof ∧ ∃ a b, t.span = .between a b ∧ a < b ∧ b ≤ s.pos ∧
    (s.lexeme ≠ .gap → b < s.pos)

namespace State.Sound

theorem initial : State.initial.Sound := ⟨nofun, nofun⟩

/-- The scanner moves on and finds at most one token, which ends in a gap. -/
theorem advance (hs : s.Sound) (hpos : s.pos ≤ s'.pos) (hopen : s'.lexeme ≠ .gap → s.pos < s'.pos)
    (hfrom : ∀ a ∈ s'.lexeme.from?, a < s'.pos)
    (hrev : s'.rev = s.rev ∨ s'.lexeme = .gap ∧ ∃ k literal a b, k ≠ .eof ∧ a < b ∧ b ≤ s'.pos ∧
      s'.rev = ⟨k, literal, .between a b⟩ :: s.rev) : s'.Sound := by
  -- What was behind the scanner is still behind it.
  have hold : ∀ t ∈ s.rev, t.kind ≠ .eof ∧ ∃ a b, t.span = .between a b ∧ a < b ∧ b ≤ s'.pos ∧
      (s'.lexeme ≠ .gap → b < s'.pos) := by
    intro t ht
    obtain ⟨hkind, a, b, hspan, hab, hb, -⟩ := hs.tokens t ht
    refine ⟨hkind, a, b, hspan, hab, by omega, fun hne => ?_⟩
    have hlt := hopen hne
    omega
  refine ⟨hfrom, ?_⟩
  rcases hrev with hrev | ⟨hgap, k, literal, a, b, hk, hab, hb, hrev⟩
  · rw [hrev]
    exact hold
  · rw [hrev]
    intro t ht
    rcases List.mem_cons.1 ht with rfl | ht
    · exact ⟨hk, a, b, rfl, hab, hb, (absurd hgap ·)⟩
    · exact hold t ht

theorem close (hs : s.Sound) (h : Lexer.close s = .ok s') : s'.Sound := by
  obtain ⟨hgap, hpos, hrev⟩ := close_cases h
  refine hs.advance (Nat.le_of_eq hpos.symm) (absurd hgap ·)
    (fun a ha => (by rw [hgap] at ha; cases ha)) ?_
  rcases hrev with hrev | ⟨k, literal, a, hk, ha, hrev⟩
  · exact .inl hrev
  · exact .inr ⟨hgap, k, literal, a, s.pos, hk, hs.from_lt a ha, Nat.le_of_eq hpos.symm, hrev⟩

theorem start (hs : s.Sound) (hw : 0 < g.width) (h : Lexer.start s g = .ok s') : s'.Sound := by
  obtain ⟨hpos, ⟨hrev, hfrom⟩ | ⟨hgap, k, hk, hrev⟩⟩ := start_cases h
  · refine hs.advance (by omega) (fun _ => by omega) (fun a ha => ?_) (.inl hrev)
    have hstart := hfrom a ha
    omega
  · exact hs.advance (by omega) (absurd hgap ·) (fun a ha => (by rw [hgap] at ha; cases ha))
      (.inr ⟨hgap, k, [], s.pos, s.pos + g.width, hk, by omega, by omega, hrev⟩)

theorem step (hs : s.Sound) (hw : 0 < g.width) (h : Lexer.step s g = .ok s') : s'.Sound := by
  cases hholds : s.lexeme.holds g.char with
  | false =>
    rw [step_eq_restart hholds] at h
    obtain ⟨t, hclose, hstart⟩ := exists_of_restart h
    exact (hs.close hclose).start hw hstart
  | true =>
    obtain ⟨hpos, ⟨hrev, hfrom⟩ | ⟨hgap, k, literal, a, hk, ha, hrev⟩⟩ :=
      step_cases_of_holds hholds h
    · refine hs.advance (by omega) (fun _ => by omega) (fun a ha => ?_) (.inl hrev)
      have hlt := hs.from_lt a (hfrom a ha)
      omega
    · have hlt := hs.from_lt a ha
      exact hs.advance (by omega) (absurd hgap ·) (fun a ha => (by rw [hgap] at ha; cases ha))
        (.inr ⟨hgap, k, literal, a, s.pos + g.width, hk, by omega, by omega, hrev⟩)

theorem foldlM (hs : s.Sound) {gs : List Glyph} (hgs : ∀ g ∈ gs, 0 < g.width)
    (h : gs.foldlM Lexer.step s = .ok s') : s'.Sound := by
  induction gs generalizing s with
  | nil => cases h; exact hs
  | cons g gs ih =>
    obtain ⟨t, hstep, hrest⟩ := exists_of_foldlM_cons h
    have ht : t.Sound := hs.step (hgs g List.mem_cons_self) hstep
    exact ih ht (fun g' hg' => hgs g' (List.mem_cons_of_mem g hg')) hrest

end State.Sound

/-! ## Offsets that were passed -/

/-- The scanner is beyond the offset, and nothing that it has found or begun touches it. -/
structure State.Past (s : State) (i : Nat) : Prop where
  lt : i < s.pos
  not_from : i ∉ s.lexeme.from?
  tokens : ∀ t ∈ s.rev, ¬ t.Touches i

/-- Nothing touches an offset at which an open lexeme goes on. -/
theorem State.Sound.past_of_holds (hs : s.Sound) (hw : 0 < g.width)
    (hholds : s.lexeme.holds g.char = true) (h : Lexer.step s g = .ok s') : s'.Past s.pos := by
  have hne : s.lexeme ≠ .gap := by
    intro hgap
    rw [hgap] at hholds
    cases hholds
  -- The tokens found before ended where the open lexeme began, or earlier.
  have hold : ∀ t ∈ s.rev, ¬ t.Touches s.pos := by
    intro t ht
    obtain ⟨-, a, b, hspan, hab, -, hb⟩ := hs.tokens t ht
    have hlt := hb hne
    rw [Token.touches_of_span hspan]
    omega
  obtain ⟨hpos, ⟨hrev, hfrom⟩ | ⟨hgap, k, literal, a, hk, ha, hrev⟩⟩ :=
    step_cases_of_holds hholds h
  · refine ⟨by omega, fun hmem => ?_, by rw [hrev]; exact hold⟩
    exact absurd (hs.from_lt _ (hfrom _ hmem)) (Nat.lt_irrefl _)
  · refine ⟨by omega, (by rw [hgap]; nofun), ?_⟩
    rw [hrev]
    intro t ht
    rcases List.mem_cons.1 ht with rfl | ht
    · have hlt := hs.from_lt a ha
      rw [Token.touches_of_span rfl]
      omega
    · exact hold t ht

/-- What a glyph begins, it begins where a lexeme was open or at the glyph; what it ends, it ends
before or behind the glyph. -/
theorem step_offsets (h : step s g = .ok s') :
    (∀ a ∈ s'.lexeme.from?, a ∈ s.lexeme.from? ∨ a = s.pos) ∧
      ∀ t ∈ s'.rev, t ∈ s.rev ∨ ∃ a b, t.span = .between a b ∧
        (a ∈ s.lexeme.from? ∨ a = s.pos) ∧ (b = s.pos ∨ b = s.pos + g.width) := by
  cases hholds : s.lexeme.holds g.char with
  | true =>
    obtain ⟨-, ⟨hrev, hfrom⟩ | ⟨hgap, k, literal, a, hk, ha, hrev⟩⟩ :=
      step_cases_of_holds hholds h
    · exact ⟨fun a ha => .inl (hfrom a ha), fun t ht => .inl (hrev ▸ ht)⟩
    · refine ⟨fun a ha => (by rw [hgap] at ha; cases ha), fun t ht => ?_⟩
      rw [hrev] at ht
      rcases List.mem_cons.1 ht with rfl | ht
      · exact .inr ⟨a, _, rfl, .inl ha, .inr rfl⟩
      · exact .inl ht
  | false =>
    rw [step_eq_restart hholds] at h
    obtain ⟨u, hclose, hstart⟩ := exists_of_restart h
    obtain ⟨-, hpos, hclosed⟩ := close_cases hclose
    -- The token of the lexeme that is ended reaches up to the glyph.
    have hfound : ∀ t ∈ u.rev, t ∈ s.rev ∨ ∃ a b, t.span = .between a b ∧
        (a ∈ s.lexeme.from? ∨ a = s.pos) ∧ (b = s.pos ∨ b = s.pos + g.width) := by
      intro t ht
      rcases hclosed with hrev | ⟨k, literal, a, hk, ha, hrev⟩
      · exact .inl (hrev ▸ ht)
      · rw [hrev] at ht
        rcases List.mem_cons.1 ht with rfl | ht
        · exact .inr ⟨a, _, rfl, .inl ha, .inl rfl⟩
        · exact .inl ht
    obtain ⟨-, ⟨hrev, hfrom⟩ | ⟨hgap, k, hk, hrev⟩⟩ := start_cases hstart
    · exact ⟨fun a ha => .inr (hpos ▸ hfrom a ha), fun t ht => hfound t (hrev ▸ ht)⟩
    · refine ⟨fun a ha => (by rw [hgap] at ha; cases ha), fun t ht => ?_⟩
      rw [hrev] at ht
      rcases List.mem_cons.1 ht with rfl | ht
      · exact .inr ⟨u.pos, _, rfl, .inr hpos, .inr (by rw [hpos])⟩
      · exact hfound t ht

/-- Nothing touches an offset inside a glyph. -/
theorem State.Sound.past_of_inside (hs : s.Sound) {i : Nat} (hi : s.pos < i)
    (hi' : i < s.pos + g.width) (h : Lexer.step s g = .ok s') : s'.Past i := by
  obtain ⟨hfrom, hrev⟩ := step_offsets h
  have hstart (a : Nat) (ha : a ∈ s.lexeme.from? ∨ a = s.pos) : a < i := by
    rcases ha with ha | ha
    · exact Nat.lt_trans (hs.from_lt a ha) hi
    · omega
  refine ⟨by rw [pos_step h]; exact hi', fun hmem => ?_, fun t ht => ?_⟩
  · exact absurd (hstart i (hfrom i hmem)) (Nat.lt_irrefl i)
  · rcases hrev t ht with ht | ⟨a, b, hspan, ha, hb⟩
    · obtain ⟨-, a, b, hspan, hab, hb, -⟩ := hs.tokens t ht
      rw [Token.touches_of_span hspan]
      omega
    · have hlt := hstart a ha
      rw [Token.touches_of_span hspan]
      omega

/-- What is passed stays passed. -/
theorem State.Past.step {i : Nat} (hs : s.Past i) (h : Lexer.step s g = .ok s') : s'.Past i := by
  obtain ⟨hfrom, hrev⟩ := step_offsets h
  have hlt := hs.lt
  have hstart (a : Nat) (ha : a ∈ s.lexeme.from? ∨ a = s.pos) : a ≠ i := by
    rintro rfl
    rcases ha with ha | ha
    · exact hs.not_from ha
    · omega
  refine ⟨by rw [pos_step h]; omega, fun hmem => hstart i (hfrom i hmem) rfl, fun t ht => ?_⟩
  rcases hrev t ht with ht | ⟨a, b, hspan, ha, hb⟩
  · exact hs.tokens t ht
  · have hne := hstart a ha
    rw [Token.touches_of_span hspan]
    omega

end Lexer

/-! ## Whole texts -/

namespace Token

open Lexer

variable {s s' u w : State} {g : Glyph} {gs : List Glyph} {ts : List Token}

theorem lexFrom_append {gs' : List Glyph} (h : gs.foldlM step s = .ok u) :
    lexFrom s (gs ++ gs') = lexFrom u gs' := by
  unfold lexFrom
  rw [foldlM_append_of_ok h]

theorem lexFrom_of_close (h : gs.foldlM step s = .ok u) (hw : close u = .ok w) :
    lexFrom s gs = .ok (w.rev.reverse ++ [⟨.eof, [], .between w.pos w.pos⟩]) := by
  unfold lexFrom
  rw [h]
  change (do let s ← close u; return (⟨.eof, [], .between s.pos s.pos⟩ :: s.rev).reverse) =
    Except.ok (w.rev.reverse ++ [⟨.eof, [], .between w.pos w.pos⟩])
  rw [hw, ← List.reverse_cons]
  rfl

/-- The tokens are those found when the last lexeme is ended, and one for the end. -/
theorem exists_of_lexFrom (h : lexFrom s gs = .ok ts) :
    ∃ u w, gs.foldlM step s = .ok u ∧ close u = .ok w ∧
      ts = w.rev.reverse ++ [⟨.eof, [], .between w.pos w.pos⟩] := by
  unfold lexFrom at h
  cases hu : gs.foldlM step s with
  | error d => rw [hu] at h; cases h
  | ok u =>
    rw [hu] at h
    change (do let s ← close u; return (⟨.eof, [], .between s.pos s.pos⟩ :: s.rev).reverse) =
      Except.ok ts at h
    cases hw : close u with
    | error d => rw [hw] at h; cases h
    | ok w =>
      rw [hw] at h
      cases h
      exact ⟨u, w, rfl, hw, List.reverse_cons⟩

/-- The tokens of a text lie inside it, and the end is where it ends. -/
theorem exists_of_lex {src : Bytes} (h : lex src = .ok ts) :
    ∃ u w, (glyphs src).foldlM step .initial = .ok u ∧ close u = .ok w ∧ w.Sound ∧
      w.pos = src.length ∧ ts = w.rev.reverse ++ [⟨.eof, [], .between w.pos w.pos⟩] := by
  obtain ⟨u, w, hu, hw, hts⟩ := exists_of_lexFrom h
  have hsound : u.Sound := State.Sound.initial.foldlM (width_pos_of_mem_glyphs src) hu
  refine ⟨u, w, hu, hw, hsound.close hw, ?_, hts⟩
  rw [(close_cases hw).2.1, pos_foldlM hu, flatMap_bytes_glyphs]
  exact Nat.zero_add _

theorem exists_of_lexFrom_cons (h : lexFrom s (g :: gs) = .ok ts) :
    ∃ s', step s g = .ok s' ∧ lexFrom s' gs = .ok ts := by
  unfold lexFrom at h ⊢
  cases hs : step s g with
  | error d => rw [List.foldlM_cons, hs] at h; cases h
  | ok s' => exact ⟨s', rfl, foldlM_cons_of_ok hs ▸ h⟩

/-- No token touches an offset that was passed. -/
theorem not_touches_of_past {i : Nat} (hs : s.Past i) (h : lexFrom s gs = .ok ts) :
    ∀ t ∈ ts, ¬ t.Touches i := by
  induction gs generalizing s with
  | cons g gs ih =>
    obtain ⟨s', hstep, hrest⟩ := exists_of_lexFrom_cons h
    exact ih (hs.step hstep) hrest
  | nil =>
    obtain ⟨u, w, hu, hw, rfl⟩ := exists_of_lexFrom h
    cases hu
    obtain ⟨-, hpos, hrev⟩ := close_cases hw
    have hlt := hs.lt
    intro t ht
    -- What is added at the end of the text touches the end, or where the open lexeme began.
    rcases List.mem_append.1 ht with ht | ht
    · rw [List.mem_reverse] at ht
      rcases hrev with hrev | ⟨k, literal, a, hk, ha, hrev⟩
      · exact hs.tokens t (hrev ▸ ht)
      · rw [hrev] at ht
        rcases List.mem_cons.1 ht with rfl | ht
        · rw [touches_of_span rfl]
          rintro (rfl | hb)
          · exact hs.not_from ha
          · omega
        · exact hs.tokens t ht
    · cases List.mem_singleton.1 ht
      rw [touches_of_span rfl]
      omega

/-- No token begins with a byte that does not begin a character. -/
theorem start_malformed (b : UInt8) : ∃ d, start s (.malformed b) = .error d := by
  have hhash : (replacement == '#') = false := by decide
  have hblank : isBlank replacement = false := by decide
  have hpair : startsPair replacement = false := by decide
  have hsign : sign? replacement = none := by decide
  have hquote : (replacement == '"') = false := by decide
  have hdigit : isAsciiDigit replacement = false := by decide
  have hword : startsWord replacement = false := by decide +kernel
  unfold start Glyph.malformed
  simp only [hhash, hblank, hpair, hsign, hquote, hdigit, hword, Bool.false_eq_true, if_false]
  exact ⟨_, rfl⟩

/-- No token begins or ends before a continuation byte. -/
theorem not_touches_of_continues {src : Bytes} (hs : s.Sound)
    (h : lexFrom s (glyphs src) = .ok ts) {j : Nat} {c : UInt8} (hj : src[j]? = some c)
    (hc : Glyph.continues c = true) : ∀ t ∈ ts, ¬ t.Touches (s.pos + j) := by
  induction src using induction_glyphs generalizing s j with
  | nil => cases hj
  | cons b rest ih =>
    rw [glyphs_cons] at h
    obtain ⟨s', hstep, hrest⟩ := exists_of_lexFrom_cons h
    have hw := Glyph.width_decode_pos b rest
    cases j with
    | zero =>
      have hbc : b = c := Option.some.inj hj
      rw [← hbc] at hc
      -- The byte is a glyph of its own, which only a comment or a string can hold.
      have hmalformed := Glyph.decode_of_continues hc rest
      cases hholds : s.lexeme.holds (Glyph.decode b rest).char with
      | true => exact not_touches_of_past (hs.past_of_holds hw hholds hstep) hrest
      | false =>
        rw [step_eq_restart hholds, hmalformed] at hstep
        obtain ⟨u, -, hstart⟩ := exists_of_restart hstep
        obtain ⟨d, hd⟩ := start_malformed (s := u) b
        rw [hd] at hstart
        cases hstart
    | succ j =>
      -- The byte belongs to the first glyph, or to what the rest decodes to.
      by_cases hinside : j + 1 < (Glyph.decode b rest).width
      · exact not_touches_of_past (hs.past_of_inside (by omega) (by omega) hstep) hrest
      · have hdrop : (rest.drop ((Glyph.decode b rest).width - 1))[j + 1 -
            (Glyph.decode b rest).width]? = some c := by
          rw [List.getElem?_drop, ← hj, List.getElem?_cons_succ]
          congr 1
          omega
        have htouches := ih (hs.step hw hstep) hrest hdrop
        rw [pos_step hstep] at htouches
        have hoffset : s.pos + (Glyph.decode b rest).width +
            (j + 1 - (Glyph.decode b rest).width) = s.pos + (j + 1) := by omega
        rw [hoffset] at htouches
        exact htouches

end Token
end Scriptlet
