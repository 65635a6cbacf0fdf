import Scriptlet.Proofs.Lexing.Alike

/-!
# Layout: blanks and comments between tokens

Layout is what separates tokens and leaves no trace: blanks, and comments with the line end that
closes them. Put anywhere where a token begins or ends, it changes nothing about the tokens but
their places. The glyph after such an offset does not belong to the lexeme before it, so it makes
no difference whether that lexeme is ended by the glyph or by layout.
-/

namespace Scriptlet

/-! ## Blanks -/

/-- The codes of the blank characters. -/
def blankCodes : List Nat :=
  [9, 10, 11, 12, 13, 32, 0x85, 0xA0, 0x1680, 0x2000, 0x2001, 0x2002, 0x2003, 0x2004, 0x2005,
    0x2006, 0x2007, 0x2008, 0x2009, 0x200A, 0x2028, 0x2029, 0x202F, 0x205F, 0x3000]

/-- What holds of every blank code holds of every blank. -/
theorem forall_blank {P : Char → Prop} (h : ∀ n ∈ blankCodes, P (Char.ofNat n)) {c : Char}
    (hc : isBlank c = true) : P c := by
  have hmem : c.toNat ∈ blankCodes := by
    simp only [isBlank, Bool.or_eq_true, Bool.and_eq_true, decide_eq_true_eq, beq_iff_eq] at hc
    simp only [blankCodes, List.mem_cons, List.not_mem_nil, or_false]
    omega
  rw [← Char.ofNat_toNat c]
  exact h c.toNat hmem

theorem glyphs_blank {c : Char} (hc : isBlank c = true) :
    glyphs (encodeChar c) = [⟨c, encodeChar c⟩] :=
  forall_blank (P := fun c => glyphs (encodeChar c) = [⟨c, encodeChar c⟩]) (by decide +kernel) hc

theorem fresh_blank {c : Char} (hc : isBlank c = true) (u : Bytes) :
    Bytes.Fresh (encodeChar c ++ u) := by
  have hhead : ∃ b ∈ (encodeChar c).head?, Glyph.continues b = false :=
    forall_blank (P := fun c => ∃ b ∈ (encodeChar c).head?, Glyph.continues b = false)
      (by decide +kernel) hc
  obtain ⟨b, hb, hfresh⟩ := hhead
  intro b' hb'
  rw [List.head?_append, Option.mem_def.1 hb] at hb'
  cases hb'
  exact hfresh

/-! ## Line ends -/

namespace Glyph

/-- Only the byte of the line end reads as one. -/
theorem eq_ten_of_decode {b : UInt8} {rest : Bytes} (h : (decode b rest).char = '\n') :
    b = 10 :=
  UInt8.toNat_inj.1 (toNat_eq_of_decode h (by decide) (by decide))

end Glyph

/-- A text without line ends has no glyph that is one. -/
theorem ne_newline_of_mem_glyphs {text : Bytes} (h : ∀ b ∈ text, b ≠ 10) :
    ∀ g ∈ glyphs text, g.char ≠ '\n' := by
  induction text using induction_glyphs with
  | nil => intro g hg; cases hg
  | cons b rest ih =>
    intro g hg
    rw [glyphs_cons] at hg
    rcases List.mem_cons.1 hg with rfl | hg
    · exact fun hchar => h b List.mem_cons_self (Glyph.eq_ten_of_decode hchar)
    · exact ih (fun c hc => h c (List.mem_cons_of_mem b (List.mem_of_mem_drop hc))) g hg

/-- A text can be decoded line by line. -/
theorem glyphs_append_newline (text rest : Bytes) :
    glyphs (text ++ 10 :: rest) = glyphs text ++ ⟨'\n', [10]⟩ :: glyphs rest := by
  have hfresh : Bytes.Fresh (10 :: rest) := by
    intro b hb
    cases hb
    rfl
  rw [glyphs_append hfresh, glyphs_cons]
  rfl

/-! ## Layout -/

/-- Blanks, and comments up to and with the end of their line. -/
inductive Layout : Bytes → Prop
  | nil : Layout []
  | blank {c : Char} {rest : Bytes} (hc : isBlank c = true) (hrest : Layout rest) :
    Layout (encodeChar c ++ rest)
  | comment {text rest : Bytes} (htext : ∀ b ∈ text, b ≠ 10) (hrest : Layout rest) :
    Layout (35 :: (text ++ 10 :: rest))

namespace Layout

variable {l text rest : Bytes}

theorem fresh (h : Layout l) : l.Fresh := by
  cases h with
  | nil => intro b hb; cases hb
  | blank hc hrest => exact fresh_blank hc _
  | comment htext hrest => intro b hb; cases hb; rfl

theorem glyphs_append_blank {c : Char} (hc : isBlank c = true) (hrest : Layout rest) :
    glyphs (encodeChar c ++ rest) = ⟨c, encodeChar c⟩ :: glyphs rest := by
  rw [glyphs_append hrest.fresh, glyphs_blank hc]
  rfl

theorem glyphs_comment (text rest : Bytes) :
    glyphs (35 :: (text ++ 10 :: rest)) =
      ⟨'#', [35]⟩ :: (glyphs text ++ ⟨'\n', [10]⟩ :: glyphs rest) := by
  rw [glyphs_cons, ← glyphs_append_newline]
  rfl

end Layout

/-! ## Reading layout -/

namespace Lexer

variable {s t : State} {l : Bytes} {g : Glyph} {rev : List Token}

/-- A character that layout begins with. -/
def Separates (c : Char) : Prop := isBlank c = true ∨ c = '#'

theorem start_blank (hg : isBlank g.char = true) :
    start s g = .ok ⟨.gap, s.pos + g.width, s.rev⟩ := by
  have hhash : (g.char == '#') = false :=
    forall_blank (P := fun c => (c == '#') = false) (by decide +kernel) hg
  unfold start
  rw [hhash, hg]
  rfl

/-- A comment goes on to the end of its line. -/
theorem read_comment {gs : List Glyph} (h : ∀ g ∈ gs, g.char ≠ '\n') (p : Nat) :
    ∃ p', gs.foldlM step ⟨.comment, p, rev⟩ = .ok ⟨.comment, p', rev⟩ := by
  induction gs generalizing p with
  | nil => exact ⟨p, rfl⟩
  | cons g gs ih =>
    have hg : (g.char == '\n') = false := beq_false_of_ne (h g List.mem_cons_self)
    obtain ⟨p', hp'⟩ := ih (fun g' hg' => h g' (List.mem_cons_of_mem g hg')) (p + g.width)
    have hstep : step ⟨.comment, p, rev⟩ g = .ok ⟨.comment, p + g.width, rev⟩ := by
      simp only [step, hg]
      rfl
    exact ⟨p', (foldlM_cons_of_ok hstep).trans hp'⟩

/-- From inside a comment, the rest of the comment and the end of its line are read up to a gap. -/
theorem read_to_line_end {text rest : Bytes} (htext : ∀ b ∈ text, b ≠ 10) (p : Nat) :
    ∃ p', (glyphs text ++ ⟨'\n', [10]⟩ :: glyphs rest).foldlM step ⟨.comment, p, rev⟩ =
      (glyphs rest).foldlM step ⟨.gap, p', rev⟩ := by
  have hcomment : ∃ q, (glyphs text).foldlM step ⟨.comment, p, rev⟩ = .ok ⟨.comment, q, rev⟩ :=
    read_comment (ne_newline_of_mem_glyphs htext) p
  obtain ⟨q, hq⟩ := hcomment
  refine ⟨q + 1, ?_⟩
  rw [foldlM_append_of_ok hq]
  exact foldlM_cons_of_ok rfl

/-- Between tokens, layout is read without a trace. -/
theorem read_layout (h : Layout l) (p : Nat) :
    ∃ p', (glyphs l).foldlM step ⟨.gap, p, rev⟩ = .ok ⟨.gap, p', rev⟩ := by
  induction h generalizing p with
  | nil => exact ⟨p, rfl⟩
  | @blank c rest hc hrest ih =>
    obtain ⟨p', hp'⟩ := ih (p + (encodeChar c).length)
    have hstep : step ⟨.gap, p, rev⟩ ⟨c, encodeChar c⟩ =
        .ok ⟨.gap, p + (encodeChar c).length, rev⟩ := start_blank hc
    rw [Layout.glyphs_append_blank hc hrest, foldlM_cons_of_ok hstep]
    exact ⟨p', hp'⟩
  | @comment text rest htext hrest ih =>
    have hline : ∃ q, (glyphs text ++ ⟨'\n', [10]⟩ :: glyphs rest).foldlM step
        ⟨.comment, p + 1, rev⟩ = (glyphs rest).foldlM step ⟨.gap, q, rev⟩ :=
      read_to_line_end htext (p + 1)
    obtain ⟨q, hq⟩ := hline
    obtain ⟨p', hp'⟩ := ih q
    have hstep : step ⟨.gap, p, rev⟩ ⟨'#', [35]⟩ = .ok ⟨.comment, p + 1, rev⟩ := rfl
    rw [Layout.glyphs_comment, foldlM_cons_of_ok hstep]
    exact ⟨p', hq.trans hp'⟩

/-- Inside a comment, layout is read without a trace, and may end the comment. -/
theorem read_layout_comment (h : Layout l) (p : Nat) :
    ∃ lexeme p', (lexeme = .gap ∨ lexeme = .comment) ∧
      (glyphs l).foldlM step ⟨.comment, p, rev⟩ = .ok ⟨lexeme, p', rev⟩ := by
  induction h generalizing p with
  | nil => exact ⟨.comment, p, .inr rfl, rfl⟩
  | @blank c rest hc hrest ih =>
    rw [Layout.glyphs_append_blank hc hrest]
    by_cases hline : (c == '\n') = true
    · have hrest' : ∃ p', (glyphs rest).foldlM step ⟨.gap, p + (encodeChar c).length, rev⟩ =
          .ok ⟨.gap, p', rev⟩ := read_layout hrest _
      obtain ⟨p', hp'⟩ := hrest'
      have hstep : step ⟨.comment, p, rev⟩ ⟨c, encodeChar c⟩ =
          .ok ⟨.gap, p + (encodeChar c).length, rev⟩ := by
        simp only [step, hline]
        rfl
      exact ⟨.gap, p', .inl rfl, (foldlM_cons_of_ok hstep).trans hp'⟩
    · obtain ⟨lexeme, p', hlexeme, hp'⟩ := ih (p + (encodeChar c).length)
      have hstep : step ⟨.comment, p, rev⟩ ⟨c, encodeChar c⟩ =
          .ok ⟨.comment, p + (encodeChar c).length, rev⟩ := by
        simp only [step, hline]
        rfl
      exact ⟨lexeme, p', hlexeme, (foldlM_cons_of_ok hstep).trans hp'⟩
  | @comment text rest htext hrest ih =>
    have hline : ∃ q, (glyphs text ++ ⟨'\n', [10]⟩ :: glyphs rest).foldlM step
        ⟨.comment, p + 1, rev⟩ = (glyphs rest).foldlM step ⟨.gap, q, rev⟩ :=
      read_to_line_end htext (p + 1)
    obtain ⟨q, hq⟩ := hline
    have hrest' : ∃ p', (glyphs rest).foldlM step ⟨.gap, q, rev⟩ = .ok ⟨.gap, p', rev⟩ :=
      read_layout hrest q
    obtain ⟨p', hp'⟩ := hrest'
    have hstep : step ⟨.comment, p, rev⟩ ⟨'#', [35]⟩ = .ok ⟨.comment, p + 1, rev⟩ := rfl
    rw [Layout.glyphs_comment, foldlM_cons_of_ok hstep]
    exact ⟨.gap, p', .inl rfl, hq.trans hp'⟩

theorem pair?_of_separates {c d : Char} (h : Separates d) : pair? c d = none := by
  have hne : d ≠ '=' ∧ d ≠ '>' ∧ d ≠ '*' := by
    rcases h with h | rfl
    · exact forall_blank (P := fun d => d ≠ '=' ∧ d ≠ '>' ∧ d ≠ '*') (by decide +kernel) h
    · decide
  obtain ⟨heq, hgt, hstar⟩ := hne
  unfold pair?
  split
  · exact absurd rfl heq
  · exact absurd rfl heq
  · exact absurd rfl heq
  · exact absurd rfl heq
  · exact absurd rfl hgt
  · exact absurd rfl hstar
  · rfl

theorem not_word_of_separates {c : Char} (h : Separates c) :
    continuesWord c = false ∧ isAsciiDigit c = false := by
  rcases h with h | rfl
  · exact forall_blank (P := fun c => continuesWord c = false ∧ isAsciiDigit c = false)
      (by decide +kernel) h
  · decide +kernel

/-- Layout belongs to no lexeme that can end, but to a comment. -/
theorem not_holds_of_separates {c : Char} (hc : Separates c) (hs : s.lexeme ≠ .comment)
    (hclose : close s = .ok t) : s.lexeme.holds c = false := by
  obtain ⟨lexeme, pos, rev⟩ := s
  cases lexeme with
  | gap => rfl
  | comment => exact absurd rfl hs
  | sign a d => rw [Lexeme.holds, pair?_of_separates hc]; rfl
  | word a text => exact (not_word_of_separates hc).1
  | number a digits => exact (not_word_of_separates hc).2
  | text | escape => cases hclose

/-- The end of a line ends whatever can end, as the end of the text does. -/
theorem step_newline (hclose : close s = .ok t) :
    step s ⟨'\n', [10]⟩ = .ok ⟨.gap, s.pos + 1, t.rev⟩ := by
  by_cases hs : s.lexeme = .comment
  · obtain ⟨lexeme, pos, rev⟩ := s
    subst hs
    cases hclose
    rfl
  · have hblank : isBlank '\n' = true := rfl
    rw [step_eq_restart (not_holds_of_separates (.inl hblank) hs hclose)]
    unfold restart
    rw [hclose, ← (close_cases hclose).2.1]
    exact start_blank (g := ⟨'\n', [10]⟩) hblank

theorem Layout.head (h : Layout l) (hne : l ≠ []) :
    ∃ g gs, glyphs l = g :: gs ∧ Separates g.char := by
  cases h with
  | nil => exact absurd rfl hne
  | blank hc hrest => exact ⟨_, _, Layout.glyphs_append_blank hc hrest, .inl hc⟩
  | comment htext hrest => exact ⟨_, _, Layout.glyphs_comment _ _, .inr rfl⟩

/-- Layout ends a lexeme as the end of the text does. -/
theorem read_layout_open (h : Layout l) (hne : l ≠ []) (hs : s.lexeme ≠ .comment)
    (hclose : close s = .ok t) :
    ∃ p', (glyphs l).foldlM step s = .ok ⟨.gap, p', t.rev⟩ := by
  obtain ⟨lexeme, pos, rev⟩ := t
  have hgap : lexeme = .gap := (close_cases hclose).1
  subst hgap
  -- The first glyph does not belong to the open lexeme, so it meets the state after its end.
  obtain ⟨g, gs, hglyphs, hg⟩ := Layout.head h hne
  have hsame : (glyphs l).foldlM step s = (glyphs l).foldlM step ⟨.gap, pos, rev⟩ := by
    rw [hglyphs, List.foldlM_cons, List.foldlM_cons,
      step_eq_restart (not_holds_of_separates hg hs hclose)]
    unfold restart
    rw [hclose]
    rfl
  rw [hsame]
  exact read_layout h pos

/-- At the end of a text, layout changes nothing that was found. -/
theorem close_after_layout (h : Layout l) (hclose : close s = .ok t) :
    ∃ u w, (glyphs l).foldlM step s = .ok u ∧ close u = .ok w ∧ w.rev = t.rev := by
  by_cases hne : l = []
  · subst hne
    exact ⟨s, t, rfl, hclose, rfl⟩
  by_cases hs : s.lexeme = .comment
  · obtain ⟨lexeme, pos, rev⟩ := s
    subst hs
    cases hclose
    have hread : ∃ lexeme p', (lexeme = .gap ∨ lexeme = .comment) ∧
        (glyphs l).foldlM step ⟨.comment, pos, rev⟩ = .ok ⟨lexeme, p', rev⟩ :=
      read_layout_comment h pos
    obtain ⟨lexeme, p', hlexeme, hp'⟩ := hread
    rcases hlexeme with rfl | rfl
    · exact ⟨_, _, hp', rfl, rfl⟩
    · exact ⟨_, _, hp', rfl, rfl⟩
  · obtain ⟨p', hp'⟩ := read_layout_open h hne hs hclose
    exact ⟨_, _, hp', rfl, rfl⟩

end Lexer
end Scriptlet
