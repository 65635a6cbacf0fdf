import Scriptlet.Proofs.Lexing.Layout

/-!
# Spacing: layout put between tokens

Layout may be put in at every offset where a token begins or ends. The tokens of the spaced text
are those of the text at other offsets.
-/

namespace Scriptlet

open Glyph

/-! ## Decoding a spaced text -/

/-- The text with `pad i` put in at every offset `i`, where the text itself begins at the offset
given. -/
def Bytes.spaced (pad : Nat → Bytes) : Nat → Bytes → Bytes
  | i, [] => pad i
  | i, b :: rest => pad i ++ b :: spaced pad (i + 1) rest

/-- The glyphs with those of `pad i` put in at every offset `i` between them. -/
def Glyph.spaced (pad : Nat → Bytes) : Nat → List Glyph → List Glyph
  | i, [] => glyphs (pad i)
  | i, g :: gs => glyphs (pad i) ++ g :: spaced pad (i + g.width) gs

/-- Nothing is put in before a continuation byte, and nothing that begins with one is put in. -/
structure Bytes.Apart (pad : Nat → Bytes) (i : Nat) (src : Bytes) : Prop where
  fresh : ∀ j, (pad j).Fresh
  empty : ∀ j c, src[j]? = some c → continues c = true → pad (i + j) = []

variable {pad : Nat → Bytes} {i : Nat} {b : UInt8} {src rest : Bytes}

theorem Bytes.Apart.drop (h : Apart pad i src) (k : Nat) : Apart pad (i + k) (src.drop k) := by
  refine ⟨h.fresh, fun j c hj hc => ?_⟩
  rw [List.getElem?_drop] at hj
  rw [Nat.add_assoc]
  exact h.empty (k + j) c hj hc

theorem Bytes.Apart.tail (h : Apart pad i (b :: rest)) : Apart pad (i + 1) rest := h.drop 1

/-- What is put in does not lengthen a run of continuation bytes. -/
theorem takeWhile_spaced (h : Bytes.Apart pad i src) :
    (Bytes.spaced pad i src).takeWhile continues = src.takeWhile continues := by
  induction src generalizing i with
  | nil =>
    have hnil := takeWhile_append_of_fresh (h.fresh i) []
    rw [List.nil_append] at hnil
    exact hnil
  | cons c rest ih =>
    unfold Bytes.spaced
    cases hc : continues c with
    | true =>
      have hpad : pad i = [] := h.empty 0 c rfl hc
      rw [hpad, List.nil_append, List.takeWhile_cons_of_pos hc, List.takeWhile_cons_of_pos hc,
        ih h.tail]
    | false =>
      have hfresh : Bytes.Fresh (c :: Bytes.spaced pad (i + 1) rest) := by
        intro b hb
        cases hb
        exact hc
      have hpad := takeWhile_append_of_fresh (h.fresh i) []
      rw [takeWhile_append_of_fresh hfresh, List.takeWhile_cons_of_neg (by rw [hc]; nofun)]
      exact hpad

/-- Nothing is put in where bytes continue a glyph. -/
theorem drop_spaced (h : Bytes.Apart pad i src) {k : Nat}
    (hk : k ≤ (src.takeWhile continues).length) :
    (Bytes.spaced pad i src).drop k = Bytes.spaced pad (i + k) (src.drop k) := by
  induction k generalizing i src with
  | zero => rfl
  | succ k ih =>
    cases src with
    | nil => cases hk
    | cons c rest =>
      cases hc : continues c with
      | false =>
        rw [List.takeWhile_cons_of_neg (by rw [hc]; nofun)] at hk
        cases hk
      | true =>
        rw [List.takeWhile_cons_of_pos hc] at hk
        have hpad : pad i = [] := h.empty 0 c rfl hc
        rw [Bytes.spaced, hpad, List.nil_append, List.drop_succ_cons, List.drop_succ_cons,
          ih h.tail (Nat.le_of_succ_le_succ hk), Nat.add_assoc, Nat.add_comm 1 k]

/-- A spaced text decodes to its glyphs with what was put in between them. -/
theorem glyphs_spaced (h : Bytes.Apart pad i src) :
    glyphs (Bytes.spaced pad i src) = Glyph.spaced pad i (glyphs src) := by
  induction src using induction_glyphs generalizing i with
  | nil => rfl
  | cons b rest ih =>
    have hsplit : glyphs (pad i ++ b :: Bytes.spaced pad (i + 1) rest) =
        glyphs (pad i) ++ glyphs (b :: Bytes.spaced pad (i + 1) rest) := by
      cases hb : continues b with
      | true =>
        have hpad : pad i = [] := h.empty 0 b rfl hb
        rw [hpad]
        rfl
      | false =>
        refine glyphs_append (fun c hc => ?_) (pad i)
        cases hc
        exact hb
    have hdecode : decode b (Bytes.spaced pad (i + 1) rest) = decode b rest :=
      decode_congr b (takeWhile_spaced h.tail)
    have hpos := width_decode_pos b rest
    have hle := width_decode_le b rest
    have hoffset : i + 1 + ((decode b rest).width - 1) = i + (decode b rest).width := by omega
    rw [Bytes.spaced, hsplit, glyphs_cons, glyphs_cons, hdecode, drop_spaced h.tail (by omega),
      ih (h.tail.drop _), hoffset]
    rfl

/-! ## Reading a spaced text -/

namespace Lexer

variable {s s' u : State} {g : Glyph} {gs : List Glyph} {ts : List Token} {l : Bytes}

/-- Any two offsets correspond. -/
def anywhere : Nat → Nat → Prop := fun _ _ => True

/-- Layout before a glyph that does not belong to the open lexeme makes no difference. -/
theorem State.Alike.spaced_step (h : s.Alike anywhere [] s') (hl : Layout l)
    (hcut : l ≠ [] → s.lexeme.holds g.char = false) (hstep : Lexer.step s g = .ok u) :
    ∃ u', (glyphs l ++ [g]).foldlM Lexer.step s' = .ok u' ∧ u.Alike anywhere [] u' := by
  have hmove : ∀ {i i' : Nat} (w : Nat), anywhere i i' → anywhere (i + w) (i' + w) :=
    fun _ _ => trivial
  by_cases hne : l = []
  · obtain ⟨u', hu', halike⟩ := h.step hmove hstep
    subst hne
    exact ⟨u', foldlM_cons_of_ok hu', halike⟩
  · have hholds := hcut hne
    have hs' : s'.lexeme ≠ .comment := by
      intro hcomment
      rw [h.lexeme.holds_eq, hcomment] at hholds
      cases hholds
    -- The lexeme is ended by the layout in the one text, by the glyph in the other.
    rw [step_eq_restart hholds] at hstep
    obtain ⟨c, hclose, hstart⟩ := exists_of_restart hstep
    obtain ⟨c', hclose', hc⟩ := h.close hclose
    obtain ⟨p, hread⟩ := read_layout_open hl hne hs' hclose'
    have hgap : c.Alike anywhere [] ⟨.gap, p, c'.rev⟩ := by
      refine ⟨?_, trivial, hc.rev⟩
      rw [(close_cases hclose).1]
      exact .gap
    obtain ⟨u', hu', halike⟩ := hgap.start hmove hstart
    refine ⟨u', ?_, halike⟩
    rw [foldlM_append_of_ok hread]
    exact foldlM_cons_of_ok hu'

end Lexer

namespace Token

open Lexer

variable {s s' : State} {gs : List Glyph} {ts : List Token}

/-- Layout where tokens begin or end makes no difference to the tokens but their places. -/
theorem lexFrom_spaced (hlayout : ∀ i, Layout (pad i)) (hs : s.Sound)
    (halike : s.Alike anywhere [] s') (hgs : ∀ g ∈ gs, 0 < g.width)
    (hpad : ∀ i, pad i ≠ [] → ∃ t ∈ ts, t.Touches i) (h : lexFrom s gs = .ok ts) :
    ∃ ts', lexFrom s' (Glyph.spaced pad s.pos gs) = .ok ts' ∧
      List.Forall₂ (Token.Moved anywhere) ts ts' := by
  induction gs generalizing s s' with
  | nil =>
    obtain ⟨u, w, hu, hw, rfl⟩ := exists_of_lexFrom h
    cases hu
    obtain ⟨w', hw', -, -, found, hrev, hfound⟩ := halike.close hw
    obtain ⟨u', v', hu', hv', hrev'⟩ := close_after_layout (hlayout s.pos) hw'
    refine ⟨_, lexFrom_of_close hu' hv', ?_⟩
    rw [hrev', hrev, List.append_nil]
    exact List.rel_append (List.forall₂_reverse_iff.2 hfound) (.cons (.mk _ _ trivial trivial) .nil)
  | cons g gs ih =>
    obtain ⟨u, hstep, hrest⟩ := exists_of_lexFrom_cons h
    have hw : 0 < g.width := hgs g List.mem_cons_self
    -- No token begins or ends where the open lexeme goes on, so nothing is put in there.
    have hcut : pad s.pos ≠ [] → s.lexeme.holds g.char = false := by
      intro hne
      obtain ⟨t, ht, htouches⟩ := hpad s.pos hne
      by_contra hholds
      rw [Bool.not_eq_false] at hholds
      exact not_touches_of_past (hs.past_of_holds hw hholds hstep) hrest t ht htouches
    obtain ⟨u', hu', halike'⟩ := halike.spaced_step (hlayout s.pos) hcut hstep
    obtain ⟨ts', hts', hmoved⟩ := ih (hs.step hw hstep) halike'
      (fun g' hg' => hgs g' (List.mem_cons_of_mem g hg')) hrest
    refine ⟨ts', ?_, hmoved⟩
    rw [Glyph.spaced, List.append_cons, lexFrom_append hu', ← pos_step hstep]
    exact hts'

/-- A text with layout put in where its tokens begin or end has the same tokens at other places. -/
theorem lex_spaced {src : Bytes} (hlayout : ∀ i, Layout (pad i))
    (hpad : ∀ i, pad i ≠ [] → ∃ t ∈ ts, t.Touches i) (h : lex src = .ok ts) :
    ∃ ts', lex (Bytes.spaced pad 0 src) = .ok ts' ∧ List.Forall₂ (Token.Moved anywhere) ts ts' := by
  have hapart : Bytes.Apart pad 0 src := by
    refine ⟨fun i => (hlayout i).fresh, fun j c hj hc => ?_⟩
    by_contra hne
    obtain ⟨t, ht, htouches⟩ := hpad _ hne
    exact not_touches_of_continues State.Sound.initial h hj hc t ht htouches
  have halike : State.initial.Alike anywhere [] State.initial := ⟨.gap, trivial, [], rfl, .nil⟩
  unfold lex
  rw [glyphs_spaced hapart]
  exact lexFrom_spaced hlayout .initial halike (width_pos_of_mem_glyphs src) hpad h

end Token
end Scriptlet
