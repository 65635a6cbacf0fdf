import Scriptlet.Proofs.Grammar.Steps
import Scriptlet.Proofs.Lexing.Offsets

/-!
# Spelling: texts that are read piece by piece

A text spells some tokens if the scanner finds just those in it, wherever it stands between two
tokens. Its last token may still be open at its end, so the characters that end it are named; a
text that begins with one of them can be put behind. In this way the tokens of a printed text are
put together along with the text.
-/

namespace Scriptlet

/-! ## ASCII texts -/

def Bytes.Ascii (text : Bytes) : Prop := ∀ b ∈ text, b < 0x80

instance (text : Bytes) : Decidable text.Ascii := List.decidableBAll (fun b => b < 0x80) text

theorem Bytes.Ascii.append {t u : Bytes} (ht : t.Ascii) (hu : u.Ascii) : (t ++ u).Ascii := by
  intro b hb
  rcases List.mem_append.1 hb with hb | hb
  · exact ht b hb
  · exact hu b hb

theorem glyphs_cons_ascii {b : UInt8} (hb : b < 0x80) (rest : Bytes) :
    glyphs (b :: rest) = ⟨Char.ofNat b.toNat, [b]⟩ :: glyphs rest := by
  rw [glyphs_cons, Glyph.decode_of_lt hb]
  rfl

theorem glyphs_append_ascii {t : Bytes} (ht : t.Ascii) (u : Bytes) :
    glyphs (t ++ u) = glyphs t ++ glyphs u := by
  induction t with
  | nil => rfl
  | cons b t ih =>
    have hb : b < 0x80 := ht b List.mem_cons_self
    have hrest : Bytes.Ascii t := fun c hc => ht c (List.mem_cons_of_mem b hc)
    rw [List.cons_append, glyphs_cons_ascii hb, glyphs_cons_ascii hb, ih hrest, List.cons_append]

namespace Lexer

variable {u w : State} {g : Glyph} {gs : List Glyph}

/-- A glyph that does not belong to the open lexeme meets the state after its end. -/
theorem foldlM_of_closed (hclose : close u = .ok w) (hg : u.lexeme.holds g.char = false) :
    (g :: gs).foldlM step u = (g :: gs).foldlM step w := by
  have hu : step u g = start w g := by
    rw [step_eq_restart hg]
    unfold restart
    rw [hclose]
    rfl
  have hw : step w g = start w g := by
    obtain ⟨lexeme, pos, rev⟩ := w
    cases (close_cases hclose).1
    rfl
  rw [List.foldlM_cons, List.foldlM_cons, hu, hw]

/-- The text begins with a character that ends the token before it. -/
def Ended (ends : Char → Prop) (text : Bytes) : Prop :=
  ∃ b rest, text = b :: rest ∧ b < 0x80 ∧ ends (Char.ofNat b.toNat)

/-- The text is read as tokens with the property, the last of which the characters in `ends`
end. -/
structure Spells (ends : Char → Prop) (text : Bytes) (P : List Token → Prop) : Prop where
  ascii : text.Ascii
  reads : ∀ pos rev, ∃ u w ts, (glyphs text).foldlM step ⟨.gap, pos, rev⟩ = .ok u ∧
    close u = .ok w ∧ w.rev = ts.reverse ++ rev ∧ P ts ∧ ∀ c, ends c → u.lexeme.holds c = false

/-- The text is not read, for a number that does not fit; at the latest the characters in `ends`
show it. -/
def Refuses (ends : Char → Prop) (text : Bytes) : Prop :=
  ∀ pos rev rest, Ended ends rest → ∃ span,
    (glyphs (text ++ rest)).foldlM step ⟨.gap, pos, rev⟩ = .error ⟨.literalTooLarge, span⟩

variable {ends ends' : Char → Prop} {text text' : Bytes} {P Q R : List Token → Prop}

theorem Ended.append (h : Ended ends text) (text' : Bytes) : Ended ends (text ++ text') := by
  obtain ⟨b, rest, rfl, hascii, hb⟩ := h
  exact ⟨b, rest ++ text', rfl, hascii, hb⟩

theorem Spells.exists_gap (h : Spells ends text P) (pos : Nat) (rev : List Token) :
    ∃ pos' ts, P ts ∧ ∀ rest, Ended ends rest →
      (glyphs (text ++ rest)).foldlM step ⟨.gap, pos, rev⟩ =
        (glyphs rest).foldlM step ⟨.gap, pos', ts.reverse ++ rev⟩ := by
  obtain ⟨u, w, ts, hu, hclose, hrev, hts, hends⟩ := h.reads pos rev
  refine ⟨w.pos, ts, hts, ?_⟩
  rintro _ ⟨b, rest, rfl, hascii, hb⟩
  have hw : w = ⟨.gap, w.pos, ts.reverse ++ rev⟩ := by
    rw [← hrev, ← (close_cases hclose).1]
  rw [glyphs_append_ascii h.ascii, foldlM_append_of_ok hu, glyphs_cons_ascii hascii,
    foldlM_of_closed hclose (hends _ hb), ← hw]

theorem Spells.append (h : Spells ends text P) (h' : Spells ends' text' Q)
    (hend : Ended ends text') (hR : ∀ ts us, P ts → Q us → R (ts ++ us)) :
    Spells ends' (text ++ text') R := by
  refine ⟨h.ascii.append h'.ascii, fun pos rev => ?_⟩
  obtain ⟨pos', ts, hts, hgap⟩ := h.exists_gap pos rev
  obtain ⟨u, w, us, hu, hclose, hrev, hus, hends⟩ := h'.reads pos' (ts.reverse ++ rev)
  refine ⟨u, w, ts ++ us, (hgap text' hend).trans hu, hclose, ?_, hR ts us hts hus, hends⟩
  rw [hrev, List.reverse_append, List.append_assoc]

theorem Spells.imp (h : Spells ends text P) (himp : ∀ ts, P ts → Q ts) : Spells ends text Q := by
  refine ⟨h.ascii, fun pos rev => ?_⟩
  obtain ⟨u, w, ts, hu, hclose, hrev, hts, hends⟩ := h.reads pos rev
  exact ⟨u, w, ts, hu, hclose, hrev, himp ts hts, hends⟩

theorem Refuses.behind (h' : Refuses ends' text') (h : Spells ends text P)
    (hend : Ended ends text') : Refuses ends' (text ++ text') := by
  intro pos rev rest hrest
  obtain ⟨pos', ts, -, hgap⟩ := h.exists_gap pos rev
  rw [List.append_assoc, hgap _ (hend.append rest)]
  exact h' pos' _ rest hrest

theorem Refuses.before (h : Refuses ends text) (hend : Ended ends text') :
    Refuses ends' (text ++ text') := by
  intro pos rev rest _
  rw [List.append_assoc]
  exact h pos rev _ (hend.append rest)

/-! ## Whole texts -/

theorem Spells.lex_eq (h : Spells ends text P) :
    ∃ ts stop, P ts ∧ (∀ t ∈ ts, t.kind ≠ .eof) ∧
      Token.lex text = .ok (ts ++ [⟨.eof, [], .between stop stop⟩]) := by
  obtain ⟨u, w, ts, hu, hclose, hrev, hts, -⟩ := h.reads 0 []
  have hsound : u.Sound := State.Sound.initial.foldlM (width_pos_of_mem_glyphs text) hu
  have hlex : Token.lex text = .ok (w.rev.reverse ++ [⟨.eof, [], .between w.pos w.pos⟩]) :=
    Token.lexFrom_of_close hu hclose
  rw [List.append_nil] at hrev
  rw [hrev, List.reverse_reverse] at hlex
  refine ⟨ts, w.pos, hts, fun t ht => ?_, hlex⟩
  have hmem : t ∈ w.rev := by
    rw [hrev, List.mem_reverse]
    exact ht
  exact ((hsound.close hclose).tokens t hmem).1

theorem Refuses.lex_eq (h : Refuses ends text) (hend : Ended ends text') :
    ∃ span, Token.lex (text ++ text') = .error ⟨.literalTooLarge, span⟩ := by
  obtain ⟨span, hspan⟩ := h 0 [] text' hend
  refine ⟨span, ?_⟩
  unfold Token.lex Token.lexFrom State.initial
  rw [hspan]
  rfl

/-! ## Numbers -/

theorem forall_digit {p : Char → Prop} (h : ∀ n ∈ List.range' 48 10, p (Char.ofNat n)) {b : UInt8}
    (hb : 48 ≤ b ∧ b ≤ 57) : p (Char.ofNat b.toNat) := by
  have hlow := UInt8.le_iff_toNat_le.1 hb.1
  have hhigh := UInt8.le_iff_toNat_le.1 hb.2
  simp only [UInt8.reduceToNat] at hlow hhigh
  apply h
  rw [List.mem_range'_1]
  omega

theorem isAsciiDigit_of_digit {b : UInt8} (hb : 48 ≤ b ∧ b ≤ 57) :
    isAsciiDigit (Char.ofNat b.toNat) = true :=
  forall_digit (p := fun c => isAsciiDigit c = true) (by decide) hb

theorem start_digit {b : UInt8} (hb : 48 ≤ b ∧ b ≤ 57) (pos : Nat) (rev : List Token) :
    start ⟨.gap, pos, rev⟩ ⟨Char.ofNat b.toNat, [b]⟩ = .ok ⟨.number pos [b], pos + 1, rev⟩ := by
  obtain ⟨hhash, hblank, hpair, hsign, hquote⟩ :=
    forall_digit (p := fun c => (c == '#') = false ∧ isBlank c = false ∧ startsPair c = false ∧
      sign? c = none ∧ (c == '"') = false) (by decide) hb
  unfold start
  simp only [hhash, hblank, hpair, hsign, hquote, isAsciiDigit_of_digit hb, Bool.false_eq_true,
    if_false, if_true]
  rfl

theorem lt_of_digit {b : UInt8} (h : 48 ≤ b ∧ b ≤ 57) : b < 0x80 := by
  have hhigh := UInt8.le_iff_toNat_le.1 h.2
  rw [UInt8.lt_iff_toNat_lt]
  simp only [UInt8.reduceToNat] at hhigh ⊢
  omega

theorem ascii_of_digits {text : Bytes} (h : ∀ b ∈ text, 48 ≤ b ∧ b ≤ 57) : text.Ascii :=
  fun b hb => lt_of_digit (h b hb)

theorem read_digits {text : Bytes} (h : ∀ b ∈ text, 48 ≤ b ∧ b ≤ 57) (a pos : Nat) (found : Bytes)
    (rev : List Token) :
    (glyphs text).foldlM step ⟨.number a found, pos, rev⟩ =
      .ok ⟨.number a (text.reverse ++ found), pos + text.length, rev⟩ := by
  induction text generalizing pos found with
  | nil => rfl
  | cons b text ih =>
    have hb := h b List.mem_cons_self
    have hrest : ∀ c ∈ text, 48 ≤ c ∧ c ≤ 57 := fun c hc => h c (List.mem_cons_of_mem b hc)
    have hstep : step ⟨.number a found, pos, rev⟩ ⟨Char.ofNat b.toNat, [b]⟩ =
        .ok ⟨.number a (b :: found), pos + 1, rev⟩ := by
      simp only [step, isAsciiDigit_of_digit hb, if_true]
      rfl
    have hlength : pos + 1 + text.length = pos + (text.length + 1) := by omega
    rw [glyphs_cons_ascii (ascii_of_digits h b List.mem_cons_self), foldlM_cons_of_ok hstep,
      ih hrest, List.reverse_cons, List.append_assoc, List.length_cons, hlength]
    rfl

theorem read_number {text : Bytes} (hne : text ≠ []) (h : ∀ b ∈ text, 48 ≤ b ∧ b ≤ 57) (pos : Nat)
    (rev : List Token) :
    (glyphs text).foldlM step ⟨.gap, pos, rev⟩ =
      .ok ⟨.number pos text.reverse, pos + text.length, rev⟩ := by
  obtain ⟨b, rest, rfl⟩ := List.exists_cons_of_ne_nil hne
  have hb := h b List.mem_cons_self
  have hrest : ∀ c ∈ rest, 48 ≤ c ∧ c ≤ 57 := fun c hc => h c (List.mem_cons_of_mem b hc)
  have hstep : step ⟨.gap, pos, rev⟩ ⟨Char.ofNat b.toNat, [b]⟩ =
      .ok ⟨.number pos [b], pos + 1, rev⟩ := start_digit hb pos rev
  have hlength : pos + 1 + rest.length = pos + (rest.length + 1) := by omega
  rw [glyphs_cons_ascii (ascii_of_digits h b List.mem_cons_self), foldlM_cons_of_ok hstep,
    read_digits hrest, List.reverse_cons, List.length_cons, hlength]

/-- The characters that belong to no number and to no word. -/
def Separator (c : Char) : Prop := isAsciiDigit c = false ∧ continuesWord c = false

instance (c : Char) : Decidable (Separator c) := inferInstanceAs (Decidable (_ ∧ _))

theorem spells_numeral {text : Bytes} (h : Grammar.Numeral text) :
    Spells Separator text fun ts => ∃ t : Token, ts = [t] ∧ t.kind = .int ∧ t.literal = text := by
  refine ⟨ascii_of_digits h.digits, fun pos rev => ?_⟩
  refine ⟨_, ⟨.gap, pos + text.length, ⟨.int, text, .between pos (pos + text.length)⟩ :: rev⟩,
    [⟨.int, text, .between pos (pos + text.length)⟩], read_number h.nonempty h.digits pos rev, ?_,
    rfl, ⟨_, rfl, rfl, rfl⟩, fun c hc => hc.1⟩
  simp only [close, List.reverse_reverse, h.readInt64_eq]
  rfl

/-- Digits whose number does not fit are refused as soon as they are over. -/
theorem refuses_digits {text : Bytes} {fault : NumberFault} (hne : text ≠ [])
    (h : ∀ b ∈ text, 48 ≤ b ∧ b ≤ 57) (hread : readInt64 text = .error fault) :
    Refuses Separator text := by
  rintro pos rev _ ⟨b, rest, rfl, hascii, hb⟩
  refine ⟨.between pos (pos + text.length), ?_⟩
  have hstep : step ⟨.number pos text.reverse, pos + text.length, rev⟩ ⟨Char.ofNat b.toNat, [b]⟩ =
      .error ⟨.literalTooLarge, .between pos (pos + text.length)⟩ := by
    have hholds : (Lexeme.number pos text.reverse).holds (Char.ofNat b.toNat) = false := hb.1
    rw [step_eq_restart hholds]
    unfold restart
    simp only [close, List.reverse_reverse, hread]
    rfl
  rw [glyphs_append_ascii (ascii_of_digits h), glyphs_cons_ascii hascii,
    foldlM_append_of_ok (read_number hne h pos rev), List.foldlM_cons, hstep]
  rfl

end Lexer
end Scriptlet
