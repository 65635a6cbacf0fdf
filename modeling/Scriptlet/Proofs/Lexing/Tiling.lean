import Mathlib.Data.List.TakeWhile
import Scriptlet.Proofs.Lexing.Pointing
import Scriptlet.Proofs.Lexing.Writing

/-!
# Tiling: a source is its tokens and what stands between them

The scanner goes through a source from one end to the other. Wherever it is between two tokens, it
next reads a blank, a comment or the text of a token, and then is between two tokens again. So the
tokens lie one behind the other, the bytes outside them are blanks and comments, and each token is
what its own text alone is read as.
-/

namespace Scriptlet

open Glyph Lexer

/-! ## What stands between two offsets -/

/-- The bytes from one offset up to another. -/
def Bytes.slice (s : Bytes) (i j : Nat) : Bytes := (s.take j).drop i

/-- From the one offset to the other there is a blank, or a comment: a `#` and what follows, up to
the end of its line or of the text. -/
inductive Bytes.Skips (s : Bytes) (i j : Nat) : Prop
  | blank {c : Char} (hc : isBlank c = true) (h : s.slice i j = encodeChar c)
  | comment {text : Bytes} (h : s.slice i j = 35 :: text) (htext : ∀ b ∈ text, b ≠ 10)
    (hend : j = s.length ∨ s[j]? = some 10)

/-- From the offset on, the source is blanks, comments and the texts of the tokens. -/
inductive Tiles (src : Bytes) : Nat → List Token → Prop
  | done : Tiles src src.length []
  | skip {i j : Nat} {ts : List Token} (hij : i < j) (hj : j ≤ src.length) (h : src.Skips i j)
    (rest : Tiles src j ts) : Tiles src i ts
  | token {i j : Nat} {k : Kind} {literal : Bytes} {ts : List Token} (hij : i < j)
    (hj : j ≤ src.length) (h : k.WrittenAs literal (src.slice i j)) (rest : Tiles src j ts) :
    Tiles src i (⟨k, literal, .between i j⟩ :: ts)

/-! ## What the scanner reads next -/

namespace Lexer

variable {s s' u : State} {g : Glyph} {gs front back : List Glyph} {ts rev : List Token}
  {i a pos : Nat} {found : Bytes}

/-- What is skipped, and what follows. -/
inductive Skipped : List Glyph → List Glyph → Prop
  | blank {g : Glyph} {back : List Glyph} (hg : isBlank g.char = true)
    (hbytes : g.bytes = encodeChar g.char) : Skipped [g] back
  | comment {g : Glyph} {front back : List Glyph} (hg : g.bytes = [35])
    (hfront : ∀ b ∈ text front, b ≠ 10) (hback : back = [] ∨ ∃ rest, back = ⟨'\n', [10]⟩ :: rest) :
    Skipped (g :: front) back

/-- The glyphs, read between two tokens, begin with a blank, a comment or a token, and with what is
behind it the tokens are found. -/
inductive Item (i : Nat) (rev : List Token) (gs : List Glyph) (ts : List Token) : Prop
  | skipped (front : List Glyph) {back : List Glyph} (hgs : gs = front ++ back) (hne : front ≠ [])
    (h : Skipped front back)
    (hrest : Token.lexFrom ⟨.gap, i + (text front).length, rev⟩ back = .ok ts)
  | token (front : List Glyph) {back : List Glyph} {k : Kind} {literal : Bytes}
    (hgs : gs = front ++ back) (hne : front ≠ []) (h : k.WrittenAs literal (text front))
    (hrest : Token.lexFrom ⟨.gap, i + (text front).length,
      ⟨k, literal, .between i (i + (text front).length)⟩ :: rev⟩ back = .ok ts)

/-- A lexeme that nothing extends is ended. -/
theorem exists_closed (h : Token.lexFrom u gs = .ok ts)
    (hgs : ∀ g ∈ gs.head?, u.lexeme.holds g.char = false) :
    ∃ w, close u = .ok w ∧ Token.lexFrom w gs = .ok ts := by
  cases gs with
  | nil =>
    obtain ⟨v, w, hv, hw, rfl⟩ := Token.exists_of_lexFrom h
    cases hv
    refine ⟨w, hw, Token.lexFrom_of_close rfl ?_⟩
    obtain ⟨lexeme, pos, rev⟩ := w
    cases (close_cases hw).1
    rfl
  | cons g gs =>
    have hg : u.lexeme.holds g.char = false := hgs g rfl
    obtain ⟨s', hstep, hrest⟩ := Token.exists_of_lexFrom_cons h
    rw [step_eq_restart hg] at hstep
    obtain ⟨w, hw, -⟩ := exists_of_restart hstep
    refine ⟨w, hw, ?_⟩
    unfold Token.lexFrom at h ⊢
    rw [← foldlM_of_closed hw hg]
    exact h

/-- The glyphs up to the first whose character does not have the property. -/
theorem exists_run (p : Char → Bool) (gs : List Glyph) :
    ∃ front back, gs = front ++ back ∧ (∀ g ∈ front, p g.char = true) ∧
      ∀ g ∈ back.head?, p g.char = false := by
  refine ⟨gs.takeWhile fun g => p g.char, gs.dropWhile fun g => p g.char,
    List.takeWhile_append_dropWhile.symm, fun g hg => ?_, fun g hg => ?_⟩
  · exact List.mem_takeWhile_imp (p := fun g : Glyph => p g.char) hg
  · have hhead := List.head?_dropWhile_not (fun g => p g.char) gs
    rw [Option.mem_def.1 hg] at hhead
    exact hhead

theorem lexFrom_cons_of_ok (h : step s g = .ok s') :
    Token.lexFrom s (g :: gs) = Token.lexFrom s' gs := by
  unfold Token.lexFrom
  rw [foldlM_cons_of_ok h]

/-- The byte of a digit is that digit. -/
theorem digit_of_mem_bytes {src : Bytes} (hg : g ∈ glyphs src) (hdigit : isAsciiDigit g.char = true)
    {b : UInt8} (hb : b ∈ g.bytes) : 48 ≤ b ∧ b ≤ 57 := by
  obtain ⟨d, hd, hchar⟩ := exists_digit hdigit
  have hne : g.char ≠ replacement := by
    rw [hchar]
    exact forall_digit (p := fun c => c ≠ replacement) (by decide) hd
  rw [eq_ofChar_of_mem_glyphs hg hne, hchar, ofChar, encodeChar_of_lt (lt_of_digit hd)] at hb
  cases List.mem_singleton.1 hb
  exact hd

/-- A string that is read has an end; behind a backslash, the rest of the escape comes first. -/
theorem exists_end_of_string :
    (∀ pos found, Token.lexFrom ⟨.text a found, pos, rev⟩ gs = .ok ts →
      ∃ inner q back literal, gs = inner ++ q :: back ∧ q.char = '"' ∧ Quotes inner literal) ∧
    ∀ pos found, Token.lexFrom ⟨.escape a found, pos, rev⟩ gs = .ok ts →
      ∃ g c inner q back literal, gs = g :: (inner ++ q :: back) ∧ Escape g.char c ∧
        q.char = '"' ∧ Quotes inner literal := by
  induction gs with
  | nil =>
    constructor
    · intro pos found h
      obtain ⟨u, w, hu, hclose, -⟩ := Token.exists_of_lexFrom h
      cases hu
      cases hclose
    · intro pos found h
      obtain ⟨u, w, hu, hclose, -⟩ := Token.exists_of_lexFrom h
      cases hu
      cases hclose
  | cons g gs ih =>
    obtain ⟨htext, hescape⟩ := ih
    constructor
    · intro pos found h
      obtain ⟨s', hstep, hrest⟩ := Token.exists_of_lexFrom_cons h
      by_cases hquote : g.char = '"'
      · exact ⟨[], g, gs, [], rfl, hquote, .nil⟩
      by_cases hslash : g.char = '\\'
      · rw [step_backslash hslash] at hstep
        cases hstep
        obtain ⟨e, c, inner, q, back, literal, rfl, hc, hq, hinner⟩ := hescape _ _ hrest
        exact ⟨g :: e :: inner, q, back, _, rfl, hq, .escaped hslash hc hinner⟩
      · rw [step_plain hquote hslash] at hstep
        cases hstep
        obtain ⟨inner, q, back, literal, rfl, hq, hinner⟩ := htext _ _ hrest
        exact ⟨g :: inner, q, back, _, rfl, hq, .plain hquote hslash hinner⟩
    · intro pos found h
      obtain ⟨s', hstep, hrest⟩ := Token.exists_of_lexFrom_cons h
      simp only [step] at hstep
      split at hstep
      · rename_i c hc
        cases hstep
        obtain ⟨inner, q, back, literal, rfl, hq, hinner⟩ := htext _ _ hrest
        exact ⟨g, c, inner, q, back, literal, rfl, escape?_eq_some_iff.1 hc, hq, hinner⟩
      · cases hstep

theorem ne_replacement_of_pair? {c d : Char} {k : Kind} (h : pair? c d = some k) :
    d ≠ replacement := by
  unfold pair? at h
  split at h <;> first | decide | cases h

/-- A sign of one character. -/
theorem item_of_single {k : Kind} (hbytes : g.bytes = encodeChar g.char)
    (hk : sign? g.char = some k)
    (h : Token.lexFrom ⟨.gap, i + g.width, ⟨k, [], .between i (i + g.width)⟩ :: rev⟩ gs = .ok ts) :
    Item i rev (g :: gs) ts := by
  have htext : text [g] = encodeChar g.char := (List.append_nil g.bytes).trans hbytes
  have hwidth : g.width = (text [g]).length := congrArg List.length (List.append_nil g.bytes).symm
  have hwritten : k.WrittenAs [] (text [g]) := by
    rw [htext]
    exact writtenAs_of_sign? hk
  rw [hwidth] at h
  exact .token [g] rfl (List.cons_ne_nil _ _) hwritten h

section

variable {src : Bytes} (hsrc : glyphs src = g :: gs)
include hsrc

theorem eq_ofChar_head (hg : g.char ≠ replacement) : g = ofChar g.char :=
  eq_ofChar_of_mem_glyphs (by rw [hsrc]; exact List.mem_cons_self) hg

theorem text_ne_nil : text (g :: front) ≠ [] := by
  have hw := width_pos_of_mem_glyphs src g (by rw [hsrc]; exact List.mem_cons_self)
  intro hnil
  have hbytes : g.bytes = [] := (List.append_eq_nil_iff.1 hnil).1
  rw [width, hbytes] at hw
  cases hw

/-- A comment ends where its line does. -/
theorem item_of_comment (hg : g.char = '#')
    (h : Token.lexFrom ⟨.gap, i, rev⟩ (g :: gs) = .ok ts) : Item i rev (g :: gs) ts := by
  have hmark : g = ⟨'#', [35]⟩ := by
    rw [eq_ofChar_head hsrc (by rw [hg]; decide), hg]
    rfl
  obtain ⟨front, back, rfl, hbefore, hbehind⟩ := exists_run (· != '\n') gs
  have hmem : ∀ g' ∈ front ++ back, g' ∈ glyphs src := fun g' hg' => by
    rw [hsrc]
    exact List.mem_cons_of_mem g hg'
  have hchar : ∀ g' ∈ front, g'.char ≠ '\n' := fun g' hg' => bne_iff_ne.1 (hbefore g' hg')
  have hfront : ∀ b ∈ text front, b ≠ 10 := by
    rintro b hb rfl
    obtain ⟨g', hg', hb⟩ := List.mem_flatMap.1 hb
    have hline := eq_of_mem_bytes (hmem g' (List.mem_append_left back hg')) hb (by decide)
    exact hchar g' hg' (congrArg Glyph.char hline)
  have hback : back = [] ∨ ∃ rest, back = ⟨'\n', [10]⟩ :: rest := by
    cases back with
    | nil => exact .inl rfl
    | cons nl rest =>
      have hnl : nl.char = '\n' := by simpa using hbehind nl rfl
      have hbytes : nl = ofChar nl.char := by
        refine eq_ofChar_of_mem_glyphs (hmem nl ?_) (by rw [hnl]; decide)
        exact List.mem_append_right front List.mem_cons_self
      rw [hnl] at hbytes
      exact .inr ⟨rest, by rw [hbytes]; rfl⟩
  -- The comment is read up to its end, and to be in it or behind it is the same there.
  have hread : ∃ p, front.foldlM step ⟨.comment, i + 1, rev⟩ = .ok ⟨.comment, p, rev⟩ :=
    read_comment hchar (i + 1)
  obtain ⟨p, hp⟩ := hread
  have hpos : p = i + (text (g :: front)).length := by
    have hlength : (text (g :: front)).length = 1 + (text front).length := by
      rw [hmark]
      exact Nat.add_comm _ _
    rw [hlength, ← Nat.add_assoc]
    exact pos_foldlM hp
  have hopen : step ⟨.gap, i, rev⟩ g = .ok ⟨.comment, i + 1, rev⟩ := by
    rw [hmark]
    rfl
  refine .skipped (g :: front) rfl (List.cons_ne_nil _ _)
    (.comment (by rw [hmark]) hfront hback) ?_
  rw [lexFrom_cons_of_ok hopen, Token.lexFrom_append hp] at h
  rw [← hpos]
  rcases hback with hback | ⟨rest, hback⟩
  · rw [hback] at h ⊢
    exact h
  · rw [hback] at h ⊢
    exact h

theorem item_of_blank (hg : isBlank g.char = true)
    (h : Token.lexFrom ⟨.gap, i, rev⟩ (g :: gs) = .ok ts) : Item i rev (g :: gs) ts := by
  have hne : g.char ≠ replacement :=
    forall_blank (P := fun c => c ≠ replacement) (by decide +kernel) hg
  have hbytes : g.bytes = encodeChar g.char := congrArg Glyph.bytes (eq_ofChar_head hsrc hne)
  have hstep : step ⟨.gap, i, rev⟩ g = .ok ⟨.gap, i + g.width, rev⟩ := start_blank hg
  have hwidth : (text [g]).length = g.width := congrArg List.length (List.append_nil g.bytes)
  refine .skipped [g] rfl (List.cons_ne_nil _ _) (.blank hg hbytes) ?_
  rw [hwidth, ← lexFrom_cons_of_ok hstep]
  exact h

/-- Digits are read up to the first character that is none. -/
theorem item_of_digit (hg : isAsciiDigit g.char = true)
    (h : Token.lexFrom ⟨.gap, i, rev⟩ (g :: gs) = .ok ts) : Item i rev (g :: gs) ts := by
  obtain ⟨front, back, rfl, hbefore, hbehind⟩ := exists_run isAsciiDigit gs
  have hglyphs : glyphs (text (g :: front)) = g :: front := (glyphs_text_of_append hsrc).1
  have hdigit : ∀ g' ∈ g :: front, isAsciiDigit g'.char = true := by
    intro g' hg'
    rcases List.mem_cons.1 hg' with rfl | hg'
    · exact hg
    · exact hbefore g' hg'
  have hdigits : ∀ b ∈ text (g :: front), 48 ≤ b ∧ b ≤ 57 := by
    intro b hb
    obtain ⟨g', hg', hb⟩ := List.mem_flatMap.1 hb
    have hmem : g' ∈ glyphs (text (g :: front)) := by rw [hglyphs]; exact hg'
    exact digit_of_mem_bytes hmem (hdigit g' hg') hb
  have hne : text (g :: front) ≠ [] := text_ne_nil hsrc
  have hread := read_number hne hdigits i rev
  rw [hglyphs] at hread
  rw [← List.cons_append, Token.lexFrom_append hread] at h
  obtain ⟨w, hclose, hrest⟩ := exists_closed h hbehind
  unfold close at hclose
  simp only [List.reverse_reverse] at hclose
  split at hclose
  · rename_i n hn
    cases hclose
    exact .token (g :: front) rfl (List.cons_ne_nil _ _)
      (.int (Grammar.numeral_of_readInt64 hne hdigits hn)) hrest
  · cases hclose

/-- A word is read up to the first character that does not continue it. -/
theorem item_of_word (hg : startsWord g.char = true)
    (h : Token.lexFrom ⟨.gap, i, rev⟩ (g :: gs) = .ok ts) : Item i rev (g :: gs) ts := by
  obtain ⟨front, back, rfl, hbefore, hbehind⟩ := exists_run continuesWord gs
  have hglyphs : glyphs (text (g :: front)) = g :: front := (glyphs_text_of_append hsrc).1
  have hword : (text (g :: front)).Word := ⟨g, front, hglyphs, hg, hbefore⟩
  have hread := read_word hword i rev
  rw [hglyphs] at hread
  rw [← List.cons_append, Token.lexFrom_append hread] at h
  obtain ⟨w, hclose, hrest⟩ := exists_closed h hbehind
  rw [close_word] at hclose
  cases hclose
  refine .token (g :: front) rfl (List.cons_ne_nil _ _) ?_ hrest
  rcases ofWord_cases (text (g :: front)) with hof | ⟨hof, hname⟩
  · rw [hof, if_pos rfl]
    exact .ident hword hof
  · have hne : Kind.ofWord (text (g :: front)) ≠ .ident := by
      intro hident
      rw [hident] at hof
      revert hof
      decide
    rw [if_neg hne]
    have hkeyword := Kind.WrittenAs.keyword hof
    rw [hname] at hkeyword
    exact hkeyword

/-- A sign that may begin a longer one is read with the character behind it, if they form one. -/
theorem item_of_pair (hhash : (g.char == '#') = false) (hblank : isBlank g.char = false)
    (hg : startsPair g.char = true) (h : Token.lexFrom ⟨.gap, i, rev⟩ (g :: gs) = .ok ts) :
    Item i rev (g :: gs) ts := by
  have hbytes : g.bytes = encodeChar g.char := by
    refine congrArg Glyph.bytes (eq_ofChar_head hsrc ?_)
    intro hchar
    rw [hchar] at hg
    revert hg
    decide
  have hopen : step ⟨.gap, i, rev⟩ g = .ok ⟨.sign i g.char, i + g.width, rev⟩ := by
    show start _ g = _
    unfold start
    simp only [hhash, hblank, hg, Bool.false_eq_true, if_false, if_true]
  rw [lexFrom_cons_of_ok hopen] at h
  by_cases hpair : ∃ d rest k, gs = d :: rest ∧ pair? g.char d.char = some k
  · obtain ⟨d, rest, k, rfl, hk⟩ := hpair
    have hbytes' : d.bytes = encodeChar d.char := by
      refine congrArg Glyph.bytes (eq_ofChar_of_mem_glyphs (s := src) ?_ ?_)
      · rw [hsrc]
        exact List.mem_cons_of_mem g List.mem_cons_self
      · exact ne_replacement_of_pair? hk
    have hstep : step ⟨.sign i g.char, i + g.width, rev⟩ d = .ok ⟨.gap, i + g.width + d.width,
        ⟨k, [], .between i (i + g.width + d.width)⟩ :: rev⟩ := by
      simp only [step, hk]
      rfl
    have hlength : i + g.width + d.width = i + (text [g, d]).length := by
      show i + g.bytes.length + d.bytes.length = i + (g.bytes ++ (d.bytes ++ [])).length
      rw [List.append_nil, List.length_append, Nat.add_assoc]
    have hwritten : k.WrittenAs [] (text [g, d]) := by
      show k.WrittenAs [] (g.bytes ++ (d.bytes ++ []))
      rw [List.append_nil, hbytes, hbytes']
      exact writtenAs_of_pair? hk
    rw [lexFrom_cons_of_ok hstep, hlength] at h
    exact .token [g, d] rfl (List.cons_ne_nil _ _) hwritten h
  · have hheld : ∀ d ∈ gs.head?, (Lexeme.sign i g.char).holds d.char = false := by
      intro d hd
      cases gs with
      | nil => cases hd
      | cons d' rest =>
        cases hd
        cases hk : pair? g.char d.char with
        | none => rw [Lexeme.holds, hk]; rfl
        | some k => exact absurd ⟨d, rest, k, rfl, hk⟩ hpair
    obtain ⟨w, hclose, hrest⟩ := exists_closed h hheld
    simp only [close] at hclose
    cases hk : sign? g.char with
    | none => rw [hk] at hclose; cases hclose
    | some k =>
      rw [hk] at hclose
      cases hclose
      exact item_of_single hbytes hk hrest

/-- A string is read up to the quote that ends it. -/
theorem item_of_quote (hg : g.char = '"')
    (h : Token.lexFrom ⟨.gap, i, rev⟩ (g :: gs) = .ok ts) : Item i rev (g :: gs) ts := by
  have hopen : step ⟨.gap, i, rev⟩ g = .ok ⟨.text i [], i + g.width, rev⟩ := start_quote hg
  have hinside := h
  rw [lexFrom_cons_of_ok hopen] at hinside
  obtain ⟨inner, q, back, literal, rfl, hq, hinner⟩ := exists_end_of_string.1 _ _ hinside
  have hsplit : g :: (inner ++ q :: back) = (g :: (inner ++ [q])) ++ back := by
    rw [List.cons_append, List.append_assoc]
    rfl
  have hglyphs : glyphs (text (g :: (inner ++ [q]))) = g :: (inner ++ [q]) :=
    (glyphs_text_of_append (hsrc.trans hsplit)).1
  have hread := read_string hglyphs hg hinner hq i rev
  rw [hglyphs] at hread
  rw [hsplit, Token.lexFrom_append hread] at h
  exact .token _ hsplit (List.cons_ne_nil _ _) (.str hglyphs hg hinner hq) h

/-- Between two tokens, whatever is read begins with a blank, a comment or a token. -/
theorem exists_item (h : Token.lexFrom ⟨.gap, i, rev⟩ (g :: gs) = .ok ts) :
    Item i rev (g :: gs) ts := by
  cases hhash : g.char == '#' with
  | true => exact item_of_comment hsrc (beq_iff_eq.1 hhash) h
  | false =>
  cases hblank : isBlank g.char with
  | true => exact item_of_blank hsrc hblank h
  | false =>
  cases hpair : startsPair g.char with
  | true => exact item_of_pair hsrc hhash hblank hpair h
  | false =>
  obtain ⟨s', hstep, hrest⟩ := Token.exists_of_lexFrom_cons h
  have hstart : start ⟨.gap, i, rev⟩ g = .ok s' := hstep
  unfold start at hstart
  simp only [hhash, hblank, hpair, Bool.false_eq_true, if_false] at hstart
  cases hsign : sign? g.char with
  | some k =>
    rw [hsign] at hstart
    cases hstart
    have hne : g.char ≠ replacement := by
      intro hchar
      rw [hchar] at hsign
      cases hsign
    exact item_of_single (congrArg Glyph.bytes (eq_ofChar_head hsrc hne)) hsign hrest
  | none =>
  rw [hsign] at hstart
  cases hquote : g.char == '"' with
  | true => exact item_of_quote hsrc (beq_iff_eq.1 hquote) h
  | false =>
  cases hdigit : isAsciiDigit g.char with
  | true => exact item_of_digit hsrc hdigit h
  | false =>
  cases hword : startsWord g.char with
  | true => exact item_of_word hsrc hword h
  | false =>
    simp only [hquote, hdigit, hword, Bool.false_eq_true, if_false] at hstart
    cases hstart

end

end Lexer

/-! ## Going through a source -/

variable {src : Bytes} {i j : Nat} {ts : List Token}

theorem slice_of_drop {front back : Bytes} (h : src.drop i = front ++ back) :
    src.slice i (i + front.length) = front ∧ src.drop (i + front.length) = back := by
  constructor
  · rw [Bytes.slice, List.drop_take, Nat.add_sub_cancel_left, h, List.take_left]
  · rw [← List.drop_drop, h, List.drop_left]

theorem Lexer.Skipped.skips {front back : List Glyph} (h : Skipped front back)
    (hsrc : src.drop i = text front ++ text back) (hi : i ≤ src.length) :
    src.Skips i (i + (text front).length) := by
  obtain ⟨hslice, hdrop⟩ := slice_of_drop hsrc
  cases h with
  | @blank g _ hg hbytes =>
    refine .blank hg (hslice.trans ?_)
    rw [← hbytes]
    exact List.append_nil g.bytes
  | @comment g front _ hg hfront hback =>
    have htext : text (g :: front) = 35 :: text front := by
      show g.bytes ++ text front = _
      rw [hg]
      rfl
    refine .comment (hslice.trans htext) hfront ?_
    rcases hback with rfl | ⟨rest, rfl⟩
    · have hlength := congrArg List.length hsrc
      rw [List.length_drop, List.length_append] at hlength
      have hnil : (text []).length = 0 := rfl
      omega
    · refine .inr ?_
      rw [← Nat.add_zero (i + (text (g :: front)).length), ← List.getElem?_drop, hdrop]
      rfl

/-- What is behind the glyphs that a rest of the source begins with is a rest of it again. -/
theorem drop_of_glyphs {front back : List Glyph} (hi : i ≤ src.length)
    (h : glyphs (src.drop i) = front ++ back) (hne : front ≠ []) :
    src.drop i = text front ++ text back ∧ i < i + (text front).length ∧
      i + (text front).length ≤ src.length ∧
      glyphs (src.drop (i + (text front).length)) = back := by
  have hdrop : src.drop i = text front ++ text back := by
    rw [← text_append, ← h, text_glyphs]
  obtain ⟨g, front, rfl⟩ := List.exists_cons_of_ne_nil hne
  have hpos : 0 < (text (g :: front)).length :=
    List.length_pos_iff.2 (text_ne_nil h)
  have hlength := congrArg List.length hdrop
  rw [List.length_drop, List.length_append] at hlength
  refine ⟨hdrop, by omega, by omega, ?_⟩
  rw [(slice_of_drop hdrop).2]
  exact (glyphs_text_of_append h).2

/-- The tokens read from an offset on tile the source from there. -/
theorem tiles_of_lexFrom {rev : List Token} (hi : i ≤ src.length)
    (h : Token.lexFrom ⟨.gap, i, rev⟩ (glyphs (src.drop i)) = .ok ts) :
    ∃ body, ts = rev.reverse ++ (body ++ [⟨.eof, [], .between src.length src.length⟩]) ∧
      Tiles src i body := by
  -- Each item takes the scanner further, so the induction is on what is left.
  induction hleft : src.length - i using Nat.strong_induction_on generalizing i rev with
  | _ n ih =>
    cases hglyphs : glyphs (src.drop i) with
    | nil =>
      have hnil : src.drop i = [] := by rw [← text_glyphs (src.drop i), hglyphs]; rfl
      have hend : i = src.length := Nat.le_antisymm hi (List.drop_eq_nil_iff.1 hnil)
      subst hend
      rw [hglyphs] at h
      cases h
      exact ⟨[], List.reverse_cons, .done⟩
    | cons g gs =>
      have hitem : Item i rev (g :: gs) ts := by
        rw [hglyphs] at h
        exact exists_item hglyphs h
      cases hitem with
      | skipped front hgs hne hskipped hrest =>
        obtain ⟨hdrop, hlt, hle, hback⟩ := drop_of_glyphs hi (hglyphs.trans hgs) hne
        rw [← hback] at hrest
        obtain ⟨body, hts, htiles⟩ := ih _ (by omega) hle hrest rfl
        exact ⟨body, hts, .skip hlt hle (hskipped.skips hdrop hi) htiles⟩
      | token front hgs hne hwritten hrest =>
        obtain ⟨hdrop, hlt, hle, hback⟩ := drop_of_glyphs hi (hglyphs.trans hgs) hne
        rw [← hback] at hrest
        obtain ⟨body, hts, htiles⟩ := ih _ (by omega) hle hrest rfl
        rw [← (slice_of_drop hdrop).1] at hwritten
        refine ⟨_, ?_, .token hlt hle hwritten htiles⟩
        rw [hts, List.reverse_cons, List.append_assoc]
        rfl

theorem tiles_of_lex (h : Token.lex src = .ok ts) :
    ∃ body, ts = body ++ [⟨.eof, [], .between src.length src.length⟩] ∧ Tiles src 0 body :=
  tiles_of_lexFrom (Nat.zero_le _) h

/-! ## What lies between the tokens -/

/-- The byte at the offset belongs to the span. -/
def Span.Covers (s : Span) (i : Nat) : Prop := s.start ≤ i ∧ (i : Int) < s.stop

theorem Span.covers_between {a b i : Nat} : (Span.between a b).Covers i ↔ a ≤ i ∧ i < b := by
  unfold Covers between
  dsimp only
  omega

/-- The bytes that a span covers. -/
def Span.textOf (s : Span) (src : Bytes) : Bytes := src.slice s.start.toNat s.stop.toNat

namespace Tiles

/-- Each token has bytes of its own behind the offset, and they are a text of it. -/
theorem exists_span (h : Tiles src i ts) : ∀ t ∈ ts, ∃ a b, t.span = .between a b ∧ i ≤ a ∧ a < b ∧
    b ≤ src.length ∧ t.kind.WrittenAs t.literal (src.slice a b) := by
  induction h with
  | done => nofun
  | skip hij hj h rest ih =>
    intro t ht
    obtain ⟨a, b, hspan, ha, hab, hb, hwritten⟩ := ih t ht
    exact ⟨a, b, hspan, by omega, hab, hb, hwritten⟩
  | @token i j k literal ts hij hj hwritten rest ih =>
    intro t ht
    rcases List.mem_cons.1 ht with rfl | ht
    · exact ⟨i, j, rfl, Nat.le_refl i, hij, hj, hwritten⟩
    · obtain ⟨a, b, hspan, ha, hab, hb, hwritten⟩ := ih t ht
      exact ⟨a, b, hspan, by omega, hab, hb, hwritten⟩

/-- One token is over before the next begins. -/
theorem pairwise (h : Tiles src i ts) : ts.Pairwise fun t u => t.span.stop ≤ u.span.start := by
  induction h with
  | done => exact .nil
  | skip hij hj h rest ih => exact ih
  | @token i j k literal ts hij hj hwritten rest ih =>
    refine .cons (fun u hu => ?_) ih
    obtain ⟨a, b, hspan, ha, -⟩ := rest.exists_span u hu
    rw [hspan]
    show (j : Int) ≤ a
    omega

/-- A byte that no token covers is one of a blank or a comment, none of which any token covers. -/
theorem skips (h : Tiles src i ts) {n : Nat} (hi : i ≤ n) (hn : n < src.length)
    (hout : ∀ t ∈ ts, ¬ t.span.Covers n) :
    ∃ a b, i ≤ a ∧ a ≤ n ∧ n < b ∧ b ≤ src.length ∧ src.Skips a b ∧
      ∀ m, a ≤ m → m < b → ∀ t ∈ ts, ¬ t.span.Covers m := by
  induction h with
  | done => omega
  | @skip i j ts hij hj hskips rest ih =>
    by_cases hnj : n < j
    · refine ⟨i, j, Nat.le_refl i, hi, hnj, hj, hskips, fun m hm hmj t ht => ?_⟩
      obtain ⟨a, b, hspan, ha, -⟩ := rest.exists_span t ht
      rw [hspan, Span.covers_between]
      omega
    · obtain ⟨a, b, ha, hrest⟩ := ih (by omega) hout
      exact ⟨a, b, by omega, hrest⟩
  | @token i j k literal ts hij hj hwritten rest ih =>
    have hnj : j ≤ n := by
      have hfirst := hout _ List.mem_cons_self
      rw [Span.covers_between] at hfirst
      omega
    obtain ⟨a, b, ha, han, hnb, hb, hskips, hfree⟩ :=
      ih hnj fun t ht => hout t (List.mem_cons_of_mem _ ht)
    refine ⟨a, b, by omega, han, hnb, hb, hskips, fun m hm hmb t ht => ?_⟩
    rcases List.mem_cons.1 ht with rfl | ht
    · rw [Span.covers_between]
      omega
    · exact hfree m hm hmb t ht

end Tiles

/-! ## Where a source is refused -/

/-- The diagnostic says that the text is no program, and points at some of its first bytes. -/
def Diagnostic.Rejects (d : Diagnostic) (n : Nat) : Prop :=
  d.notice.key = utf8 "E0001" ∧ ∃ a b, d.span = .between a b ∧ a < b ∧ b ≤ n

namespace Lexer

variable {s : State} {g : Glyph} {gs : List Glyph} {d : Diagnostic}

theorem rejects_of_close (hs : s.Sound) (h : close s = .error d) : d.Rejects s.pos := by
  obtain ⟨lexeme, pos, rev⟩ := s
  cases lexeme with
  | gap | comment => cases h
  | sign a c =>
    simp only [close] at h
    split at h
    · cases h
    · cases h
      exact ⟨rfl, a, pos, rfl, hs.from_lt a rfl, Nat.le_refl pos⟩
  | word a found =>
    rw [← List.reverse_reverse found, close_word] at h
    cases h
  | number a found =>
    simp only [close] at h
    split at h
    · cases h
    · cases h
      exact ⟨rfl, a, pos, rfl, hs.from_lt a rfl, Nat.le_refl pos⟩
  | text a found | escape a found =>
    cases h
    exact ⟨rfl, a, pos, rfl, hs.from_lt a rfl, Nat.le_refl pos⟩

theorem rejects_of_start (hw : 0 < g.width) (h : start s g = .error d) :
    d.Rejects (s.pos + g.width) := by
  unfold start at h
  dsimp only at h
  split at h
  · cases h
  split at h
  · cases h
  split at h
  · cases h
  split at h
  · cases h
  split at h
  · cases h
  split at h
  · cases h
  split at h
  · cases h
  · cases h
    exact ⟨rfl, s.pos, s.pos + g.width, rfl, by omega, Nat.le_refl _⟩

theorem rejects_of_step (hs : s.Sound) (hw : 0 < g.width) (h : step s g = .error d) :
    d.Rejects (s.pos + g.width) := by
  cases hholds : s.lexeme.holds g.char with
  | false =>
    rw [step_eq_restart hholds] at h
    unfold restart at h
    cases hclose : close s with
    | error e =>
      rw [hclose] at h
      cases h
      obtain ⟨hkey, a, b, hspan, hab, hb⟩ := rejects_of_close hs hclose
      exact ⟨hkey, a, b, hspan, hab, by omega⟩
    | ok t =>
      rw [hclose] at h
      rw [← (close_cases hclose).2.1]
      exact rejects_of_start hw h
  | true =>
    -- Of the characters that belong to a lexeme, only the one behind a backslash can be refused.
    obtain ⟨lexeme, pos, rev⟩ := s
    cases lexeme with
    | gap => cases hholds
    | comment => cases h
    | sign a c =>
      obtain ⟨k, hk⟩ := Option.isSome_iff_exists.1 hholds
      simp only [step, hk] at h
      cases h
    | word a found =>
      have hword : continuesWord g.char = true := hholds
      simp only [step, hword, if_true] at h
      cases h
    | number a found =>
      have hdigit : isAsciiDigit g.char = true := hholds
      simp only [step, hdigit, if_true] at h
      cases h
    | text a found =>
      simp only [step] at h
      split at h
      · cases h
      · split at h <;> cases h
    | escape a found =>
      simp only [step] at h
      split at h
      · cases h
      · cases h
        exact ⟨rfl, pos - 1, pos + g.width, rfl, by omega, Nat.le_refl _⟩

theorem rejects_of_foldlM (hs : s.Sound) (hgs : ∀ g ∈ gs, 0 < g.width)
    (h : gs.foldlM step s = .error d) : d.Rejects (s.pos + (text gs).length) := by
  induction gs generalizing s with
  | nil => cases h
  | cons g gs ih =>
    have hw := hgs g List.mem_cons_self
    have hlength : (text (g :: gs)).length = g.width + (text gs).length := List.length_append
    cases hstep : step s g with
    | error e =>
      rw [List.foldlM_cons, hstep] at h
      cases h
      obtain ⟨hkey, a, b, hspan, hab, hb⟩ := rejects_of_step hs hw hstep
      exact ⟨hkey, a, b, hspan, hab, by omega⟩
    | ok s' =>
      rw [foldlM_cons_of_ok hstep] at h
      rw [hlength, ← Nat.add_assoc, ← pos_step hstep]
      exact ih (hs.step hw hstep) (fun g' hg' => hgs g' (List.mem_cons_of_mem g hg')) h

end Lexer

/-- A source that has no tokens is refused for some of its bytes. -/
theorem Token.rejects_of_lex {d : Diagnostic} (h : Token.lex src = .error d) :
    d.Rejects src.length := by
  have hwidth := width_pos_of_mem_glyphs src
  unfold Token.lex Token.lexFrom at h
  cases hu : (glyphs src).foldlM step .initial with
  | error e =>
    rw [hu] at h
    cases h
    have hrejects := rejects_of_foldlM .initial hwidth hu
    rw [text_glyphs] at hrejects
    exact Nat.zero_add src.length ▸ hrejects
  | ok u =>
    rw [hu] at h
    have hpos : u.pos = src.length := by
      rw [pos_foldlM hu, flatMap_bytes_glyphs]
      exact Nat.zero_add _
    cases hw : close u with
    | error e =>
      have hrejects := rejects_of_close (State.Sound.initial.foldlM hwidth hu) hw
      change (do let s ← close u; return (⟨.eof, [], .between s.pos s.pos⟩ :: s.rev).reverse) =
        Except.error d at h
      rw [hw] at h
      cases h
      exact hpos ▸ hrejects
    | ok w =>
      change (do let s ← close u; return (⟨.eof, [], .between s.pos s.pos⟩ :: s.rev).reverse) =
        Except.error d at h
      rw [hw] at h
      cases h

/-! ## The tokens of a source -/

/-- The tokens tile the source. -/
structure Tiling (src : Bytes) (ts : List Token) : Prop where
  /-- They lie inside the source and are not empty. -/
  inside : ∀ t ∈ ts, ∃ a b, t.span = .between a b ∧ a < b ∧ b ≤ src.length
  /-- They come in order and do not overlap. -/
  ordered : ts.Pairwise fun t u => t.span.stop ≤ u.span.start
  /-- The bytes outside them belong to blanks and comments, which lie outside them as a whole. -/
  outside : ∀ n < src.length, (∀ t ∈ ts, ¬ t.span.Covers n) →
    ∃ a b, a ≤ n ∧ n < b ∧ b ≤ src.length ∧ src.Skips a b ∧
      ∀ m, a ≤ m → m < b → ∀ t ∈ ts, ¬ t.span.Covers m
  /-- Each is spelled by its bytes. -/
  spelled : ∀ t ∈ ts, t.kind.WrittenAs t.literal (t.span.textOf src)
  /-- The bytes of each, on their own, are read as that token. -/
  alone : ∀ t ∈ ts, let n := (t.span.textOf src).length
    Token.lex (t.span.textOf src) =
      .ok [⟨t.kind, t.literal, .between 0 n⟩, ⟨.eof, [], .between n n⟩]

/-- A source is its tokens, the end behind them, and blanks and comments between them; or it is
refused for some of its bytes. -/
theorem Token.tiling_of_lex (src : Bytes) :
    match Token.lex src with
    | .ok ts => ∃ body, ts = body ++ [⟨.eof, [], .between src.length src.length⟩] ∧ Tiling src body
    | .error d => d.Rejects src.length := by
  cases h : Token.lex src with
  | error d => exact Token.rejects_of_lex h
  | ok ts =>
    obtain ⟨body, rfl, htiles⟩ := tiles_of_lex h
    refine ⟨body, rfl, ?_, htiles.pairwise, ?_, ?_, ?_⟩
    · intro t ht
      obtain ⟨a, b, hspan, -, hab, hb, -⟩ := htiles.exists_span t ht
      exact ⟨a, b, hspan, hab, hb⟩
    · intro n hn hout
      obtain ⟨a, b, -, hrest⟩ := htiles.skips (Nat.zero_le n) hn hout
      exact ⟨a, b, hrest⟩
    · intro t ht
      obtain ⟨a, b, hspan, -, -, -, hwritten⟩ := htiles.exists_span t ht
      rw [hspan]
      exact hwritten
    · intro t ht
      obtain ⟨a, b, hspan, -, -, -, hwritten⟩ := htiles.exists_span t ht
      rw [hspan]
      exact hwritten.lex_eq

end Scriptlet
