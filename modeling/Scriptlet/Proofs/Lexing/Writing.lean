import Scriptlet.Proofs.Lexing.Boundaries
import Scriptlet.Proofs.Lexing.Spelling
import Scriptlet.Proofs.Text.Encoding

/-!
# Writing: the texts of a single token

A token is written by a text of its own: a keyword or a sign by its name, a word or a number by
itself, a string by what stands between two quotes. The scanner, anywhere between two tokens, reads
such a text as that token and nothing else.
-/

namespace Scriptlet

open Glyph Lexer

/-! ## Words -/

/-- A letter or `_`, then letters, digits and `_`. -/
def Bytes.Word (w : Bytes) : Prop :=
  ∃ g gs, glyphs w = g :: gs ∧ startsWord g.char = true ∧ ∀ h ∈ gs, continuesWord h.char = true

instance (w : Bytes) : Decidable w.Word :=
  decidable_of_iff (((glyphs w).head?.any fun g => startsWord g.char) = true ∧
    ∀ g ∈ (glyphs w).tail, continuesWord g.char = true) <| by
    unfold Bytes.Word
    cases glyphs w with
    | nil => exact ⟨fun h => absurd h.1 Bool.false_ne_true, nofun⟩
    | cons g gs =>
      refine ⟨fun h => ⟨g, gs, rfl, h.1, h.2⟩, ?_⟩
      rintro ⟨g, gs, hglyphs, hg, hgs⟩
      cases hglyphs
      exact ⟨hg, hgs⟩

/-- The signs of the language. -/
def Kind.signs : List Kind :=
  [.lparen, .rparen, .lcurly, .rcurly, .lbracket, .rbracket, .comma, .semicolon, .colon, .arrow,
    .assign, .plus, .minus, .star, .slash, .caret, .eq, .notEq, .gt, .lt, .gtEq, .ltEq]

/-! ## Strings -/

/-- The letter stands, behind a backslash, for the character. -/
inductive Escape : Char → Char → Prop
  | quote : Escape '"' '"'
  | backslash : Escape '\\' '\\'
  | tab : Escape 't' '\t'
  | backspace : Escape 'b' (Char.ofNat 8)
  | newline : Escape 'n' '\n'
  | carriageReturn : Escape 'r' '\r'
  | formFeed : Escape 'f' (Char.ofNat 12)

/-- The scanner knows these escapes and no others. -/
theorem escape?_eq_some_iff {e c : Char} : escape? e = some c ↔ Escape e c := by
  constructor
  · intro h
    unfold escape? at h
    split at h <;> cases h <;> constructor
  · intro h
    cases h <;> rfl

/-- The glyphs, between two quotes, write the text: quotes and backslashes stand behind a
backslash, and so does the letter of an escape. -/
inductive Quotes : List Glyph → Bytes → Prop
  | nil : Quotes [] []
  | plain {g : Glyph} {gs : List Glyph} {text : Bytes} (hquote : g.char ≠ '"')
    (hslash : g.char ≠ '\\') (h : Quotes gs text) : Quotes (g :: gs) (encodeChar g.char ++ text)
  | escaped {b g : Glyph} {gs : List Glyph} {text : Bytes} {c : Char} (hb : b.char = '\\')
    (hc : Escape g.char c) (h : Quotes gs text) :
    Quotes (b :: g :: gs) (encodeChar c ++ text)

/-! ## Tokens -/

/-- A token of the kind, with the literal, is written as the text. -/
inductive Kind.WrittenAs : Kind → Bytes → Bytes → Prop
  | keyword {k : Kind} (hk : k ∈ Kind.keywords) : k.WrittenAs [] k.name
  | sign {k : Kind} (hk : k ∈ Kind.signs) : k.WrittenAs [] k.name
  /-- Another spelling of `^`. -/
  | power : WrittenAs .caret [] (utf8 "**")
  | ident {w : Bytes} (hw : w.Word) (hk : Kind.ofWord w = .ident) : WrittenAs .ident w w
  | int {w : Bytes} (hw : Grammar.Numeral w) : WrittenAs .int w w
  | str {w literal : Bytes} {q q' : Glyph} {gs : List Glyph}
    (hglyphs : glyphs w = q :: (gs ++ [q'])) (hq : q.char = '"') (h : Quotes gs literal)
    (hq' : q'.char = '"') : WrittenAs .str literal w

namespace Lexer

variable {c : Char} {g : Glyph} {gs : List Glyph} {w literal : Bytes} {k : Kind} {a pos : Nat}
  {found : Bytes} {rev : List Token}

/-! ## Reading words -/

theorem exists_digit (h : isAsciiDigit c = true) :
    ∃ b : UInt8, (48 ≤ b ∧ b ≤ 57) ∧ c = Char.ofNat b.toNat := by
  simp only [isAsciiDigit, Bool.and_eq_true, decide_eq_true_eq, Char.le_def,
    UInt32.le_iff_toNat_le] at h
  have hlow : 48 ≤ c.toNat := h.1
  have hhigh : c.toNat ≤ 57 := h.2
  have hnat : (UInt8.ofNat c.toNat).toNat = c.toNat := toNat_ofNat_of_lt (by omega)
  refine ⟨.ofNat c.toNat, ?_, by rw [hnat, Char.ofNat_toNat]⟩
  simp only [UInt8.le_iff_toNat_le, hnat, UInt8.reduceToNat]
  exact ⟨hlow, hhigh⟩

/-- What a word begins with begins nothing else. -/
theorem not_starts_of_startsWord (h : startsWord c = true) :
    (c == '#') = false ∧ isBlank c = false ∧ startsPair c = false ∧ sign? c = none ∧
      (c == '"') = false ∧ isAsciiDigit c = false := by
  have hne {d : Char} (hd : startsWord d = false) : (c == d) = false := by
    refine beq_false_of_ne ?_
    rintro rfl
    rw [hd] at h
    cases h
  refine ⟨hne (by decide), ?_, ?_, ?_, hne (by decide), ?_⟩
  · cases hblank : isBlank c with
    | false => rfl
    | true =>
      have hword : startsWord c = false :=
        forall_blank (P := fun c => startsWord c = false) (by decide +kernel) hblank
      rw [hword] at h
      cases h
  · simp only [startsPair, hne (show startsWord '=' = false by decide),
      hne (show startsWord '!' = false by decide), hne (show startsWord '>' = false by decide),
      hne (show startsWord '<' = false by decide), hne (show startsWord '-' = false by decide),
      hne (show startsWord '*' = false by decide), Bool.or_false]
  · unfold sign?
    split <;> first | rfl | (revert h; decide)
  · cases hdigit : isAsciiDigit c with
    | false => rfl
    | true =>
      obtain ⟨b, hb, rfl⟩ := exists_digit hdigit
      have hword : startsWord (Char.ofNat b.toNat) = false :=
        forall_digit (p := fun c => startsWord c = false) (by decide) hb
      rw [hword] at h
      cases h

theorem start_word (h : startsWord g.char = true) :
    start ⟨.gap, pos, rev⟩ g = .ok ⟨.word pos g.bytes.reverse, pos + g.width, rev⟩ := by
  obtain ⟨hhash, hblank, hpair, hsign, hquote, hdigit⟩ := not_starts_of_startsWord h
  unfold start
  simp only [hhash, hblank, hpair, hsign, hquote, hdigit, h, Bool.false_eq_true, if_false, if_true]

/-- A word goes on as long as there are characters that continue it. -/
theorem read_rest_of_word (h : ∀ g ∈ gs, continuesWord g.char = true) :
    gs.foldlM step ⟨.word a found, pos, rev⟩ =
      .ok ⟨.word a ((text gs).reverse ++ found), pos + (text gs).length, rev⟩ := by
  induction gs generalizing found pos with
  | nil => rfl
  | cons g gs ih =>
    have hg := h g List.mem_cons_self
    have hstep : step ⟨.word a found, pos, rev⟩ g =
        .ok ⟨.word a (g.bytes.reverse ++ found), pos + g.width, rev⟩ := by
      simp only [step, hg, if_true]
    have htext : text (g :: gs) = g.bytes ++ text gs := rfl
    rw [foldlM_cons_of_ok hstep, ih fun g' hg' => h g' (List.mem_cons_of_mem g hg'), htext,
      List.reverse_append, List.append_assoc, List.length_append, Nat.add_assoc]
    rfl

theorem read_word (hw : w.Word) (pos : Nat) (rev : List Token) :
    (glyphs w).foldlM step ⟨.gap, pos, rev⟩ = .ok ⟨.word pos w.reverse, pos + w.length, rev⟩ := by
  obtain ⟨g, gs, hglyphs, hg, hgs⟩ := hw
  have hstep : step ⟨.gap, pos, rev⟩ g = .ok ⟨.word pos g.bytes.reverse, pos + g.width, rev⟩ :=
    start_word hg
  have htext : w = g.bytes ++ text gs := by
    rw [← text_glyphs w, hglyphs]
    rfl
  rw [hglyphs, foldlM_cons_of_ok hstep, read_rest_of_word hgs, htext, List.reverse_append,
    List.length_append, Nat.add_assoc]
  rfl

/-- A word is an identifier, or the keyword that it names. -/
theorem ofWord_cases (w : Bytes) :
    Kind.ofWord w = .ident ∨ Kind.ofWord w ∈ Kind.keywords ∧ (Kind.ofWord w).name = w := by
  unfold Kind.ofWord
  cases hfind : Kind.keywords.find? fun k => k.name = w with
  | none => exact .inl rfl
  | some k =>
    have hname := List.find?_some hfind
    exact .inr ⟨List.mem_of_find?_eq_some hfind, of_decide_eq_true hname⟩

theorem close_word (w : Bytes) (a pos : Nat) (rev : List Token) :
    close ⟨.word a w.reverse, pos, rev⟩ =
      .ok ⟨.gap, pos, ⟨Kind.ofWord w, if Kind.ofWord w = .ident then w else [],
        .between a pos⟩ :: rev⟩ := by
  unfold close
  dsimp only
  rw [List.reverse_reverse]
  split
  · rename_i hk
    rw [hk, if_pos rfl]
    rfl
  · rename_i hk
    rw [if_neg hk]
    rfl

theorem word_of_keyword (hk : k ∈ Kind.keywords) : k.name.Word ∧ Kind.ofWord k.name = k := by
  have hall : ∀ k ∈ Kind.keywords, k.name.Word ∧ Kind.ofWord k.name = k := by decide
  exact hall k hk

/-! ## Reading strings -/

theorem step_plain (hquote : g.char ≠ '"') (hslash : g.char ≠ '\\') :
    step ⟨.text a found, pos, rev⟩ g =
      .ok ⟨.text a ((encodeChar g.char).reverse ++ found), pos + g.width, rev⟩ := by
  simp only [step, beq_false_of_ne hquote, beq_false_of_ne hslash, Bool.false_eq_true, if_false]

theorem step_backslash (h : g.char = '\\') :
    step ⟨.text a found, pos, rev⟩ g = .ok ⟨.escape a found, pos + g.width, rev⟩ := by
  simp only [step, h]
  rfl

theorem step_escape (h : Escape g.char c) :
    step ⟨.escape a found, pos, rev⟩ g =
      .ok ⟨.text a ((encodeChar c).reverse ++ found), pos + g.width, rev⟩ := by
  simp only [step, escape?_eq_some_iff.2 h]

theorem read_quotes (h : Quotes gs literal) :
    gs.foldlM step ⟨.text a found, pos, rev⟩ =
      .ok ⟨.text a (literal.reverse ++ found), pos + (text gs).length, rev⟩ := by
  induction h generalizing found pos with
  | nil => rfl
  | @plain g gs literal hquote hslash h ih =>
    have htext : text (g :: gs) = g.bytes ++ text gs := rfl
    rw [foldlM_cons_of_ok (step_plain hquote hslash), ih, htext, List.reverse_append,
      List.append_assoc, List.length_append, Nat.add_assoc]
    rfl
  | @escaped b g gs literal c hb hc h ih =>
    have htext : text (b :: g :: gs) = b.bytes ++ (g.bytes ++ text gs) := rfl
    rw [foldlM_cons_of_ok (step_backslash hb), foldlM_cons_of_ok (step_escape hc), ih, htext,
      List.reverse_append, List.append_assoc, List.length_append, List.length_append,
      Nat.add_assoc, Nat.add_assoc]
    rfl

theorem start_quote (hg : g.char = '"') :
    start ⟨.gap, pos, rev⟩ g = .ok ⟨.text pos [], pos + g.width, rev⟩ := by
  unfold start
  rw [hg]
  rfl

/-- A string is over with its second quote. -/
theorem step_quote (hg : g.char = '"') :
    step ⟨.text a found, pos, rev⟩ g =
      .ok ⟨.gap, pos + g.width, ⟨.str, found.reverse, .between a (pos + g.width)⟩ :: rev⟩ := by
  have hquote : (g.char == '"') = true := by rw [hg]; rfl
  simp only [step, hquote, if_true]
  rfl

/-- A string is read from its first quote to its last. -/
theorem read_string {q q' : Glyph} (hglyphs : glyphs w = q :: (gs ++ [q'])) (hq : q.char = '"')
    (h : Quotes gs literal) (hq' : q'.char = '"') (pos : Nat) (rev : List Token) :
    (glyphs w).foldlM step ⟨.gap, pos, rev⟩ =
      .ok ⟨.gap, pos + w.length, ⟨.str, literal, .between pos (pos + w.length)⟩ :: rev⟩ := by
  have hopen : step ⟨.gap, pos, rev⟩ q = .ok ⟨.text pos [], pos + q.width, rev⟩ := start_quote hq
  have htext : text (q :: (gs ++ [q'])) = q.bytes ++ (text gs ++ q'.bytes) := by
    rw [show q'.bytes = text [q'] from (List.append_nil _).symm, ← text_append]
    rfl
  have hlength : pos + q.width + (text gs).length + q'.width = pos + w.length := by
    rw [← text_glyphs w, hglyphs, htext, List.length_append, List.length_append, width, width]
    omega
  rw [hglyphs, foldlM_cons_of_ok hopen, foldlM_append_of_ok (read_quotes h), List.append_nil,
    foldlM_cons_of_ok (step_quote hq'), List.reverse_reverse, hlength]
  rfl

/-! ## Signs -/

theorem writtenAs_of_sign? (h : sign? c = some k) : k.WrittenAs [] (encodeChar c) := by
  unfold sign? at h
  split at h <;> cases h <;> exact .sign (by decide)

theorem writtenAs_of_pair? {d : Char} (h : pair? c d = some k) :
    k.WrittenAs [] (encodeChar c ++ encodeChar d) := by
  unfold pair? at h
  split at h <;> cases h
  · exact .sign (k := .eq) (by decide)
  · exact .sign (k := .notEq) (by decide)
  · exact .sign (k := .gtEq) (by decide)
  · exact .sign (k := .ltEq) (by decide)
  · exact .sign (k := .arrow) (by decide)
  · exact .power

end Lexer

/-! ## Reading tokens -/

namespace Kind.WrittenAs

variable {k : Kind} {literal w : Bytes}

/-- Between two tokens, the text of a token is read as that token; it may still be open, but is no
comment. -/
theorem reads (h : k.WrittenAs literal w) (pos : Nat) (rev : List Token) :
    ∃ u, (glyphs w).foldlM step ⟨.gap, pos, rev⟩ = .ok u ∧ u.lexeme ≠ .comment ∧
      close u = .ok ⟨.gap, pos + w.length, ⟨k, literal, .between pos (pos + w.length)⟩ :: rev⟩ := by
  cases h with
  | keyword hk =>
    obtain ⟨hword, hof⟩ := word_of_keyword hk
    have hne : k ≠ .ident := by
      rintro rfl
      revert hk
      decide
    have hclose := close_word k.name pos (pos + k.name.length) rev
    rw [hof, if_neg hne] at hclose
    exact ⟨_, read_word hword pos rev, Lexeme.noConfusion, hclose⟩
  | ident hw hk =>
    have hclose := close_word literal pos (pos + literal.length) rev
    rw [hk, if_pos rfl] at hclose
    exact ⟨_, read_word hw pos rev, Lexeme.noConfusion, hclose⟩
  | sign hk =>
    cases k with
    | lparen | rparen | lcurly | rcurly | lbracket | rbracket | comma | semicolon | colon | arrow
    | assign | plus | minus | star | slash | caret | eq | notEq | gt | lt | gtEq | ltEq =>
      exact ⟨_, rfl, Lexeme.noConfusion, rfl⟩
    | eof | ident | int | str | kLet | kIf | kElse | kLoop | kBreak | kReturn | kExit | kFn | kTrue
    | kFalse => exact absurd hk (by decide)
    | other n =>
      simp only [Kind.signs, List.mem_cons, reduceCtorEq, List.not_mem_nil, or_self] at hk
  | power => exact ⟨_, rfl, Lexeme.noConfusion, rfl⟩
  | int hw =>
    refine ⟨_, read_number hw.nonempty hw.digits pos rev, Lexeme.noConfusion, ?_⟩
    simp only [close, List.reverse_reverse, hw.readInt64_eq]
    rfl
  | str hglyphs hq h hq' => exact ⟨_, read_string hglyphs hq h hq' pos rev, Lexeme.noConfusion, rfl⟩

/-- The end of a file is not written. -/
theorem ne_eof (h : k.WrittenAs literal w) : k ≠ .eof := by
  rintro rfl
  cases h with
  | keyword hk | sign hk => exact absurd hk (by decide)

/-- The text of a token, on its own, is that token. -/
theorem lex_eq (h : k.WrittenAs literal w) :
    Token.lex w =
      .ok [⟨k, literal, .between 0 w.length⟩, ⟨.eof, [], .between w.length w.length⟩] := by
  obtain ⟨u, hread, -, hclose⟩ := h.reads 0 []
  rw [Nat.zero_add] at hclose
  exact Token.lexFrom_of_close hread hclose

end Kind.WrittenAs
end Scriptlet
