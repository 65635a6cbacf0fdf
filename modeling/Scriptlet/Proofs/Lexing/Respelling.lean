import Mathlib.Data.List.Forall2
import Scriptlet.Proofs.Lexing.Writing

/-!
# Respelling: tokens written out and read again

Tokens are spelled one after the other with single spaces between them. A space belongs to no token
but a string, so each text ends where the next space stands, and the tokens are read back as they
were written. In a string, quotes and backslashes have to be escaped; the other characters that
have an escape may be written by it or as themselves.
-/

namespace Scriptlet

open Glyph Lexer

/-! ## Spelling -/

/-- The characters are written, between quotes, as the text. -/
inductive Quoted : List Char → Bytes → Prop
  | nil : Quoted [] []
  | plain {c : Char} {cs : List Char} {inner : Bytes} (hquote : c ≠ '"') (hslash : c ≠ '\\')
    (h : Quoted cs inner) : Quoted (c :: cs) (encodeChar c ++ inner)
  | escaped {c e : Char} {cs : List Char} {inner : Bytes} (he : Escape e c)
    (h : Quoted cs inner) : Quoted (c :: cs) (encodeChar '\\' ++ (encodeChar e ++ inner))

theorem Kind.mem_all_iff {k : Kind} : k ∈ Kind.all ↔ ∀ n, k ≠ .other n := by
  cases k with
  | other n => exact ⟨fun h => absurd h (by simp [Kind.all]), fun h => absurd rfl (h n)⟩
  | eof | ident | int | str | kLet | kIf | kElse | kLoop | kBreak | kReturn | kExit | kFn | kTrue
  | kFalse | lparen | rparen | lcurly | rcurly | lbracket | rbracket | comma | semicolon | colon
  | arrow | assign | plus | minus | star | slash | caret | eq | notEq | gt | lt | gtEq | ltEq =>
    exact ⟨fun _ _ => Kind.noConfusion, fun _ => by decide⟩

namespace Token

/-- The token is one of the language, other than the end of a file, and its literal is what such a
token can stand for. -/
structure Spellable (t : Token) : Prop where
  kind : t.kind ≠ .eof ∧ ∀ n, t.kind ≠ .other n
  ident : t.kind = .ident → t.literal.Word ∧ ∀ k ∈ Kind.keywords, k.name ≠ t.literal
  int : t.kind = .int → Grammar.Numeral t.literal
  str : t.kind = .str → isUtf8 t.literal = true
  bare : t.kind ∈ Kind.keywords ++ Kind.signs → t.literal = []

instance (t : Token) : Decidable t.Spellable :=
  decidable_of_iff ((t.kind ≠ .eof ∧ t.kind ∈ Kind.all) ∧
    (t.kind = .ident → t.literal.Word ∧ ∀ k ∈ Kind.keywords, k.name ≠ t.literal) ∧
    (t.kind = .int → Grammar.Numeral t.literal) ∧ (t.kind = .str → isUtf8 t.literal = true) ∧
    (t.kind ∈ Kind.keywords ++ Kind.signs → t.literal = []))
    ⟨fun ⟨h₁, h₂, h₃, h₄, h₅⟩ => ⟨⟨h₁.1, Kind.mem_all_iff.1 h₁.2⟩, h₂, h₃, h₄, h₅⟩,
      fun h => ⟨⟨h.kind.1, Kind.mem_all_iff.2 h.kind.2⟩, h.ident, h.int, h.str, h.bare⟩⟩

/-- The text spells the token: a word or a number by itself, a string in quotes, anything else by
its name. -/
def SpelledAs (t : Token) (w : Bytes) : Prop :=
  match t.kind with
  | .ident | .int => w = t.literal
  | .str => ∃ cs inner, t.literal = encode cs ∧ Quoted cs inner ∧
      w = utf8 "\"" ++ (inner ++ utf8 "\"")
  | k => w = k.name

/-- What a token says, its place left out. -/
def meaning (t : Token) : Kind × Bytes := (t.kind, t.literal)

end Token

/-! ## Strings -/

namespace Quoted

variable {cs : List Char} {inner : Bytes}

/-- A string that is spelled is read as what it spells. -/
theorem quotes (h : Quoted cs inner) (rest : Bytes) :
    ∃ gs, glyphs (inner ++ rest) = gs ++ glyphs rest ∧ Quotes gs (encode cs) := by
  induction h with
  | nil => exact ⟨[], rfl, .nil⟩
  | @plain c cs inner hquote hslash h ih =>
    obtain ⟨gs, hglyphs, hgs⟩ := ih
    refine ⟨ofChar c :: gs, ?_, .plain hquote hslash hgs⟩
    rw [List.append_assoc, glyphs_encodeChar_append, hglyphs, List.cons_append]
  | @escaped c e cs inner he h ih =>
    obtain ⟨gs, hglyphs, hgs⟩ := ih
    refine ⟨ofChar '\\' :: ofChar e :: gs, ?_, .escaped rfl he hgs⟩
    rw [List.append_assoc, List.append_assoc, glyphs_encodeChar_append, glyphs_encodeChar_append,
      hglyphs, List.cons_append, List.cons_append]

/-- Every string can be spelled. -/
theorem exists_quoted (cs : List Char) : ∃ inner, Quoted cs inner := by
  induction cs with
  | nil => exact ⟨[], .nil⟩
  | cons c cs ih =>
    obtain ⟨inner, h⟩ := ih
    by_cases hquote : c = '"'
    · exact ⟨_, .escaped (e := '"') (hquote ▸ .quote) h⟩
    by_cases hslash : c = '\\'
    · exact ⟨_, .escaped (e := '\\') (hslash ▸ .backslash) h⟩
    · exact ⟨_, .plain hquote hslash h⟩

end Quoted

/-! ## Tokens -/

namespace Token

variable {t : Token} {w : Bytes}

theorem Spellable.exists_spelledAs (h : t.Spellable) : ∃ w, t.SpelledAs w := by
  unfold SpelledAs
  split
  · exact ⟨_, rfl⟩
  · exact ⟨_, rfl⟩
  · rename_i hk
    obtain ⟨cs, hcs⟩ := isUtf8_iff.1 (h.str hk)
    obtain ⟨inner, hinner⟩ := Quoted.exists_quoted cs
    exact ⟨_, cs, inner, hcs, hinner, rfl⟩
  · exact ⟨_, rfl⟩

/-- What spells a token is a text of that token. -/
theorem SpelledAs.writtenAs (h : t.SpelledAs w) (ht : t.Spellable) :
    t.kind.WrittenAs t.literal w := by
  unfold SpelledAs at h
  split at h
  · rename_i hk
    obtain ⟨hword, hkeyword⟩ := ht.ident hk
    subst h
    rw [hk]
    refine .ident hword ?_
    rcases ofWord_cases t.literal with hof | ⟨hof, hname⟩
    · exact hof
    · exact absurd hname (hkeyword _ hof)
  · rename_i hk
    subst h
    rw [hk]
    exact .int (ht.int hk)
  · rename_i hk
    obtain ⟨cs, inner, hliteral, hinner, rfl⟩ := h
    obtain ⟨gs, hglyphs, hgs⟩ := hinner.quotes (utf8 "\"")
    rw [hk, hliteral]
    have hquoted : glyphs (utf8 "\"" ++ (inner ++ utf8 "\"")) =
        ⟨'"', [34]⟩ :: (gs ++ [⟨'"', [34]⟩]) := by
      rw [show utf8 "\"" = encodeChar '"' from rfl, glyphs_encodeChar_append]
      exact congrArg _ hglyphs
    exact .str hquoted rfl hgs rfl
  · rename_i hident hint hstr
    obtain ⟨heof, hall⟩ := ht.kind
    have hfixed : t.kind ∈ Kind.keywords ∨ t.kind ∈ Kind.signs := by
      have hkinds : ∀ k ∈ Kind.all, k = .eof ∨ k = .ident ∨ k = .int ∨ k = .str ∨
          k ∈ Kind.keywords ∨ k ∈ Kind.signs := by decide
      rcases hkinds _ (Kind.mem_all_iff.2 hall) with hk | hk | hk | hk | hk
      · exact absurd hk heof
      · exact absurd hk hident
      · exact absurd hk hint
      · exact absurd hk hstr
      · exact hk
    rw [h, ht.bare (List.mem_append.2 hfixed)]
    exact hfixed.elim .keyword .sign

end Token

/-! ## Texts -/

/-- A text can be decoded from space to space. -/
theorem glyphs_append_space (w rest : Bytes) :
    glyphs (w ++ 32 :: rest) = glyphs w ++ ⟨' ', [32]⟩ :: glyphs rest := by
  have hfresh : Bytes.Fresh (32 :: rest) := by
    intro b hb
    cases hb
    rfl
  rw [glyphs_append hfresh, glyphs_cons]
  rfl

namespace Lexer

variable {u v : State} {ts : List Token} {texts : List Bytes}

/-- A space ends what can end, unless it is a comment. -/
theorem step_space (hclose : close u = .ok v) (hu : u.lexeme ≠ .comment) :
    step u ⟨' ', [32]⟩ = .ok ⟨.gap, u.pos + 1, v.rev⟩ := by
  have hblank : isBlank ' ' = true := rfl
  rw [step_eq_restart (not_holds_of_separates (.inl hblank) hu hclose)]
  unfold restart
  rw [hclose, ← (close_cases hclose).2.1]
  exact start_blank (g := ⟨' ', [32]⟩) hblank

/-- The texts of tokens, with spaces between them, are read as those tokens. -/
theorem read_texts (h : List.Forall₂ (fun t w => t.kind.WrittenAs t.literal w) ts texts)
    (pos : Nat) (rev : List Token) :
    ∃ (u : State) (stop : Nat) (read : List Token),
      (glyphs ((utf8 " ").intercalate texts)).foldlM step ⟨.gap, pos, rev⟩ = .ok u ∧
      close u = .ok ⟨.gap, stop, read.reverse ++ rev⟩ ∧
      read.map Token.meaning = ts.map Token.meaning := by
  induction h generalizing pos rev with
  | nil => exact ⟨⟨.gap, pos, rev⟩, pos, [], rfl, rfl, rfl⟩
  | @cons t w ts texts ht h ih =>
    obtain ⟨u, hread, hu, hclose⟩ := ht.reads pos rev
    -- The text ends with the whole, or a space ends it.
    cases h with
    | nil =>
      rw [List.intercalate_singleton]
      exact ⟨u, _, [⟨t.kind, t.literal, .between pos (pos + w.length)⟩], hread, hclose, rfl⟩
    | @cons t' w' ts texts ht' h =>
      obtain ⟨u', stop, read, hread', hclose', hmeaning⟩ :=
        ih (u.pos + 1) (⟨t.kind, t.literal, .between pos (pos + w.length)⟩ :: rev)
      have htext : (utf8 " ").intercalate (w :: w' :: texts) =
          w ++ 32 :: (utf8 " ").intercalate (w' :: texts) := by
        rw [List.intercalate_cons_cons, List.append_assoc]
        rfl
      refine ⟨u', stop, ⟨t.kind, t.literal, .between pos (pos + w.length)⟩ :: read, ?_, ?_, ?_⟩
      · rw [htext, glyphs_append_space, foldlM_append_of_ok hread,
          foldlM_cons_of_ok (step_space hclose hu)]
        exact hread'
      · rw [hclose', List.reverse_cons, List.append_assoc]
        rfl
      · rw [List.map_cons, hmeaning]
        rfl

end Lexer

namespace Token

variable {ts : List Token} {texts : List Bytes}

theorem exists_texts (h : ∀ t ∈ ts, t.Spellable) : ∃ texts, List.Forall₂ SpelledAs ts texts := by
  induction ts with
  | nil => exact ⟨[], .nil⟩
  | cons t ts ih =>
    obtain ⟨w, hw⟩ := (h t List.mem_cons_self).exists_spelledAs
    obtain ⟨texts, htexts⟩ := ih fun t' ht' => h t' (List.mem_cons_of_mem t ht')
    exact ⟨w :: texts, .cons hw htexts⟩

theorem writtenAs_of_texts (h : ∀ t ∈ ts, t.Spellable) (htexts : List.Forall₂ SpelledAs ts texts) :
    List.Forall₂ (fun t w => t.kind.WrittenAs t.literal w) ts texts := by
  induction htexts with
  | nil => exact .nil
  | @cons t w ts texts hw htexts ih =>
    exact .cons (hw.writtenAs (h t List.mem_cons_self))
      (ih fun t' ht' => h t' (List.mem_cons_of_mem t ht'))

/-- Tokens that are spelled with single spaces between them, each in any of the ways there are, are
read back as they were. -/
theorem lex_spelled (ts : List Token) (h : ∀ t ∈ ts, t.Spellable) :
    (∃ texts, List.Forall₂ SpelledAs ts texts) ∧
      ∀ texts, List.Forall₂ SpelledAs ts texts →
        let source := (utf8 " ").intercalate texts
        ∃ read, lex source = .ok (read ++ [⟨.eof, [], .between source.length source.length⟩]) ∧
          read.map meaning = ts.map meaning := by
  refine ⟨exists_texts h, ?_⟩
  intro texts htexts source
  obtain ⟨u, stop, read, hread, hclose, hmeaning⟩ :=
    Lexer.read_texts (writtenAs_of_texts h htexts) 0 []
  have hlex : lex source = .ok (read ++ [⟨.eof, [], .between stop stop⟩]) := by
    have hlex := lexFrom_of_close hread hclose
    rw [List.append_nil, List.reverse_reverse] at hlex
    exact hlex
  have hstop : stop = source.length := by
    have hpos := (close_cases hclose).2.1
    rw [pos_foldlM hread, flatMap_bytes_glyphs] at hpos
    exact hpos.trans (Nat.zero_add _)
  rw [hstop] at hlex
  exact ⟨read, hlex, hmeaning⟩

/-- The keywords, and a string with every escape. -/
theorem lex_spelled_string :
    ∃ read, lex (utf8
        "let if else loop break return exit fn true false s \"\\\"\\\\\\t\\b\\n\\r\\f#\" 7") =
        .ok (read ++ [⟨.eof, [], .between 70 70⟩]) ∧
      read.map meaning = [(.kLet, []), (.kIf, []), (.kElse, []), (.kLoop, []), (.kBreak, []),
        (.kReturn, []), (.kExit, []), (.kFn, []), (.kTrue, []), (.kFalse, []), (.ident, utf8 "s"),
        (.str, utf8 "\"\\\t\x08\n\r\x0c#"), (.int, utf8 "7")] := by
  have hstring : Quoted ['"', '\\', '\t', Char.ofNat 8, '\n', '\r', Char.ofNat 12, '#']
      (utf8 "\\\"\\\\\\t\\b\\n\\r\\f#") :=
    .escaped .quote (.escaped .backslash (.escaped .tab (.escaped .backspace (.escaped .newline
      (.escaped .carriageReturn (.escaped .formFeed (.plain (by decide) (by decide) .nil)))))))
  exact (lex_spelled [⟨.kLet, [], .origin⟩, ⟨.kIf, [], .origin⟩, ⟨.kElse, [], .origin⟩,
    ⟨.kLoop, [], .origin⟩, ⟨.kBreak, [], .origin⟩, ⟨.kReturn, [], .origin⟩, ⟨.kExit, [], .origin⟩,
    ⟨.kFn, [], .origin⟩, ⟨.kTrue, [], .origin⟩, ⟨.kFalse, [], .origin⟩,
    ⟨.ident, utf8 "s", .origin⟩, ⟨.str, utf8 "\"\\\t\x08\n\r\x0c#", .origin⟩,
    ⟨.int, utf8 "7", .origin⟩] (by decide)).2
    [utf8 "let", utf8 "if", utf8 "else", utf8 "loop", utf8 "break", utf8 "return", utf8 "exit",
      utf8 "fn", utf8 "true", utf8 "false", utf8 "s",
      utf8 "\"\\\"\\\\\\t\\b\\n\\r\\f#\"", utf8 "7"]
    (.cons rfl (.cons rfl (.cons rfl (.cons rfl (.cons rfl (.cons rfl (.cons rfl (.cons rfl
      (.cons rfl (.cons rfl (.cons rfl (.cons ⟨_, _, rfl, hstring, rfl⟩
        (.cons rfl .nil)))))))))))))

end Token
end Scriptlet
