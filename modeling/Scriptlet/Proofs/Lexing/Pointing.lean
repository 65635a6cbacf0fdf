import Scriptlet.Proofs.Lexing.Boundaries
import Scriptlet.Proofs.Lexing.Offsets

/-!
# Pointing: tokens and faults between characters

The scanner looks at a text character by character, so the offsets that it goes through are
boundaries of the text. Its tokens and its faults lie between offsets that it went through. That
holds also of the second half of a `>=`, which may be cut off later, and of the backslash that a
bad escape begins with: both begin one byte behind or before an offset that the scanner was at.
-/

namespace Scriptlet

/-- The span reaches from one of the offsets to another, or the same. -/
def Span.On (offsets : Nat → Prop) (s : Span) : Prop :=
  ∃ a b, s = .between a b ∧ a ≤ b ∧ offsets a ∧ offsets b

theorem Span.On.join {offsets : Nat → Prop} {s t : Span} (hs : s.On offsets) (ht : t.On offsets) :
    (s.join t).On offsets := by
  obtain ⟨a, b, rfl, hab, ha, hb⟩ := hs
  obtain ⟨c, d, rfl, hcd, hc, hd⟩ := ht
  refine ⟨if c < a then c else a, if d > b then d else b, ?_, ?_, ?_, ?_⟩
  · unfold Span.join Span.between
    congr 1
    · by_cases h : c < a
      · rw [if_pos h, if_pos (show (c : Int) < a by omega)]
      · rw [if_neg h, if_neg (show ¬ (c : Int) < a by omega)]
    · by_cases h : d > b
      · rw [if_pos h, if_pos (show (d : Int) > b by omega)]
      · rw [if_neg h, if_neg (show ¬ (d : Int) > b by omega)]
  · split <;> split <;> omega
  · split <;> assumption
  · split <;> assumption

/-- The token lies between the offsets, and so does the second half of a `>=`. -/
structure Token.On (offsets : Nat → Prop) (t : Token) : Prop where
  whole : t.span.On offsets
  half : t.kind = .gtEq → Span.On offsets t.span.tail

namespace Lexer

variable {offsets : Nat → Prop} {s s' : State} {g : Glyph} {k : Kind}

/-! ## Only two characters make a `>=` -/

theorem sign?_ne_gtEq {c : Char} (h : sign? c = some k) : k ≠ .gtEq := by
  unfold sign? at h
  split at h <;> cases h <;> exact Kind.noConfusion

theorem ofWord_ne_gtEq (word : Bytes) : Kind.ofWord word ≠ .gtEq := by
  unfold Kind.ofWord
  cases hfind : Kind.keywords.find? (fun k => k.name = word) with
  | none => exact Kind.noConfusion
  | some k =>
    have hmem := List.mem_of_find?_eq_some hfind
    rintro rfl
    revert hmem
    decide

/-! ## The scanner at its offsets -/

/-- The scanner is at one of the offsets, and so is all that it has begun and found. -/
structure State.On (offsets : Nat → Prop) (s : State) : Prop where
  pos : offsets s.pos
  opened : ∀ a ∈ s.lexeme.from?, a ≤ s.pos ∧ offsets a
  sign : ∀ a c, s.lexeme = .sign a c → s.pos = a + 1
  escape : ∀ a rev, s.lexeme = .escape a rev → 0 < s.pos ∧ offsets (s.pos - 1)
  tokens : ∀ t ∈ s.rev, t.On offsets

/-- A step leaves the scanner at the offsets, or its fault lies between them. -/
def StepsOn (offsets : Nat → Prop) : Except Diagnostic State → Prop
  | .ok s => s.On offsets
  | .error d => d.span.On offsets

namespace State.On

theorem initial (h : offsets 0) : State.initial.On offsets :=
  ⟨h, nofun, nofun, nofun, nofun⟩

variable (hs : s.On offsets)
include hs

theorem span {a stop : Nat} (ha : a ∈ s.lexeme.from?) (hle : s.pos ≤ stop) (hstop : offsets stop) :
    (Span.between a stop).On offsets := by
  obtain ⟨hpos, hon⟩ := hs.opened a ha
  exact ⟨a, stop, rfl, Nat.le_trans hpos hle, hon, hstop⟩

theorem gap {stop : Nat} (hstop : offsets stop) : State.On offsets ⟨.gap, stop, s.rev⟩ :=
  ⟨hstop, nofun, nofun, nofun, hs.tokens⟩

theorem emit {literal : Bytes} {a stop : Nat} (ha : (Span.between a stop).On offsets)
    (hstop : offsets stop) (hk : k = .gtEq → (Span.between a stop).tail.On offsets) :
    (s.emit k literal a stop).On offsets := by
  refine ⟨hstop, nofun, nofun, nofun, fun t ht => ?_⟩
  rcases List.mem_cons.1 ht with rfl | ht
  · exact ⟨ha, hk⟩
  · exact hs.tokens t ht

theorem close : StepsOn offsets (close s) := by
  obtain ⟨lexeme, pos, rev⟩ := s
  have hspan (a : Nat) (ha : a ∈ lexeme.from?) : (Span.between a pos).On offsets :=
    hs.span ha (Nat.le_refl pos) hs.pos
  cases lexeme with
  | gap | comment => exact hs.gap hs.pos
  | sign a c =>
    unfold Lexer.close
    dsimp only
    cases hk : sign? c with
    | none => exact hspan a rfl
    | some k => exact hs.emit (hspan a rfl) hs.pos (absurd · (sign?_ne_gtEq hk))
  | word a text =>
    unfold Lexer.close
    dsimp only
    split
    · exact hs.emit (hspan a rfl) hs.pos (fun h => by cases h)
    · exact hs.emit (hspan a rfl) hs.pos (absurd · (ofWord_ne_gtEq _))
  | number a digits =>
    unfold Lexer.close
    dsimp only
    split
    · exact hs.emit (hspan a rfl) hs.pos (fun h => by cases h)
    · exact hspan a rfl
  | text a text | escape a text => exact hspan a rfl

theorem start (hstop : offsets (s.pos + g.width)) (hw : startsPair g.char = true → g.width = 1) :
    StepsOn offsets (start s g) := by
  have hspan : (Span.between s.pos (s.pos + g.width)).On offsets :=
    ⟨s.pos, s.pos + g.width, rfl, Nat.le_add_right _ _, hs.pos, hstop⟩
  -- A lexeme that opens here begins at the offset reached so far.
  have hopen (a : Nat) (ha : a = s.pos) : a ≤ s.pos + g.width ∧ offsets a := by
    subst ha
    exact ⟨Nat.le_add_right _ _, hs.pos⟩
  unfold Lexer.start
  dsimp only
  by_cases hhash : (g.char == '#') = true
  · rw [if_pos hhash]
    exact ⟨hstop, nofun, nofun, nofun, hs.tokens⟩
  rw [if_neg hhash]
  by_cases hblank : isBlank g.char = true
  · rw [if_pos hblank]
    exact hs.gap hstop
  rw [if_neg hblank]
  by_cases hpair : startsPair g.char = true
  · rw [if_pos hpair]
    refine ⟨hstop, fun a ha => hopen a (Option.some.inj ha).symm, ?_, nofun, hs.tokens⟩
    intro a c h
    cases h
    show s.pos + g.width = s.pos + 1
    rw [hw hpair]
  rw [if_neg hpair]
  cases hk : sign? g.char with
  | some k => exact hs.emit hspan hstop (absurd · (sign?_ne_gtEq hk))
  | none =>
    dsimp only
    split
    · exact ⟨hstop, fun a ha => hopen a (Option.some.inj ha).symm, nofun, nofun, hs.tokens⟩
    split
    · exact ⟨hstop, fun a ha => hopen a (Option.some.inj ha).symm, nofun, nofun, hs.tokens⟩
    split
    · exact ⟨hstop, fun a ha => hopen a (Option.some.inj ha).symm, nofun, nofun, hs.tokens⟩
    · exact hspan

theorem restart (hstop : offsets (s.pos + g.width))
    (hw : startsPair g.char = true → g.width = 1) : StepsOn offsets (restart s g) := by
  have hclose := hs.close
  unfold Lexer.restart
  cases hc : Lexer.close s with
  | error d => rw [hc] at hclose; exact hclose
  | ok t =>
    rw [hc] at hclose
    have ht : t.On offsets := hclose
    have hpos : t.pos = s.pos := (close_cases hc).2.1
    exact ht.start (hpos ▸ hstop) hw

theorem extend {lexeme : Lexeme} (hstop : offsets (s.pos + g.width))
    (hfrom : lexeme.from? = s.lexeme.from?) (hsign : ∀ a c, lexeme ≠ .sign a c)
    (hescape : ∀ a rev, lexeme = .escape a rev → g.width = 1) :
    State.On offsets ⟨lexeme, s.pos + g.width, s.rev⟩ := by
  refine ⟨hstop, fun a ha => ?_, fun a c h => absurd h (hsign a c), fun a rev h => ?_, hs.tokens⟩
  · rw [hfrom] at ha
    obtain ⟨hpos, hon⟩ := hs.opened a ha
    exact ⟨Nat.le_trans hpos (Nat.le_add_right _ _), hon⟩
  · show 0 < s.pos + g.width ∧ offsets (s.pos + g.width - 1)
    rw [hescape a rev h, Nat.add_sub_cancel]
    exact ⟨Nat.succ_pos _, hs.pos⟩

theorem step (hstop : offsets (s.pos + g.width)) (hw : startsPair g.char = true → g.width = 1)
    (hw' : g.char = '\\' → g.width = 1) : StepsOn offsets (step s g) := by
  have hrestart := hs.restart hstop hw
  obtain ⟨lexeme, pos, rev⟩ := s
  have hspan (a : Nat) (ha : a ∈ lexeme.from?) : (Span.between a (pos + g.width)).On offsets :=
    hs.span ha (Nat.le_add_right _ _) hstop
  cases lexeme with
  | gap => exact hs.start hstop hw
  | comment =>
    unfold Lexer.step
    dsimp only
    split
    · exact hs.gap hstop
    · exact ⟨hstop, nofun, nofun, nofun, hs.tokens⟩
  | sign a c =>
    unfold Lexer.step
    dsimp only
    cases hk : pair? c g.char with
    | none => exact hrestart
    | some k =>
      -- The first of the two characters takes one byte, behind which the second begins.
      have hfirst : pos = a + 1 := hs.sign a c rfl
      refine hs.emit (hspan a rfl) hstop fun _ => ?_
      rw [Span.tail_between (by omega)]
      exact ⟨a + 1, pos + g.width, rfl, by omega, hfirst ▸ hs.pos, hstop⟩
  | word a text =>
    unfold Lexer.step
    dsimp only
    split
    · exact hs.extend hstop rfl nofun nofun
    · exact hrestart
  | number a digits =>
    unfold Lexer.step
    dsimp only
    split
    · exact hs.extend hstop rfl nofun nofun
    · exact hrestart
  | text a text =>
    unfold Lexer.step
    dsimp only
    split
    · exact hs.emit (hspan a rfl) hstop (fun h => by cases h)
    · split
      · rename_i hbackslash
        exact hs.extend hstop rfl nofun fun _ _ _ => hw' (by simpa using hbackslash)
      · exact hs.extend hstop rfl nofun nofun
  | escape a text =>
    unfold Lexer.step
    dsimp only
    cases hk : escape? g.char with
    | some c => exact hs.extend hstop rfl nofun nofun
    | none =>
      obtain ⟨hpos, hbackslash⟩ := hs.escape a text rfl
      exact ⟨pos - 1, pos + g.width, rfl, by omega, hbackslash, hstop⟩

theorem foldlM {gs : List Glyph}
    (hgs : ∀ k, offsets (s.pos + (Glyph.text (gs.take k)).length))
    (hw : ∀ g ∈ gs, g.char ≠ '\x00' → g.char.toNat < 0x80 → g.width = 1) :
    StepsOn offsets (gs.foldlM Lexer.step s) := by
  induction gs generalizing s with
  | nil => exact hs
  | cons g gs ih =>
    have hstop : offsets (s.pos + g.width) := by
      have hfirst := hgs 1
      rwa [List.take_succ_cons, List.take_zero, Glyph.text, List.flatMap_singleton] at hfirst
    have hnarrow := hw g List.mem_cons_self
    -- What begins a pair of characters or an escape is ASCII, and takes one byte.
    have hstep := hs.step hstop
      (fun hpair => by
        have hascii : g.char ≠ '\x00' ∧ g.char.toNat < 0x80 := by
          simp only [startsPair, Bool.or_eq_true, beq_iff_eq] at hpair
          rcases hpair with ((((h | h) | h) | h) | h) | h <;> rw [h] <;> decide
        exact hnarrow hascii.1 hascii.2)
      (fun hbackslash => hnarrow (by rw [hbackslash]; decide) (by rw [hbackslash]; decide))
    cases hr : Lexer.step s g with
    | error d =>
      rw [hr] at hstep
      rw [List.foldlM_cons, hr]
      exact hstep
    | ok t =>
      rw [hr] at hstep
      rw [foldlM_cons_of_ok hr]
      refine ih hstep (fun k => ?_) fun g' hg' => hw g' (List.mem_cons_of_mem g hg')
      have hnext := hgs (k + 1)
      rw [List.take_succ_cons, Glyph.text, List.flatMap_cons, List.length_append,
        ← Nat.add_assoc] at hnext
      rw [pos_step hr]
      exact hnext

end State.On
end Lexer

theorem width_of_mem_glyphs {s : Bytes} {g : Glyph} (hg : g ∈ glyphs s) (hc : g.char ≠ '\x00')
    (hlow : g.char.toNat < 0x80) : g.width = 1 := by
  induction s using induction_glyphs with
  | nil => cases hg
  | cons b rest ih =>
    rw [glyphs_cons] at hg
    rcases List.mem_cons.1 hg with rfl | hg
    · have hcode := Glyph.toNat_eq_of_decode rfl hc hlow
      have hb : b < 0x80 := by
        rw [UInt8.lt_iff_toNat_lt, hcode]
        exact hlow
      rw [Glyph.decode_of_lt hb]
      rfl
    · exact ih hg

namespace Token

/-- What the scanner finds in a text lies between its characters, be it tokens or a fault. -/
theorem on_boundary_of_lex (src : Bytes) :
    (∀ ts, lex src = .ok ts → ∀ t ∈ ts, t.On src.Boundary) ∧
      ∀ d, lex src = .error d → d.span.On src.Boundary := by
  have hread : Lexer.StepsOn src.Boundary ((glyphs src).foldlM Lexer.step .initial) := by
    refine (Lexer.State.On.initial (.zero src)).foldlM (fun k => ⟨k, ?_⟩)
      fun g hg => width_of_mem_glyphs hg
    exact (Nat.zero_add _).symm
  constructor
  · intro ts hts t ht
    obtain ⟨u, w, hu, hw, rfl⟩ := exists_of_lexFrom hts
    rw [hu] at hread
    have hlast : Lexer.StepsOn src.Boundary (Lexer.close u) := Lexer.State.On.close hread
    rw [hw] at hlast
    rcases List.mem_append.1 ht with ht | ht
    · exact hlast.tokens t (List.mem_reverse.1 ht)
    · cases List.mem_singleton.1 ht
      exact ⟨⟨w.pos, w.pos, rfl, Nat.le_refl _, hlast.pos, hlast.pos⟩, nofun⟩
  · intro d hd
    unfold lex lexFrom at hd
    cases hu : (glyphs src).foldlM Lexer.step .initial with
    | error d' =>
      rw [hu] at hread hd
      cases hd
      exact hread
    | ok u =>
      rw [hu] at hread hd
      have hlast : Lexer.StepsOn src.Boundary (Lexer.close u) := Lexer.State.On.close hread
      change (do let s ← Lexer.close u
                 return (⟨.eof, [], .between s.pos s.pos⟩ :: s.rev).reverse) =
        (Except.error d : Except Diagnostic (List Token)) at hd
      cases hw : Lexer.close u with
      | error d' =>
        rw [hw] at hlast hd
        cases hd
        exact hlast
      | ok w => rw [hw] at hd; cases hd

end Token
end Scriptlet
