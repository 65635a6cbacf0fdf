import Mathlib.Data.List.Basic
import Scriptlet.Proofs.Lexing.Glyphs

/-!
# Encoding: characters as UTF-8 and back

The bytes of a character, wherever they stand in a text, are read as that character. Conversely a
glyph is a byte that no sequence begins with, or the bytes of its character. So a text is well formed
exactly if it is the bytes of some characters, one after the other.
-/

namespace Scriptlet

namespace Glyph

/-! ## From characters to bytes -/

/-- The bytes of a character, by the size of its code. -/
theorem encodeChar_eq (c : Char) :
    encodeChar c =
      if c.toNat ≤ 0x7F then [.ofNat c.toNat]
      else if c.toNat ≤ 0x7FF then [.ofNat (c.toNat / 64 % 32 + 0xC0), .ofNat (c.toNat % 64 + 0x80)]
      else if c.toNat ≤ 0xFFFF then
        [.ofNat (c.toNat / 4096 % 16 + 0xE0), .ofNat (c.toNat / 64 % 64 + 0x80),
          .ofNat (c.toNat % 64 + 0x80)]
      else
        [.ofNat (c.toNat / 262144 % 8 + 0xF0), .ofNat (c.toNat / 4096 % 64 + 0x80),
          .ofNat (c.toNat / 64 % 64 + 0x80), .ofNat (c.toNat % 64 + 0x80)] := rfl

theorem isValidChar_toNat (c : Char) : c.toNat < 0xD800 ∨ 0xDFFF < c.toNat ∧ c.toNat < 0x110000 :=
  c.valid

/-- A byte computed from a small number is that number. -/
theorem toNat_ofNat_of_lt {n : Nat} (h : n < 256) : (UInt8.ofNat n).toNat = n := by
  rw [UInt8.toNat_ofNat']
  exact Nat.mod_eq_of_lt h

theorem continues_ofNat {n : Nat} (h : n < 64) : continues (.ofNat (n + 0x80)) = true := by
  simp only [continues, Bool.and_eq_true, decide_eq_true_eq, UInt8.le_iff_toNat_le,
    toNat_ofNat_of_lt (show n + 0x80 < 256 by omega), UInt8.reduceToNat]
  omega

theorem low_ofNat {n : Nat} (h : n < 64) : low (.ofNat (n + 0x80)) = n := by
  rw [low, toNat_ofNat_of_lt (by omega)]
  omega

theorem decode_pair {b₀ b₁ : UInt8} (h : isPair b₀ b₁ = true) (rest : Bytes) :
    decode b₀ (b₁ :: rest) = decode.pair b₀ b₁ := by
  have hascii : ¬ b₀ < 0x80 := by
    simp only [isPair, Bool.and_eq_true, decide_eq_true_eq, UInt8.le_iff_toNat_le,
      UInt8.reduceToNat] at h
    simp only [UInt8.lt_iff_toNat_lt, UInt8.reduceToNat]
    omega
  unfold decode
  rw [if_neg hascii]
  rcases rest with _ | ⟨b₂, _ | ⟨b₃, rest⟩⟩ <;> exact if_pos h

theorem decode_triple {b₀ b₁ b₂ : UInt8} (h : isTriple b₀ b₁ b₂ = true) (rest : Bytes) :
    decode b₀ (b₁ :: b₂ :: rest) = decode.triple b₀ b₁ b₂ := by
  have hlead : 0xE0 ≤ b₀.toNat := by
    simp only [isTriple, Bool.and_eq_true, decide_eq_true_eq, UInt8.le_iff_toNat_le,
      UInt8.reduceToNat] at h
    omega
  have hascii : ¬ b₀ < 0x80 := by
    simp only [UInt8.lt_iff_toNat_lt, UInt8.reduceToNat]
    omega
  have hpair : isPair b₀ b₁ = false := by
    have hle : decide (b₀ ≤ 0xDF) = false := by
      simp only [decide_eq_false_iff_not, UInt8.le_iff_toNat_le, UInt8.reduceToNat]
      omega
    rw [isPair, hle, Bool.and_false, Bool.false_and]
  unfold decode
  rw [if_neg hascii]
  rcases rest with _ | ⟨b₃, rest⟩
  · dsimp only
    rw [hpair, h]
    rfl
  · dsimp only
    rw [hpair, h]
    rfl

theorem decode_quad {b₀ b₁ b₂ b₃ : UInt8} (h : isQuad b₀ b₁ b₂ b₃ = true) (rest : Bytes) :
    decode b₀ (b₁ :: b₂ :: b₃ :: rest) =
      ⟨Char.ofNat (b₀.toNat % 8 * 262144 + low b₁ * 4096 + low b₂ * 64 + low b₃),
        [b₀, b₁, b₂, b₃]⟩ := by
  have hlead : 0xF0 ≤ b₀.toNat := by
    simp only [isQuad, Bool.and_eq_true, decide_eq_true_eq, UInt8.le_iff_toNat_le,
      UInt8.reduceToNat] at h
    omega
  have hascii : ¬ b₀ < 0x80 := by
    simp only [UInt8.lt_iff_toNat_lt, UInt8.reduceToNat]
    omega
  have hbeyond {n : UInt8} (hn : n.toNat < 0xF0) : decide (b₀ ≤ n) = false := by
    rw [decide_eq_false_iff_not, UInt8.le_iff_toNat_le]
    omega
  have hpair : isPair b₀ b₁ = false := by
    rw [isPair, hbeyond (by decide), Bool.and_false, Bool.false_and]
  have htriple : isTriple b₀ b₁ b₂ = false := by
    simp only [isTriple, hbeyond (show (0xEF : UInt8).toNat < 0xF0 by decide), Bool.and_false,
      Bool.false_and]
  unfold decode
  rw [if_neg hascii]
  dsimp only
  rw [hpair, htriple, h]
  rfl

/-- The bytes of a character are read as that character, whatever follows. -/
theorem decode_encodeChar (c : Char) (rest : Bytes) :
    ∃ b t, encodeChar c = b :: t ∧ decode b (t ++ rest) = ⟨c, encodeChar c⟩ := by
  have hvalid := isValidChar_toNat c
  have hchar {n : Nat} (hn : n = c.toNat) : Char.ofNat n = c := by rw [hn, Char.ofNat_toNat]
  rw [encodeChar_eq]
  by_cases h₁ : c.toNat ≤ 0x7F
  · rw [if_pos h₁]
    have hnat := toNat_ofNat_of_lt (show c.toNat < 256 by omega)
    have hascii : UInt8.ofNat c.toNat < 0x80 := by
      simp only [UInt8.lt_iff_toNat_lt, hnat, UInt8.reduceToNat]
      omega
    refine ⟨_, [], rfl, ?_⟩
    rw [decode_of_lt hascii, hchar hnat]
  rw [if_neg h₁]
  by_cases h₂ : c.toNat ≤ 0x7FF
  · rw [if_pos h₂]
    have hlead := toNat_ofNat_of_lt (show c.toNat / 64 % 32 + 0xC0 < 256 by omega)
    have hpair :
        isPair (.ofNat (c.toNat / 64 % 32 + 0xC0)) (.ofNat (c.toNat % 64 + 0x80)) = true := by
      simp only [isPair, continues_ofNat (show c.toNat % 64 < 64 by omega), Bool.and_true,
        Bool.and_eq_true, decide_eq_true_eq, UInt8.le_iff_toNat_le, hlead, UInt8.reduceToNat]
      omega
    refine ⟨_, _, rfl, ?_⟩
    rw [List.cons_append, decode_pair hpair, decode.pair, hlead, low_ofNat (by omega),
      hchar (by omega)]
  rw [if_neg h₂]
  by_cases h₃ : c.toNat ≤ 0xFFFF
  · rw [if_pos h₃]
    have hlead := toNat_ofNat_of_lt (show c.toNat / 4096 % 16 + 0xE0 < 256 by omega)
    have hnext := toNat_ofNat_of_lt (show c.toNat / 64 % 64 + 0x80 < 256 by omega)
    have htriple : isTriple (.ofNat (c.toNat / 4096 % 16 + 0xE0))
        (.ofNat (c.toNat / 64 % 64 + 0x80)) (.ofNat (c.toNat % 64 + 0x80)) = true := by
      simp only [isTriple, continues_ofNat (show c.toNat % 64 < 64 by omega),
        continues_ofNat (show c.toNat / 64 % 64 < 64 by omega), Bool.and_true, Bool.and_eq_true,
        Bool.or_eq_true, bne_iff_ne, ne_eq, ← UInt8.toNat_inj, decide_eq_true_eq,
        UInt8.le_iff_toNat_le, hlead, hnext, UInt8.reduceToNat]
      omega
    refine ⟨_, _, rfl, ?_⟩
    rw [List.cons_append, List.cons_append, decode_triple htriple, decode.triple, hlead,
      low_ofNat (by omega), low_ofNat (by omega), hchar (by omega)]
  · rw [if_neg h₃]
    have hlead := toNat_ofNat_of_lt (show c.toNat / 262144 % 8 + 0xF0 < 256 by omega)
    have hnext := toNat_ofNat_of_lt (show c.toNat / 4096 % 64 + 0x80 < 256 by omega)
    have hquad : isQuad (.ofNat (c.toNat / 262144 % 8 + 0xF0))
        (.ofNat (c.toNat / 4096 % 64 + 0x80)) (.ofNat (c.toNat / 64 % 64 + 0x80))
        (.ofNat (c.toNat % 64 + 0x80)) = true := by
      simp only [isQuad, continues_ofNat (show c.toNat % 64 < 64 by omega),
        continues_ofNat (show c.toNat / 64 % 64 < 64 by omega),
        continues_ofNat (show c.toNat / 4096 % 64 < 64 by omega), Bool.and_true, Bool.and_eq_true,
        Bool.or_eq_true, bne_iff_ne, ne_eq, ← UInt8.toNat_inj, decide_eq_true_eq,
        UInt8.le_iff_toNat_le, hlead, hnext, UInt8.reduceToNat]
      omega
    refine ⟨_, _, rfl, ?_⟩
    rw [List.cons_append, List.cons_append, List.cons_append, decode_quad hquad, hlead,
      low_ofNat (by omega), low_ofNat (by omega), low_ofNat (by omega), hchar (by omega)]

/-! ## From bytes to characters -/

theorem toNat_ofNat_of_valid {n : Nat} (h : n < 0xD800 ∨ 0xDFFF < n ∧ n < 0x110000) :
    (Char.ofNat n).toNat = n := by
  rw [Char.ofNat, dif_pos h]
  rfl

/-- An ASCII character is its own byte. -/
theorem encodeChar_of_lt {b : UInt8} (hb : b < 0x80) : encodeChar (Char.ofNat b.toNat) = [b] := by
  simp only [UInt8.lt_iff_toNat_lt, UInt8.reduceToNat] at hb
  have hcode : (Char.ofNat b.toNat).toNat = b.toNat := toNat_ofNat_of_valid (by omega)
  rw [encodeChar_eq, hcode, if_pos (by omega), UInt8.ofNat_toNat]

theorem ofNat_eq {n : Nat} {b : UInt8} (h : n = b.toNat) : UInt8.ofNat n = b := by
  rw [h, UInt8.ofNat_toNat]

theorem bytes_pair {b₀ b₁ : UInt8} (h : isPair b₀ b₁ = true) :
    (decode.pair b₀ b₁).bytes = encodeChar (decode.pair b₀ b₁).char := by
  simp only [isPair, continues, Bool.and_eq_true, decide_eq_true_eq, UInt8.le_iff_toNat_le,
    UInt8.reduceToNat] at h
  have hcode : (Char.ofNat (b₀.toNat % 32 * 64 + low b₁)).toNat = b₀.toNat % 32 * 64 + low b₁ :=
    toNat_ofNat_of_valid (by unfold low; omega)
  rw [decode.pair, encodeChar_eq, hcode]
  unfold low
  rw [if_neg (by omega), if_pos (by omega), ofNat_eq (b := b₀) (by omega),
    ofNat_eq (b := b₁) (by omega)]

theorem bytes_triple {b₀ b₁ b₂ : UInt8} (h : isTriple b₀ b₁ b₂ = true) :
    (decode.triple b₀ b₁ b₂).bytes = encodeChar (decode.triple b₀ b₁ b₂).char := by
  simp only [isTriple, continues, Bool.and_eq_true, Bool.or_eq_true, decide_eq_true_eq,
    bne_iff_ne, ne_eq, ← UInt8.toNat_inj, UInt8.le_iff_toNat_le, UInt8.reduceToNat] at h
  have hcode : (Char.ofNat (b₀.toNat % 16 * 4096 + low b₁ * 64 + low b₂)).toNat =
      b₀.toNat % 16 * 4096 + low b₁ * 64 + low b₂ := toNat_ofNat_of_valid (by unfold low; omega)
  rw [decode.triple, encodeChar_eq, hcode]
  unfold low
  rw [if_neg (by omega), if_neg (by omega), if_pos (by omega), ofNat_eq (b := b₀) (by omega),
    ofNat_eq (b := b₁) (by omega), ofNat_eq (b := b₂) (by omega)]

theorem bytes_quad {b₀ b₁ b₂ b₃ : UInt8} (h : isQuad b₀ b₁ b₂ b₃ = true) :
    [b₀, b₁, b₂, b₃] = encodeChar
      (Char.ofNat (b₀.toNat % 8 * 262144 + low b₁ * 4096 + low b₂ * 64 + low b₃)) := by
  simp only [isQuad, continues, Bool.and_eq_true, Bool.or_eq_true, decide_eq_true_eq,
    bne_iff_ne, ne_eq, ← UInt8.toNat_inj, UInt8.le_iff_toNat_le, UInt8.reduceToNat] at h
  have hcode : (Char.ofNat (b₀.toNat % 8 * 262144 + low b₁ * 4096 + low b₂ * 64 + low b₃)).toNat =
      b₀.toNat % 8 * 262144 + low b₁ * 4096 + low b₂ * 64 + low b₃ :=
    toNat_ofNat_of_valid (by unfold low; omega)
  rw [encodeChar_eq, hcode]
  unfold low
  rw [if_neg (by omega), if_neg (by omega), if_neg (by omega), ofNat_eq (b := b₀) (by omega),
    ofNat_eq (b := b₁) (by omega), ofNat_eq (b := b₂) (by omega), ofNat_eq (b := b₃) (by omega)]

/-- A glyph is a malformed byte beyond ASCII, or the bytes of its character. -/
theorem bytes_decode_eq (b : UInt8) (rest : Bytes) :
    (decode b rest = malformed b ∧ 0x80 ≤ b) ∨
      (decode b rest).bytes = encodeChar (decode b rest).char := by
  by_cases hascii : b < 0x80
  · rw [decode_of_lt hascii]
    exact .inr (encodeChar_of_lt hascii).symm
  · have hhigh : 0x80 ≤ b := UInt8.not_lt.1 hascii
    unfold decode
    rw [if_neg hascii]
    split
    · split
      · exact .inr (bytes_pair ‹_›)
      · split
        · exact .inr (bytes_triple ‹_›)
        · split
          · exact .inr (bytes_quad ‹_›)
          · exact .inl ⟨rfl, hhigh⟩
    · split
      · exact .inr (bytes_pair ‹_›)
      · split
        · exact .inr (bytes_triple ‹_›)
        · exact .inl ⟨rfl, hhigh⟩
    · split
      · exact .inr (bytes_pair ‹_›)
      · exact .inl ⟨rfl, hhigh⟩
    · exact .inl ⟨rfl, hhigh⟩

end Glyph

/-! ## Texts -/

open Glyph

/-- The characters as a text. -/
def encode (cs : List Char) : Bytes := cs.flatMap encodeChar

/-- The glyph of a character that is written out. -/
def Glyph.ofChar (c : Char) : Glyph := ⟨c, encodeChar c⟩

theorem glyphs_encodeChar_append (c : Char) (rest : Bytes) :
    glyphs (encodeChar c ++ rest) = ofChar c :: glyphs rest := by
  obtain ⟨b, t, hbytes, hdecode⟩ := decode_encodeChar c rest
  have hwidth : (ofChar c).width = t.length + 1 := by
    show (encodeChar c).length = _
    rw [hbytes, List.length_cons]
  rw [hbytes, List.cons_append, glyphs_cons, hdecode]
  show ofChar c :: glyphs ((t ++ rest).drop ((ofChar c).width - 1)) = _
  rw [hwidth, Nat.add_sub_cancel, List.drop_left]

/-- Written out characters are read as those characters. -/
theorem glyphs_encode (cs : List Char) : glyphs (encode cs) = cs.map ofChar := by
  induction cs with
  | nil => rfl
  | cons c cs ih =>
    rw [encode, List.flatMap_cons, glyphs_encodeChar_append, List.map_cons]
    exact congrArg _ ih

theorem mem_glyphs_eq {s : Bytes} {g : Glyph} (hg : g ∈ glyphs s) :
    (∃ b, g = malformed b ∧ 0x80 ≤ b) ∨ g = ofChar g.char := by
  induction s using induction_glyphs with
  | nil => cases hg
  | cons b rest ih =>
    rw [glyphs_cons] at hg
    rcases List.mem_cons.1 hg with rfl | hg
    · rcases bytes_decode_eq b rest with ⟨h, hhigh⟩ | h
      · exact .inl ⟨b, h, hhigh⟩
      · refine .inr ?_
        show (⟨(decode b rest).char, (decode b rest).bytes⟩ : Glyph) = _
        rw [h]
        rfl
    · exact ih hg

/-- A glyph with a character of its own is the bytes of that character. -/
theorem eq_ofChar_of_mem_glyphs {s : Bytes} {g : Glyph} (hg : g ∈ glyphs s)
    (hc : g.char ≠ replacement) : g = ofChar g.char := by
  rcases mem_glyphs_eq hg with ⟨b, rfl, -⟩ | h
  · exact absurd rfl hc
  · exact h

/-- The bytes of a longer sequence are beyond ASCII. -/
theorem le_of_mem_encodeChar {c : Char} (hc : 0x7F < c.toNat) {b : UInt8} (hb : b ∈ encodeChar c) :
    0x80 ≤ b := by
  have hbyte {n : Nat} (hlow : 0x80 ≤ n) (hhigh : n < 256) : 0x80 ≤ UInt8.ofNat n := by
    simp only [UInt8.le_iff_toNat_le, toNat_ofNat_of_lt hhigh, UInt8.reduceToNat]
    exact hlow
  rw [encodeChar_eq, if_neg (by omega)] at hb
  split at hb
  · simp only [List.mem_cons, List.not_mem_nil, or_false] at hb
    rcases hb with rfl | rfl
    · exact hbyte (by omega) (by omega)
    · exact hbyte (by omega) (by omega)
  · split at hb
    · simp only [List.mem_cons, List.not_mem_nil, or_false] at hb
      rcases hb with rfl | rfl | rfl
      · exact hbyte (by omega) (by omega)
      · exact hbyte (by omega) (by omega)
      · exact hbyte (by omega) (by omega)
    · simp only [List.mem_cons, List.not_mem_nil, or_false] at hb
      rcases hb with rfl | rfl | rfl | rfl
      · exact hbyte (by omega) (by omega)
      · exact hbyte (by omega) (by omega)
      · exact hbyte (by omega) (by omega)
      · exact hbyte (by omega) (by omega)

/-- An ASCII byte is a glyph by itself. -/
theorem eq_of_mem_bytes {s : Bytes} {g : Glyph} (hg : g ∈ glyphs s) {b : UInt8}
    (hb : b ∈ g.bytes) (hascii : b < 0x80) : g = ⟨Char.ofNat b.toNat, [b]⟩ := by
  have hlow : ¬ 0x80 ≤ b := UInt8.not_le.2 hascii
  rcases mem_glyphs_eq hg with ⟨b', rfl, hhigh⟩ | hchar
  · cases List.mem_singleton.1 hb
    exact absurd hhigh hlow
  · rw [hchar] at hb ⊢
    have hcode : g.char.toNat ≤ 0x7F :=
      Nat.not_lt.1 fun hlarge => hlow (le_of_mem_encodeChar hlarge hb)
    have hbytes : encodeChar g.char = [.ofNat g.char.toNat] := by
      rw [encodeChar_eq, if_pos hcode]
    have hbyte : b = .ofNat g.char.toNat := by
      rw [ofChar, hbytes] at hb
      exact List.mem_singleton.1 hb
    have hnat : b.toNat = g.char.toNat := by rw [hbyte, toNat_ofNat_of_lt (by omega)]
    rw [ofChar, hbytes, ← hbyte, hnat, Char.ofNat_toNat]

/-- A text is well formed exactly if it is characters that were written out. -/
theorem isUtf8_iff {s : Bytes} : isUtf8 s = true ↔ ∃ cs, s = encode cs := by
  constructor
  · intro h
    refine ⟨(glyphs s).map Glyph.char, ?_⟩
    have hall : ∀ g ∈ glyphs s, g.bytes = encodeChar g.char := by
      intro g hg
      rcases mem_glyphs_eq hg with ⟨b, rfl, -⟩ | hchar
      · -- A malformed byte is what a well-formed text has none of.
        have hwell := List.all_eq_true.1 h _ hg
        cases hwell
      · exact congrArg Glyph.bytes hchar
    rw [encode, List.flatMap_map]
    exact (flatMap_bytes_glyphs s).symm.trans (List.flatMap_congr hall)
  · rintro ⟨cs, rfl⟩
    rw [isUtf8, glyphs_encode, List.all_eq_true]
    intro g hg
    obtain ⟨c, -, rfl⟩ := List.mem_map.1 hg
    -- U+FFFD itself takes three bytes.
    by_cases hc : c = replacement
    · subst hc
      decide
    · simp only [isMalformed, ofChar, beq_false_of_ne hc, Bool.false_and, Bool.not_false]

end Scriptlet
