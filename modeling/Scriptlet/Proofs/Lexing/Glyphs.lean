import Scriptlet.Text.Blank

/-!
# Glyphs: decoding piece by piece

A glyph is found by looking at its first byte and at the continuation bytes behind it, and never
further. So a text can be cut before any byte that is no continuation byte: the two parts decode to
what the whole decodes to.
-/

namespace Scriptlet

namespace Glyph

/-- Decoding looks no further than the continuation bytes. -/
theorem decode_takeWhile (b : UInt8) (rest : Bytes) :
    decode b (rest.takeWhile continues) = decode b rest := by
  unfold decode
  by_cases hascii : b < 0x80
  · rw [if_pos hascii, if_pos hascii]
  · rw [if_neg hascii, if_neg hascii]
    -- At most three bytes are looked at, and one that is no continuation byte fits no sequence.
    rcases rest with _ | ⟨b₁, _ | ⟨b₂, _ | ⟨b₃, rest⟩⟩⟩
    · rfl
    · cases h₁ : continues b₁ with
      | true => simp [h₁]
      | false => simp [h₁, isPair]
    · cases h₁ : continues b₁ with
      | false => simp [h₁, isPair, isTriple]
      | true =>
        cases h₂ : continues b₂ with
        | true => simp [h₁, h₂]
        | false => simp [h₁, h₂, isTriple]
    · cases h₁ : continues b₁ with
      | false => simp [h₁, isPair, isTriple, isQuad]
      | true =>
        cases h₂ : continues b₂ with
        | false => simp [h₁, h₂, isTriple, isQuad]
        | true =>
          cases h₃ : continues b₃ with
          | true => simp [h₁, h₂, h₃]
          | false => simp [h₁, h₂, h₃, isQuad]

theorem decode_congr (b : UInt8) {rest rest' : Bytes}
    (h : rest'.takeWhile continues = rest.takeWhile continues) :
    decode b rest' = decode b rest := by
  rw [← decode_takeWhile b rest', ← decode_takeWhile b rest, h]

/-- A glyph is its first byte with some of the bytes behind it. -/
theorem bytes_decode (b : UInt8) (rest : Bytes) :
    ∃ k, k ≤ rest.length ∧ (decode b rest).bytes = b :: rest.take k := by
  unfold decode
  split
  · exact ⟨0, Nat.zero_le _, rfl⟩
  · split
    · split
      · exact ⟨1, by simp, rfl⟩
      · split
        · exact ⟨2, by simp, rfl⟩
        · split
          · exact ⟨3, by simp, rfl⟩
          · exact ⟨0, by simp, rfl⟩
    · split
      · exact ⟨1, by simp, rfl⟩
      · split
        · exact ⟨2, by simp, rfl⟩
        · exact ⟨0, by simp, rfl⟩
    · split
      · exact ⟨1, by simp, rfl⟩
      · exact ⟨0, by simp, rfl⟩
    · exact ⟨0, by simp, rfl⟩

theorem width_decode_pos (b : UInt8) (rest : Bytes) : 0 < (decode b rest).width := by
  obtain ⟨k, -, hk⟩ := bytes_decode b rest
  unfold width
  rw [hk]
  exact Nat.succ_pos _

theorem width_decode_le (b : UInt8) (rest : Bytes) :
    (decode b rest).width ≤ (rest.takeWhile continues).length + 1 := by
  obtain ⟨k, hle, hk⟩ := bytes_decode b (rest.takeWhile continues)
  rw [decode_takeWhile] at hk
  unfold width
  rw [hk, List.length_cons, List.length_take]
  omega

/-- A continuation byte begins no well-formed sequence. -/
theorem decode_of_continues {b : UInt8} (h : continues b = true) (rest : Bytes) :
    decode b rest = malformed b := by
  simp only [continues, Bool.and_eq_true, decide_eq_true_eq, UInt8.le_iff_toNat_le] at h
  obtain ⟨hlow, hhigh⟩ := h
  have hascii : ¬ b < 0x80 := by rw [UInt8.lt_iff_toNat_lt]; exact Nat.not_lt.2 hlow
  -- The first byte of a sequence of two, three or four is beyond the continuation bytes.
  have hbelow {n : UInt8} (hn : (0xBF : UInt8).toNat < n.toNat) : decide (n ≤ b) = false := by
    rw [decide_eq_false_iff_not, UInt8.le_iff_toNat_le]
    omega
  have hpair (b₁ : UInt8) : isPair b b₁ = false := by
    rw [isPair, hbelow (by decide), Bool.false_and, Bool.false_and]
  have htriple (b₁ b₂ : UInt8) : isTriple b b₁ b₂ = false := by
    simp only [isTriple, hbelow (show (0xBF : UInt8).toNat < (0xE0 : UInt8).toNat by decide),
      Bool.false_and]
  have hquad (b₁ b₂ b₃ : UInt8) : isQuad b b₁ b₂ b₃ = false := by
    simp only [isQuad, hbelow (show (0xBF : UInt8).toNat < (0xF0 : UInt8).toNat by decide),
      Bool.false_and]
  unfold decode
  rw [if_neg hascii]
  split <;> simp only [hpair, htriple, hquad, Bool.false_eq_true, if_false]

/-! ## ASCII characters -/

theorem eq_toNat_of_ofNat {n : Nat} {c : Char} (h : Char.ofNat n = c) (hc : c ≠ '\x00') :
    n = c.toNat := by
  unfold Char.ofNat at h
  by_cases hn : n.isValidChar
  · rw [dif_pos hn] at h
    exact congrArg Char.toNat h
  · rw [dif_neg hn] at h
    exact absurd h.symm hc

theorem le_of_isPair {b b₁ : UInt8} (h : isPair b b₁ = true) :
    0x80 ≤ b.toNat % 32 * 64 + low b₁ := by
  simp only [isPair, Bool.and_eq_true, decide_eq_true_eq, UInt8.le_iff_toNat_le,
    UInt8.reduceToNat] at h
  omega

theorem le_of_isTriple {b b₁ b₂ : UInt8} (h : isTriple b b₁ b₂ = true) :
    0x80 ≤ b.toNat % 16 * 4096 + low b₁ * 64 + low b₂ := by
  unfold low
  simp only [isTriple, continues, Bool.and_eq_true, Bool.or_eq_true, decide_eq_true_eq,
    bne_iff_ne, ne_eq, ← UInt8.toNat_inj, UInt8.le_iff_toNat_le, UInt8.reduceToNat] at h
  omega

theorem le_of_isQuad {b b₁ b₂ b₃ : UInt8} (h : isQuad b b₁ b₂ b₃ = true) :
    0x80 ≤ b.toNat % 8 * 262144 + low b₁ * 4096 + low b₂ * 64 + low b₃ := by
  unfold low
  simp only [isQuad, continues, Bool.and_eq_true, Bool.or_eq_true, decide_eq_true_eq,
    bne_iff_ne, ne_eq, ← UInt8.toNat_inj, UInt8.le_iff_toNat_le, UInt8.reduceToNat] at h
  omega

/-- An ASCII character is read from its own byte only. -/
theorem toNat_eq_of_decode {b : UInt8} {rest : Bytes} {c : Char} (h : (decode b rest).char = c)
    (hc : c ≠ '\x00') (hlow : c.toNat < 0x80) : b.toNat = c.toNat := by
  have hmalformed : (malformed b).char ≠ c := by
    intro hchar
    rw [← hchar] at hlow
    exact absurd hlow (show ¬ replacement.toNat < 0x80 by decide)
  -- A longer sequence would stand for a larger code.
  have hlarge {n : Nat} (hn : 0x80 ≤ n) : Char.ofNat n ≠ c := by
    intro hchar
    have hcode := eq_toNat_of_ofNat hchar hc
    omega
  unfold decode at h
  split at h
  · exact eq_toNat_of_ofNat h hc
  · exfalso
    split at h
    · split at h
      · exact hlarge (le_of_isPair ‹_›) h
      · split at h
        · exact hlarge (le_of_isTriple ‹_›) h
        · split at h
          · exact hlarge (le_of_isQuad ‹_›) h
          · exact hmalformed h
    · split at h
      · exact hlarge (le_of_isPair ‹_›) h
      · split at h
        · exact hlarge (le_of_isTriple ‹_›) h
        · exact hmalformed h
    · split at h
      · exact hlarge (le_of_isPair ‹_›) h
      · exact hmalformed h
    · exact hmalformed h

theorem decode_of_lt {b : UInt8} (h : b < 0x80) (rest : Bytes) :
    decode b rest = ⟨Char.ofNat b.toNat, [b]⟩ := if_pos h

/-! ## The end of a text -/

/-- Decoding looks no further than the glyph it finds. -/
theorem decode_take {b : UInt8} {rest : Bytes} {k : Nat} (h : (decode b rest).width ≤ k + 1) :
    decode b (rest.take k) = decode b rest := by
  by_cases hascii : b < 0x80
  · rw [decode_of_lt hascii, decode_of_lt hascii]
  · unfold decode at h ⊢
    rw [if_neg hascii] at h ⊢
    rw [if_neg hascii]
    -- At most three bytes are looked at. A cut before the last of them leaves no sequence that was
    -- not there, as the glyph is within the cut.
    rcases rest with _ | ⟨b₁, _ | ⟨b₂, _ | ⟨b₃, rest⟩⟩⟩
    · rw [List.take_nil]
    all_goals rcases k with _ | _ | _ | k
    all_goals simp only [List.take_zero, List.take_succ_cons, List.take_nil] at h ⊢
    all_goals grind [width, decode.pair, decode.triple]

end Glyph

open Glyph

theorem glyphsOnto_eq (k : Nat) (s : Bytes) (found : List Glyph) :
    glyphsOnto k s found = found.reverse ++ glyphs (s.drop k) := by
  induction s generalizing k found with
  | nil =>
    rw [glyphsOnto, List.drop_nil]
    exact (List.append_nil _).symm
  | cons b rest ih =>
    cases k with
    | succ k => rw [glyphsOnto, ih, List.drop_succ_cons]
    | zero =>
      unfold glyphs
      rw [List.drop_zero, glyphsOnto, glyphsOnto, ih, ih, List.reverse_cons, List.append_assoc]
      rfl

/-- The decoding of a text is its first glyph and the decoding of what follows it. -/
theorem glyphs_cons (b : UInt8) (rest : Bytes) :
    glyphs (b :: rest) = decode b rest :: glyphs (rest.drop ((decode b rest).width - 1)) := by
  unfold glyphs
  rw [glyphsOnto, glyphsOnto_eq]
  rfl

/-- Glyph by glyph, what holds of a text behind its first glyph is carried to the text. -/
@[elab_as_elim]
theorem induction_glyphs {P : Bytes → Prop} (nil : P [])
    (cons : ∀ b rest, P (rest.drop ((decode b rest).width - 1)) → P (b :: rest)) (s : Bytes) :
    P s := by
  induction hn : s.length using Nat.strongRecOn generalizing s with
  | ind n ih =>
    cases s with
    | nil => exact nil
    | cons b rest =>
      refine cons b rest (ih _ ?_ _ rfl)
      rw [List.length_drop]
      rw [List.length_cons] at hn
      omega

/-- The text begins with no continuation byte. -/
def Bytes.Fresh (u : Bytes) : Prop := ∀ b ∈ u.head?, continues b = false

theorem takeWhile_append_of_fresh {u : Bytes} (hu : u.Fresh) (t : Bytes) :
    (t ++ u).takeWhile continues = t.takeWhile continues := by
  induction t with
  | nil =>
    cases u with
    | nil => rfl
    | cons b u =>
      have hb : continues b = false := hu b rfl
      simp [hb]
  | cons c t ih =>
    rw [List.cons_append, List.takeWhile_cons, List.takeWhile_cons, ih]

/-- A text can be decoded in two parts, cut before any byte that is no continuation byte. -/
theorem glyphs_append {u : Bytes} (hu : u.Fresh) (t : Bytes) :
    glyphs (t ++ u) = glyphs t ++ glyphs u := by
  induction t using induction_glyphs with
  | nil => rfl
  | cons b rest ih =>
    have hdecode : decode b (rest ++ u) = decode b rest :=
      decode_congr b (takeWhile_append_of_fresh hu rest)
    -- The first glyph ends before the cut, so what is behind it is cut in the same place.
    have hle : (decode b rest).width - 1 ≤ rest.length := by
      have hwidth := width_decode_le b rest
      have htake := (List.takeWhile_prefix continues (l := rest)).length_le
      omega
    rw [List.cons_append, glyphs_cons, glyphs_cons, hdecode,
      List.drop_append_of_le_length hle, ih, List.cons_append]

theorem width_pos_of_mem_glyphs (s : Bytes) : ∀ g ∈ glyphs s, 0 < g.width := by
  induction s using induction_glyphs with
  | nil => intro g hg; cases hg
  | cons b rest ih =>
    intro g hg
    rw [glyphs_cons] at hg
    rcases List.mem_cons.1 hg with rfl | hg
    · exact width_decode_pos b rest
    · exact ih g hg

/-- Glyphs account for every byte. -/
theorem flatMap_bytes_glyphs (s : Bytes) : (glyphs s).flatMap Glyph.bytes = s := by
  induction s using induction_glyphs with
  | nil => rfl
  | cons b rest ih =>
    obtain ⟨k, hle, hk⟩ := bytes_decode b rest
    have hwidth : (decode b rest).width - 1 = k := by
      unfold width
      rw [hk, List.length_cons, List.length_take]
      omega
    rw [glyphs_cons, List.flatMap_cons, ih, hwidth, hk, List.cons_append, List.take_append_drop]

end Scriptlet
