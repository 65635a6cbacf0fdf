import Mathlib.Tactic.Ring
import Scriptlet.Payload.Reader
import Scriptlet.Proofs.Text.Parts
import Scriptlet.Text.Quoted

/-!
# Quoting: quoted texts can be read back

In a quoted text each glyph of the text is shown by itself or behind a backslash, and what is behind
a backslash tells by its first letter how it goes on. So the glyphs can be read back one after the
other, malformed bytes too, and different texts are quoted differently. A line break is always
escaped, so a quoted text is on one line.
-/

namespace Scriptlet

open Glyph Payload

variable {s t rest : Bytes} {g : Glyph} {c : Char}

/-! ## Hexadecimal digits -/

theorem Bytes.hex_succ (k n : Nat) :
    Bytes.hex (k + 1) n = Bytes.hexDigit (n / 16 ^ k % 16) :: Bytes.hex k n := by
  unfold Bytes.hex
  rw [List.range_succ, List.map_append, List.reverse_append]
  rfl

/-- Hexadecimal digits are read back as the number, as far as it fits them. -/
theorem readHex_hex (k n value : Nat) (rest : Bytes) :
    readHex k value (Bytes.hex k n ++ rest) = .done (value * 16 ^ k + n % 16 ^ k) rest := by
  have hdigit : ∀ d < 16, hexDigit? (Bytes.hexDigit d) = some d := by decide
  induction k generalizing value with
  | zero =>
    rw [Nat.pow_zero, Nat.mul_one, Nat.mod_one]
    rfl
  | succ k ih =>
    rw [Bytes.hex_succ, List.cons_append, readHex, hdigit _ (Nat.mod_lt _ (by decide))]
    dsimp only
    rw [ih, Nat.mod_pow_succ, Nat.pow_succ]
    congr 1
    ring

theorem ne_lineFeed_of_mem_hex {k n : Nat} {b : UInt8} (hb : b ∈ Bytes.hex k n) : b ≠ 10 := by
  have hdigit : ∀ d < 16, Bytes.hexDigit d ≠ 10 := by decide
  obtain ⟨i, -, rfl⟩ := List.mem_map.1 (List.mem_reverse.1 hb)
  exact hdigit _ (Nat.mod_lt _ (by decide))

/-! ## Reading back -/

/-- The control character that the letter stands for behind a backslash. -/
def lettered? (letter : UInt8) : Option Char :=
  match letter with
  | 97 => some (Char.ofNat 7)
  | 98 => some (Char.ofNat 8)
  | 116 => some (Char.ofNat 9)
  | 110 => some (Char.ofNat 10)
  | 118 => some (Char.ofNat 11)
  | 102 => some (Char.ofNat 12)
  | 114 => some (Char.ofNat 13)
  | _ => none

/-- The glyph of a number behind a backslash: in two digits it may be that of a malformed byte. -/
def numbered? (k : Nat) (digits : Bytes) : Option Glyph :=
  match readHex k 0 digits with
  | .done n _ => some (if k = 2 ∧ 128 ≤ n then malformed (.ofNat n) else ofChar (Char.ofNat n))
  | .malformed | .unfinished => none

/-- The glyph that a quoted text shows first. -/
def shown? : Bytes → Option Glyph
  | 92 :: 34 :: _ => some (ofChar '"')
  | 92 :: 92 :: _ => some (ofChar '\\')
  | 92 :: 120 :: digits => numbered? 2 digits
  | 92 :: 117 :: digits => numbered? 4 digits
  | 92 :: 85 :: digits => numbered? 8 digits
  | 92 :: letter :: _ => (lettered? letter).map ofChar
  | t => (glyphs t).head?

theorem numbered?_hex {k n : Nat} (h : n < 16 ^ k) :
    numbered? k (Bytes.hex k n ++ rest) =
      some (if k = 2 ∧ 128 ≤ n then malformed (.ofNat n) else ofChar (Char.ofNat n)) := by
  unfold numbered?
  rw [readHex_hex, Nat.zero_mul, Nat.zero_add, Nat.mod_eq_of_lt h]

theorem shown?_controlLetter {letter : Char} (h : controlLetter c = some letter) :
    shown? (byte '\\' :: byte letter :: rest) = some (ofChar c) := by
  have hchar {n : Nat} (hn : c.toNat = n) : c = Char.ofNat n := by rw [← hn, Char.ofNat_toNat]
  unfold controlLetter at h
  split at h
  all_goals cases h
  all_goals rw [hchar ‹_›]; rfl

/-- A character that stands for itself is not mistaken for an escape. -/
theorem shown?_encodeChar (hc : c ≠ '\\') : shown? (encodeChar c ++ rest) = some (ofChar c) := by
  have hglyphs := glyphs_encodeChar_append c rest
  -- A text that begins with the byte of a backslash begins with a backslash.
  have hne : ∀ t, encodeChar c ++ rest ≠ 92 :: t := by
    intro t ht
    rw [ht, glyphs_cons, decode_of_lt (by decide)] at hglyphs
    exact hc (congrArg Glyph.char (List.cons.inj hglyphs).1).symm
  unfold shown?
  split
  all_goals first
    | exact absurd ‹_› (hne _)
    | rw [hglyphs]; rfl

/-- A character shown by its number in `k` digits. -/
theorem numbered?_char {k : Nat} (hk : c.toNat < 16 ^ k) (hhigh : k = 2 → c.toNat < 128) :
    numbered? k (Bytes.hex k c.toNat ++ rest) = some (ofChar c) := by
  have hsmall : ¬ (k = 2 ∧ 128 ≤ c.toNat) := fun h => Nat.not_le.2 (hhigh h.1) h.2
  rw [numbered?_hex hk, if_neg hsmall, Char.ofNat_toNat]

/-- What a character is quoted as shows the character. -/
theorem shown?_quoteChar : shown? (quoteChar '"' c ++ rest) = some (ofChar c) := by
  have hvalid := isValidChar_toNat c
  unfold quoteChar
  split
  · rename_i hbacked
    simp only [Bool.or_eq_true, beq_iff_eq] at hbacked
    rcases hbacked with rfl | rfl
    · rfl
    · rfl
  rename_i hbacked
  split
  · exact shown?_encodeChar fun h => hbacked (by simp [h])
  split
  · exact shown?_controlLetter ‹_›
  split
  · rename_i hcontrol
    simp only [Bool.or_eq_true, decide_eq_true_eq, beq_iff_eq] at hcontrol
    exact numbered?_char (by omega) (by omega)
  split
  · exact numbered?_char (by omega) (by omega)
  · exact numbered?_char (by omega) (by omega)

/-- A written out character is not malformed. -/
theorem isMalformed_ofChar : (ofChar c).isMalformed = false := by
  have hwhole := isUtf8_encodeChar c
  rw [isUtf8, ← List.append_nil (encodeChar c), glyphs_encodeChar_append, List.all_cons,
    Bool.and_eq_true, Bool.not_eq_true'] at hwhole
  exact hwhole.1

/-- What a glyph is quoted as shows the glyph. -/
theorem shown?_quoteGlyph (hg : g ∈ glyphs s) (rest : Bytes) :
    shown? (quoteGlyph g ++ rest) = some g := by
  rcases mem_glyphs_eq hg with ⟨b, rfl, hhigh⟩ | hchar
  · have hbyte : numbered? 2 (Bytes.hex 2 b.toNat ++ rest) = some (malformed b) := by
      rw [UInt8.le_iff_toNat_le] at hhigh
      rw [numbered?_hex b.toNat_lt, if_pos ⟨rfl, hhigh⟩, UInt8.ofNat_toNat]
    exact hbyte
  · have hwhole : g.isMalformed = false := by
      rw [hchar]
      exact isMalformed_ofChar
    rw [quoteGlyph, hwhole, if_neg Bool.false_ne_true, shown?_quoteChar, ← hchar]

/-! ## Different texts are quoted differently -/

/-- Glyphs of texts that are quoted alike are the same. -/
theorem eq_of_flatMap_quoteGlyph {gs hs : List Glyph} (hgs : ∀ g ∈ gs, g ∈ glyphs s)
    (hhs : ∀ h ∈ hs, h ∈ glyphs t) (h : gs.flatMap quoteGlyph = hs.flatMap quoteGlyph) :
    gs = hs := by
  have hnone : shown? [] = none := rfl
  induction gs generalizing hs with
  | nil =>
    cases hs with
    | nil => rfl
    | cons h' hs =>
      have hshown := shown?_quoteGlyph (hhs h' List.mem_cons_self) (hs.flatMap quoteGlyph)
      rw [← List.flatMap_cons, ← h, List.flatMap_nil, hnone] at hshown
      cases hshown
  | cons g gs ih =>
    have hshown := shown?_quoteGlyph (hgs g List.mem_cons_self) (gs.flatMap quoteGlyph)
    rw [← List.flatMap_cons, h] at hshown
    cases hs with
    | nil =>
      rw [List.flatMap_nil, hnone] at hshown
      cases hshown
    | cons h' hs =>
      rw [List.flatMap_cons, shown?_quoteGlyph (hhs h' List.mem_cons_self)] at hshown
      cases hshown
      rw [List.flatMap_cons, List.flatMap_cons] at h
      rw [ih (fun g hg => hgs g (List.mem_cons_of_mem _ hg))
        (fun g hg => hhs g (List.mem_cons_of_mem _ hg)) (List.append_cancel_left h)]

/-- Different texts are quoted differently. -/
theorem quoted_injective (h : quoted s = quoted t) : s = t := by
  have hbody := List.append_cancel_right (List.cons.inj h).2
  have hglyphs := eq_of_flatMap_quoteGlyph (fun _ hg => hg) (fun _ hg => hg) hbody
  rw [← flatMap_bytes_glyphs s, hglyphs, flatMap_bytes_glyphs]

/-! ## A quoted text is on one line -/

theorem lineFeed_not_mem_encodeChar (hc : c ≠ '\n') : 10 ∉ encodeChar c := by
  intro hmem
  have hg : ofChar c ∈ glyphs (encodeChar c ++ []) := by
    rw [glyphs_encodeChar_append]
    exact List.mem_cons_self
  exact hc (congrArg Glyph.char (eq_of_mem_bytes hg hmem (by decide)))

theorem lineFeed_not_mem_numbered {k n : Nat} (letter : UInt8) (hletter : letter ≠ 10) :
    10 ∉ byte '\\' :: letter :: Bytes.hex k n := by
  rintro (_ | ⟨_, _ | ⟨_, hmem⟩⟩)
  · exact hletter rfl
  · exact ne_lineFeed_of_mem_hex hmem rfl

theorem lineFeed_not_mem_quoteChar : 10 ∉ quoteChar '"' c := by
  -- A line break is not printable, so it is not among the characters that stand for themselves.
  have hbreak : isPrintable '\n' = false := by decide +kernel
  unfold quoteChar
  split
  · rename_i hbacked
    simp only [Bool.or_eq_true, beq_iff_eq] at hbacked
    rcases hbacked with rfl | rfl
    · decide
    · decide
  split
  · rename_i hprintable
    refine lineFeed_not_mem_encodeChar fun hc => ?_
    rw [hc, hbreak] at hprintable
    cases hprintable
  split
  · rename_i letter hletter
    unfold controlLetter at hletter
    split at hletter <;> cases hletter <;> decide
  split
  · exact lineFeed_not_mem_numbered 120 (by decide)
  split
  · exact lineFeed_not_mem_numbered 117 (by decide)
  · exact lineFeed_not_mem_numbered 85 (by decide)

theorem lineFeed_not_mem_quoteGlyph : 10 ∉ quoteGlyph g := by
  unfold quoteGlyph
  split
  · exact lineFeed_not_mem_numbered 120 (by decide)
  · exact lineFeed_not_mem_quoteChar

theorem lineFeed_not_mem_quoted : 10 ∉ quoted s := by
  have hquote : 10 ≠ byte '"' := by decide
  intro hmem
  rcases List.mem_cons.1 hmem with h | h
  · exact hquote h
  rcases List.mem_append.1 h with h | h
  · obtain ⟨g, -, hg⟩ := List.mem_flatMap.1 h
    exact lineFeed_not_mem_quoteGlyph hg
  · exact hquote (List.mem_singleton.1 h)

end Scriptlet
