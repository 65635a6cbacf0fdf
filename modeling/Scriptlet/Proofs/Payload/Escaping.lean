import Scriptlet.Payload.Reader
import Scriptlet.Proofs.Text.Encoding

/-!
# Escaping: strings with no more escapes than they need

A string can be written so that only what must be escaped is: the quote and the backslash behind a
backslash, and control characters by their code. All of these are ASCII, so the text is escaped byte
by byte. Read from left to right, each escaped byte is taken in one go. So the whole of it reads as
the text, and no part of it that was cut off does.
-/

namespace Scriptlet

namespace Payload

/-- The byte is one that stands behind a backslash in a string. -/
def isMarked (b : UInt8) : Bool := b == byte '"' || b == byte '\\'

/-- The byte is one that is written by its code. -/
def isControl (b : UInt8) : Bool := b < 0x20

/-- A byte within a string, escaped only if it must be. -/
def escapedByte (b : UInt8) : Bytes :=
  if isMarked b then [byte '\\', b] else if isControl b then coded b.toNat else [b]

/-- The inside of a string, escaped only where it must be. -/
def escapedText (s : Bytes) : Bytes := s.flatMap escapedByte

variable {b : UInt8} {s t out : Bytes} {bound : Nat}

/-! ## What escaping takes -/

theorem length_coded (n : Nat) : (coded n).length = 6 := rfl

/-- A byte is never both marked and a control character. -/
theorem isControl_of_isMarked (h : isMarked b = true) : isControl b = false := by
  rcases Bool.or_eq_true_iff.1 h with hb | hb
  · rw [eq_of_beq hb]
    rfl
  · rw [eq_of_beq hb]
    rfl

/-- Marking a byte takes one byte more, and writing it by its code five. -/
theorem length_escapedText (s : Bytes) :
    (escapedText s).length = s.length + s.countP isMarked + 5 * s.countP isControl := by
  induction s with
  | nil => rfl
  | cons b s ih =>
    have hhead : (escapedByte b).length =
        1 + (if isMarked b then 1 else 0) + 5 * (if isControl b then 1 else 0) := by
      unfold escapedByte
      by_cases hmarked : isMarked b = true
      · simp [hmarked, isControl_of_isMarked hmarked]
      · by_cases hcontrol : isControl b = true
        · simp [hmarked, hcontrol, length_coded]
        · simp [hmarked, hcontrol]
    rw [show escapedText (b :: s) = escapedByte b ++ escapedText s from rfl, List.length_append,
      hhead, ih, List.countP_cons, List.countP_cons, List.length_cons]
    omega

/-! ## Reading the whole -/

/-- A control character is written with two zeros and two digits, of which the first is its high
part. -/
theorem coded_of_isControl (h : isControl b = true) :
    ∃ x y, coded b.toNat = [byte '\\', byte 'u', byte '0', byte '0', x, y] ∧
      hexDigit? x = some (b.toNat / 16) ∧ hexDigit? y = some (b.toNat % 16) := by
  have hall : ∀ n < 32, hexDigit? (Bytes.hexDigit (n / 16)) = some (n / 16) ∧
      hexDigit? (Bytes.hexDigit (n % 16)) = some (n % 16) ∧
      Bytes.hex 4 n = [byte '0', byte '0', Bytes.hexDigit (n / 16), Bytes.hexDigit (n % 16)] := by
    decide
  have hlt : b.toNat < 32 := UInt8.lt_iff_toNat_lt.1 (of_decide_eq_true h)
  obtain ⟨hhigh, hlow, hhex⟩ := hall b.toNat hlt
  exact ⟨_, _, by rw [coded, hhex]; rfl, hhigh, hlow⟩

/-- A byte that is not escaped is taken as it is. -/
theorem readString_plain (hmarked : isMarked b = false) (hcontrol : isControl b = false) :
    readString (bound + 1) out (b :: t) = readString bound (b :: out) t := by
  obtain ⟨hquote, hslash⟩ := Bool.or_eq_false_iff.1 hmarked
  have hlow : ¬ b < 0x20 := of_decide_eq_false hcontrol
  rw [readString.eq_def]
  simp only [hquote, hlow, bne, hslash, Bool.false_eq_true, if_false, Bool.not_false, if_true]

/-- An escaped byte is taken in one go. -/
theorem readString_escapedByte (b : UInt8) (t out : Bytes) (bound : Nat) :
    readString (bound + 1) out (escapedByte b ++ t) = readString bound (b :: out) t := by
  unfold escapedByte
  by_cases hmarked : isMarked b = true
  · rw [if_pos hmarked]
    rcases Bool.or_eq_true_iff.1 hmarked with hb | hb
    · rw [eq_of_beq hb]
      rfl
    · rw [eq_of_beq hb]
      rfl
  · rw [if_neg hmarked]
    have hmarked : isMarked b = false := Bool.not_eq_true _ ▸ hmarked
    by_cases hcontrol : isControl b = true
    · rw [if_pos hcontrol]
      obtain ⟨x, y, hcoded, hx, hy⟩ := coded_of_isControl hcontrol
      have hlt : b.toNat < 32 := UInt8.lt_iff_toNat_lt.1 (of_decide_eq_true hcontrol)
      have hread : readHex 4 0 (byte '0' :: byte '0' :: x :: y :: t) = .done b.toNat t := by
        have hzero : hexDigit? (byte '0') = some 0 := rfl
        simp only [readHex, hzero, hx, hy]
        congr 1
        omega
      have hunit : unitBytes b.toNat t = ([b], t) := by
        have hascii : b < 0x80 := UInt8.lt_iff_toNat_lt.2 (Nat.lt_trans hlt (by decide))
        unfold unitBytes
        rw [if_neg (by omega), Glyph.encodeChar_of_lt hascii]
      rw [hcoded]
      show ((readHex 4 0 (byte '0' :: byte '0' :: x :: y :: t)).andThen fun n after =>
        readString bound ((unitBytes n after).1.reverse ++ out) (unitBytes n after).2) = _
      rw [hread, Reading.andThen, hunit]
      rfl
    · rw [if_neg hcontrol]
      exact readString_plain hmarked (Bool.not_eq_true _ ▸ hcontrol)

/-- The escaped text is taken byte by byte. -/
theorem readString_escapedText (s t out : Bytes) (bound : Nat) :
    readString (s.length + bound) out (escapedText s ++ t) =
      readString bound (s.reverse ++ out) t := by
  induction s generalizing out with
  | nil =>
    rw [List.length_nil, Nat.zero_add]
    rfl
  | cons b s ih =>
    rw [show escapedText (b :: s) = escapedByte b ++ escapedText s from rfl, List.append_assoc,
      List.length_cons, Nat.add_right_comm, readString_escapedByte, ih, List.reverse_cons,
      List.append_assoc]
    rfl

/-- Repairing changes nothing in a well-formed text. -/
theorem repair_of_isUtf8 (h : isUtf8 s = true) : repair s = s := by
  obtain ⟨cs, rfl⟩ := isUtf8_iff.1 h
  unfold repair encode
  rw [← encode, glyphs_encode, List.flatMap_map]
  rfl

theorem length_le_escapedText (s : Bytes) : s.length ≤ (escapedText s).length := by
  rw [length_escapedText]
  omega

/-- Behind its opening quote, an escaped text reads as the text. -/
theorem readString_escaped (h : isUtf8 s = true) (hb : (escapedText s).length < bound) (t : Bytes) :
    readString bound [] (escapedText s ++ byte '"' :: t) = .done s t := by
  obtain ⟨k, rfl⟩ : ∃ k, bound = s.length + (k + 1) := by
    have hle := length_le_escapedText s
    exact ⟨bound - s.length - 1, by omega⟩
  have hclose : readString (k + 1) (s.reverse ++ []) (byte '"' :: t) =
      .done (repair (s.reverse ++ []).reverse) t := by
    rw [readString.eq_def]
    exact if_pos rfl
  rw [readString_escapedText, hclose, List.append_nil, List.reverse_reverse, repair_of_isUtf8 h]

/-! ## Reading a part -/

/-- Less than an escaped byte is no string yet. -/
theorem readString_unfinished_escapedByte (h : t <+: escapedByte b) (hne : t ≠ escapedByte b) :
    readString bound out t = .unfinished := by
  have hnil (bound : Nat) (out : Bytes) : readString bound out [] = .unfinished := by
    cases bound <;> rfl
  cases bound with
  | zero => rfl
  | succ bound =>
    have hlen : t.length < (escapedByte b).length :=
      Nat.lt_of_le_of_ne h.length_le fun hlen => hne (h.eq_of_length hlen)
    have htake := List.prefix_iff_eq_take.1 h
    generalize t.length = k at hlen htake
    subst htake
    unfold escapedByte at hlen ⊢
    split
    · rename_i hmarked
      rw [if_pos hmarked] at hlen
      -- The backslash without the byte it marks.
      rcases k with _ | _ | k
      · exact hnil _ _
      · rfl
      · exact absurd hlen (by simp)
    · rename_i hmarked
      rw [if_neg hmarked] at hlen
      split
      · rename_i hcontrol
        rw [if_pos hcontrol] at hlen
        obtain ⟨x, y, hcoded, hx, -⟩ := coded_of_isControl hcontrol
        rw [hcoded] at hlen ⊢
        -- The backslash, or the code without some of its digits.
        rcases k with _ | _ | _ | _ | _ | _ | k
        · exact hnil _ _
        · rfl
        · rfl
        · rfl
        · rfl
        · show ((readHex 4 0 [byte '0', byte '0', x]).andThen fun n after =>
            readString bound ((unitBytes n after).1.reverse ++ out) (unitBytes n after).2) = _
          have hzero : hexDigit? (byte '0') = some 0 := rfl
          simp only [readHex, hzero, hx]
          rfl
        · exact absurd hlen (by simp)
      · rename_i hcontrol
        rw [if_neg hcontrol] at hlen
        rcases k with _ | k
        · exact hnil _ _
        · simp at hlen

/-- Nothing that an escaped text begins with is a string yet, as the closing quote is missing. -/
theorem readString_unfinished (h : t <+: escapedText s) :
    readString bound out t = .unfinished := by
  induction s generalizing t bound out with
  | nil =>
    rw [List.prefix_nil.1 h]
    cases bound <;> rfl
  | cons b s ih =>
    change t <+: escapedByte b ++ escapedText s at h
    rcases List.prefix_or_prefix_of_prefix h (List.prefix_append _ _) with hfirst | ⟨u, rfl⟩
    · by_cases heq : t = escapedByte b
      · subst heq
        cases bound with
        | zero => rfl
        | succ bound =>
          rw [← List.append_nil (escapedByte b), readString_escapedByte]
          exact ih List.nil_prefix
      · exact readString_unfinished_escapedByte hfirst heq
    · cases bound with
      | zero => rfl
      | succ bound =>
        rw [readString_escapedByte]
        exact ih ((List.prefix_append_right_inj _).1 h)

end Payload
end Scriptlet
