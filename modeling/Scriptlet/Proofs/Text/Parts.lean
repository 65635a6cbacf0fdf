import Scriptlet.Proofs.Lexing.Spelling
import Scriptlet.Proofs.Text.Encoding
import Scriptlet.Stream.Input

/-!
# Parts: well-formed texts put together and cut up

Two well-formed texts make a well-formed one, which has the characters of both. A well-formed text
can be cut before any byte that is no continuation byte, so before and after ASCII characters. This
is how input is cut into lines, whatever the size of the buffer it is read through.
-/

namespace Scriptlet

open Glyph

variable {s t mark : Bytes} {b : UInt8}

/-! ## Putting together -/

theorem isUtf8_append (hs : isUtf8 s = true) (ht : isUtf8 t = true) : isUtf8 (s ++ t) = true := by
  obtain ⟨cs, rfl⟩ := isUtf8_iff.1 hs
  obtain ⟨ds, rfl⟩ := isUtf8_iff.1 ht
  exact isUtf8_iff.2 ⟨cs ++ ds, List.flatMap_append.symm⟩

theorem isUtf8_encodeChar (c : Char) : isUtf8 (encodeChar c) = true :=
  isUtf8_iff.2 ⟨[c], (List.append_nil (encodeChar c)).symm⟩

/-- The characters of two well-formed texts add up. -/
theorem glyphCount_append (hs : isUtf8 s = true) (ht : isUtf8 t = true) :
    glyphCount (s ++ t) = glyphCount s + glyphCount t := by
  obtain ⟨cs, rfl⟩ := isUtf8_iff.1 hs
  obtain ⟨ds, rfl⟩ := isUtf8_iff.1 ht
  have hjoin : encode cs ++ encode ds = encode (cs ++ ds) := List.flatMap_append.symm
  unfold glyphCount
  rw [hjoin, glyphs_encode, glyphs_encode, glyphs_encode, List.map_append, List.length_append]

theorem isUtf8_of_ascii (h : s.Ascii) : isUtf8 s = true := by
  induction s with
  | nil => rfl
  | cons b s ih =>
    have hb : b < 0x80 := h b List.mem_cons_self
    have hfirst : isUtf8 [b] = true := by
      rw [← encodeChar_of_lt hb]
      exact isUtf8_encodeChar _
    exact isUtf8_append hfirst (ih fun c hc => h c (List.mem_cons_of_mem b hc))

/-! ## Cutting up -/

theorem isUtf8_append_iff_of_fresh (ht : t.Fresh) :
    isUtf8 (s ++ t) = true ↔ isUtf8 s = true ∧ isUtf8 t = true := by
  rw [isUtf8, glyphs_append ht, List.all_append, Bool.and_eq_true]
  rfl

theorem Bytes.fresh_of_ascii (h : t.Ascii) : t.Fresh := by
  intro b hb
  have hlt : b < 0x80 := h b (List.mem_of_mem_head? hb)
  have hnot : ¬ 0x80 ≤ b := UInt8.not_le.2 hlt
  simp [continues, hnot]

/-- A well-formed text can be cut before an ASCII character, and behind it. -/
theorem isUtf8_append_cons_iff (hb : b < 0x80) :
    isUtf8 (s ++ b :: t) = true ↔ isUtf8 s = true ∧ isUtf8 t = true := by
  have hmark : Bytes.Ascii [b] := by
    intro c hc
    rw [List.mem_singleton.1 hc]
    exact hb
  have hfresh : Bytes.Fresh (b :: t) := fun c hc => Bytes.fresh_of_ascii hmark c hc
  have hhead : isUtf8 (b :: t) = isUtf8 t := by
    have hone : (glyphs [b]).all (fun g => !g.isMalformed) = true := isUtf8_of_ascii hmark
    rw [isUtf8, show b :: t = [b] ++ t from rfl, glyphs_append_ascii hmark, List.all_append, hone]
    rfl
  rw [isUtf8_append_iff_of_fresh hfresh, hhead]

/-- Dropping an ASCII mark from its end leaves a text well formed. -/
theorem isUtf8_dropEnd (hmark : mark.Ascii) (h : isUtf8 s = true) :
    isUtf8 (Bytes.dropEnd mark s) = true := by
  unfold Bytes.dropEnd
  split
  · rename_i hsuffix
    obtain ⟨front, rfl⟩ := List.isSuffixOf_iff_suffix.1 hsuffix
    rw [List.length_append, Nat.add_sub_cancel, List.take_left]
    exact ((isUtf8_append_iff_of_fresh (Bytes.fresh_of_ascii hmark)).1 h).1
  · exact h

/-! ## Lines of an input -/

/-- A text is what stands before the mark, the mark, and what follows. -/
theorem Bytes.eq_of_cut {front rest : Bytes} (h : s.cut b = (front, some rest)) :
    s = front ++ b :: rest := by
  have hsplit : s.takeWhile (· != b) ++ s.dropWhile (· != b) = s := List.takeWhile_append_dropWhile
  have hbehind : s.drop (s.takeWhile (· != b)).length = s.dropWhile (· != b) := by
    have hdrop (u v : Bytes) (huv : u ++ v = s) : s.drop u.length = v := by
      rw [← huv, List.drop_left]
    exact hdrop _ _ hsplit
  have hhead := List.head?_dropWhile_not (· != b) s
  unfold Bytes.cut at h
  dsimp only at h
  rw [hbehind] at h
  cases hmark : s.dropWhile (· != b) with
  | nil =>
    rw [hmark] at h
    cases h
  | cons c rest' =>
    rw [hmark] at h hsplit hhead
    have hc : c = b := by simpa using hhead
    cases h
    rw [hc] at hsplit
    exact hsplit.symm

namespace Input

/-- What is still to be read is well formed. The buffer may end within a character. -/
def Legible (i : Input) : Prop := isUtf8 (i.buffer ++ i.source.rest) = true

/-- What is read up to the end of a line is well formed, and so is what is left. A character that
the buffer cut in two is whole again in the gathered part. -/
theorem isUtf8_nextLine (gathered : Bytes) (i : Input)
    (h : isUtf8 (gathered ++ (i.buffer ++ i.source.rest)) = true) :
    (∀ line, (nextLine gathered i).1 = .ok line → isUtf8 line = true) ∧
      (nextLine gathered i).2.Legible := by
  fun_induction nextLine gathered i with
  | case1 gathered i front rest hcut =>
    have hsplit : gathered ++ (i.buffer ++ i.source.rest) =
        gathered ++ front ++ newline :: (rest ++ i.source.rest) := by
      rw [Bytes.eq_of_cut hcut, List.append_assoc, List.append_assoc]
      rfl
    rw [hsplit, isUtf8_append_cons_iff (by decide)] at h
    refine ⟨fun line hline => ?_, h.2⟩
    cases hline
    exact (isUtf8_append_cons_iff (by decide)).2 ⟨h.1, rfl⟩
  | case2 gathered i front hcut hrest spent reason hfail =>
    refine ⟨nofun, ?_⟩
    show isUtf8 ([] ++ i.source.rest) = true
    rw [hrest]
    rfl
  | case3 gathered i front hcut hrest spent hend =>
    rw [hrest, List.append_nil] at h
    refine ⟨fun line hline => ?_, ?_⟩
    · cases hline
      exact h
    · show isUtf8 ([] ++ i.source.rest) = true
      rw [hrest]
      rfl
  | case4 gathered i front hcut b more hrest hfull ih =>
    refine ih ?_
    rw [List.take_append_drop, List.append_assoc, ← hrest]
    exact h
  | case5 gathered i front hcut b more hrest hfull room ih =>
    refine ih ?_
    rw [List.append_assoc, List.take_append_drop, ← hrest]
    exact h

/-- A line is well formed without its end, and so is what is left. -/
theorem isUtf8_readLine {i : Input} (h : i.Legible) :
    (∀ line, i.readLine.1 = .ok line → isUtf8 line = true) ∧ i.readLine.2.Legible := by
  have hnext := isUtf8_nextLine [] i h
  unfold readLine
  generalize nextLine [] i = read at hnext
  obtain ⟨outcome, left⟩ := read
  cases outcome with
  | error reason => exact ⟨nofun, hnext.2⟩
  | ok line =>
    refine ⟨fun line' hline => ?_, hnext.2⟩
    cases hline
    exact isUtf8_dropEnd (by decide) (isUtf8_dropEnd (by decide) (hnext.1 line rfl))

end Input
end Scriptlet
