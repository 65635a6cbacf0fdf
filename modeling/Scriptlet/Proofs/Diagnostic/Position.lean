import Mathlib.Algebra.GroupWithZero.Nat
import Scriptlet.Proofs.Diagnostic.Marker

/-!
# Position: offsets as lines and columns

The line of an offset is one of the pieces that the line feeds leave of a text, the one with as many
line feeds before it as there are before the offset. Along the boundaries of its characters the
columns of a line go up one by one, and the next line begins behind the last of them. So a line and
a column say no less than the offset between two characters that they were found for.
-/

namespace Scriptlet

open Glyph

/-- The first location comes before the second one: on an earlier line, or on the same line in an
earlier column. -/
def Location.Before (l l' : Location) : Prop :=
  l.line < l'.line ∨ l.line = l'.line ∧ l.column < l'.column

/-! ## The pieces of a text -/

namespace Bytes

theorem length_splitOn (s : Bytes) : (s.splitOn lineFeed).length = s.count lineFeed + 1 := by
  induction s with
  | nil => rfl
  | cons b rest ih =>
    rw [List.splitOn_cons_eq_if_modifyHead, List.count_cons]
    split
    · rw [List.length_cons, ih]
    · rw [List.length_modifyHead, ih, Nat.add_zero]

/-- The first piece reaches up to the first line feed. -/
theorem head?_splitOn (s : Bytes) :
    (s.splitOn lineFeed).head? = some (s.takeWhile (· != lineFeed)) := by
  induction s with
  | nil => rfl
  | cons b rest ih =>
    rw [List.splitOn_cons_eq_if_modifyHead, List.takeWhile_cons]
    by_cases hb : b = lineFeed
    · simp [hb]
    · simp [hb, ih]

/-- Each piece takes its length and one byte for a line feed, which the last one does without. -/
theorem sum_splitOn (s : Bytes) :
    ((s.splitOn lineFeed).map (·.length + 1)).sum = s.length + 1 := by
  induction s with
  | nil => rfl
  | cons b rest ih =>
    rw [List.splitOn_cons_eq_if_modifyHead]
    split
    · rw [List.map_cons, List.sum_cons, ih, List.length_nil, List.length_cons]
      omega
    · obtain ⟨piece, pieces, hpieces⟩ :=
        List.exists_cons_of_ne_nil (List.splitOn_ne_nil lineFeed rest)
      rw [hpieces, List.map_cons, List.sum_cons] at ih
      rw [hpieces, List.modifyHead_cons, List.map_cons, List.sum_cons, List.length_cons,
        List.length_cons]
      omega

variable {s : Bytes} {i j : Nat}

/-! ## The line of an offset -/

theorem clampOffset_eq (s : Bytes) (offset : Int) :
    (clampOffset s offset : Int) = max 0 (min offset s.length) := by
  unfold clampOffset
  omega

theorem clampOffset_le (s : Bytes) (offset : Int) : clampOffset s offset ≤ s.length :=
  Nat.min_le_right _ _

theorem locate_clampOffset (s : Bytes) (offset : Int) :
    locate s (clampOffset s offset) = locate s offset := by
  have hclamp : clampOffset s (clampOffset s offset : Nat) = clampOffset s offset := by
    unfold clampOffset
    omega
  unfold locate
  rw [hclamp]

theorem line_eq (hi : i ≤ s.length) : (locate s i).line = 1 + (s.take i).count lineFeed := by
  have hclamp : clampOffset s i = i := by
    unfold clampOffset
    omega
  unfold locate
  rw [hclamp]

/-- The lines above an offset are pieces of their own, and its line is the next piece. -/
theorem splitOn_eq (hi : i ≤ s.length) :
    ∃ above below, s.splitOn lineFeed = above ++ s.line i :: below ∧
      above.length = (locate s i).line - 1 ∧
      s.lineStart i = (above.map (·.length + 1)).sum := by
  obtain ⟨front, part, hsplit, hstart, -, hpart, hfront⟩ := exists_lines hi
  have hnone : part.count lineFeed = 0 := List.count_eq_zero.2 fun h => hpart _ h rfl
  obtain ⟨piece, below, hbelow⟩ :=
    List.exists_cons_of_ne_nil (List.splitOn_ne_nil lineFeed (s.drop (s.lineStart i)))
  have hpiece : piece = s.line i := by
    have hhead := head?_splitOn (s.drop (s.lineStart i))
    rw [hbelow] at hhead
    exact Option.some.inj hhead
  rw [hpiece] at hbelow
  rcases hfront with rfl | ⟨above, rfl⟩
  · refine ⟨[], below, ?_, ?_, hstart⟩
    · rw [hstart] at hbelow
      exact hbelow
    · rw [line_eq hi, hsplit, List.nil_append, hnone]
      rfl
  · have htext : s = above ++ lineFeed :: s.drop (s.lineStart i) := by
      have htake : s.take (s.lineStart i) = above ++ [lineFeed] := by
        rw [← Nat.min_eq_left (lineStart_le hi), ← List.take_take, hsplit, hstart, List.take_left]
      rw [← List.singleton_append, ← List.append_assoc, ← htake, List.take_append_drop]
    refine ⟨above.splitOn lineFeed, below, ?_, ?_, ?_⟩
    · rw [← hbelow, ← List.splitOn_append_cons_self, ← htext]
    · rw [length_splitOn, line_eq hi, hsplit, List.count_append, List.count_append, hnone]
      simp only [List.count_singleton_self]
      omega
    · rw [sum_splitOn, hstart, List.length_append, List.length_singleton]

/-- The line is shown without the carriage return at its end, if there is one. -/
theorem line_eq_text (s : Bytes) (i : Nat) :
    s.line i = (locate s i).text ++ utf8 "\r" ∨
      s.line i = (locate s i).text ∧ ¬ utf8 "\r" <:+ s.line i := by
  rw [text_eq]
  unfold dropEnd
  by_cases hsuffix : (utf8 "\r").isSuffixOf (s.line i) = true
  · rw [if_pos hsuffix]
    obtain ⟨before, hbefore⟩ := List.isSuffixOf_iff_suffix.1 hsuffix
    rw [← hbefore, List.length_append, Nat.add_sub_cancel, List.take_left]
    exact .inl rfl
  · rw [if_neg hsuffix]
    exact .inr ⟨rfl, fun h => hsuffix (List.isSuffixOf_iff_suffix.2 h)⟩

/-! ## Columns -/

/-- The offset is one between the characters of its line. -/
def Whole (s : Bytes) (i : Nat) : Prop := (s.line i).Boundary (i - s.lineStart i)

/-- As many characters as there are before a boundary end at it. -/
theorem Boundary.length_text (h : s.Boundary i) :
    (text ((glyphs s).take (glyphCount (s.take i)))).length = i := by
  obtain ⟨k, hk⟩ := h
  have hcount : glyphCount (s.take i) = min k (glyphs s).length := by
    rw [glyphCount, (glyphs_of_boundary hk).1, List.length_take]
  rw [hcount, ← List.take_take, List.take_length]
  exact hk

theorem column_eq_line (hi : i ≤ s.length) :
    (locate s i).column = glyphCount ((s.line i).take (i - s.lineStart i)) + 1 := by
  obtain ⟨hin, -, hsplit, -⟩ := line_spec hi
  have hpart : i - s.lineStart i ≤ (s.line i).length := by omega
  rw [column_eq hi, List.drop_take, hsplit, List.take_append_of_le_length hpart]

theorem Whole.eq (h : s.Whole i) (hi : i ≤ s.length) :
    i = s.lineStart i + (text ((glyphs (s.line i)).take ((locate s i).column - 1))).length := by
  have hstart := lineStart_le hi
  rw [column_eq_line hi, Nat.add_sub_cancel, Boundary.length_text h]
  omega

/-- Two offsets with as many line feeds before them are on the same line. -/
theorem line_unique (hi : i ≤ s.length) (hj : j ≤ s.length)
    (h : (locate s i).line = (locate s j).line) :
    s.line i = s.line j ∧ s.lineStart i = s.lineStart j := by
  obtain ⟨above, below, hpieces, habove, hstart⟩ := splitOn_eq hi
  obtain ⟨above', below', hpieces', habove', hstart'⟩ := splitOn_eq hj
  obtain ⟨rfl, hbelow⟩ := List.append_inj (hpieces.symm.trans hpieces') (by omega)
  exact ⟨(List.cons.inj hbelow).1, hstart.trans hstart'.symm⟩

/-- A line and a column are found for one offset between characters at most. -/
theorem Whole.unique (hi : i ≤ s.length) (hj : j ≤ s.length) (hwi : s.Whole i) (hwj : s.Whole j)
    (hline : (locate s i).line = (locate s j).line)
    (hcolumn : (locate s i).column = (locate s j).column) : i = j := by
  obtain ⟨hsame, hstart⟩ := line_unique hi hj hline
  rw [hwi.eq hi, hwj.eq hj, hsame, hstart, hcolumn]

/-- Going forward from character to character leads to a later column or to a later line. -/
theorem Whole.before (hj : j ≤ s.length) (hwi : s.Whole i) (hwj : s.Whole j) (h : i < j) :
    (locate s i).Before (locate s j) := by
  have hi : i ≤ s.length := by omega
  have hline : (locate s i).line ≤ (locate s j).line := by
    rw [line_eq hi, line_eq hj]
    exact Nat.add_le_add_left ((List.take_sublist_take_left (by omega)).count_le _) 1
  rcases Nat.lt_or_eq_of_le hline with hlt | heq
  · exact .inl hlt
  · obtain ⟨hsame, hstart⟩ := line_unique hi hj heq
    refine .inr ⟨heq, Nat.lt_of_not_le fun hcolumn => ?_⟩
    -- No more characters take no more bytes, so the offset would not have gone up.
    have hshorter : (text ((glyphs (s.line j)).take ((locate s j).column - 1))).length ≤
        (text ((glyphs (s.line j)).take ((locate s i).column - 1))).length := by
      have hsplit : (glyphs (s.line j)).take ((locate s i).column - 1) = _ ++ _ :=
        (List.take_append_drop ((locate s j).column - 1) _).symm
      rw [hsplit, List.take_take, Nat.min_eq_left (by omega), text_append, List.length_append]
      exact Nat.le_add_right _ _
    have hoffset := hwi.eq hi
    have hoffset' := hwj.eq hj
    rw [hsame, hstart] at hoffset
    omega

end Bytes

/-- An offset outside of a text counts as its nearer end. The line number counts the line feeds
before the offset, the line is the piece of that number and is shown without a carriage return at
its end. For offsets between the characters of their lines, the offset is that of the line and the
bytes of as many characters as the column says, and line and column are in the order of the
offsets. -/
theorem locate_is_exact_and_invertible (source : Bytes) (offset : Int) :
    let o := clampOffset source offset
    let l := locate source offset
    (o : Int) = max 0 (min offset source.length) ∧
      l.line = 1 + (source.take o).count lineFeed ∧
      (source.splitOn lineFeed)[l.line - 1]? = some (source.line o) ∧
      l.lineStart = (((source.splitOn lineFeed).take (l.line - 1)).map (·.length + 1)).sum ∧
      (source.line o = l.text ++ utf8 "\r" ∨
        source.line o = l.text ∧ ¬ utf8 "\r" <:+ source.line o) ∧
      (source.Whole o →
        o = l.lineStart + (text ((glyphs (source.line o)).take (l.column - 1))).length ∧
        ∀ other, source.Whole (clampOffset source other) →
          (o < clampOffset source other ↔ l.Before (locate source other)) ∧
          (l.line = (locate source other).line → l.column = (locate source other).column →
            o = clampOffset source other)) := by
  intro o l
  have ho : o ≤ source.length := Bytes.clampOffset_le source offset
  have hl : l = locate source o := (Bytes.locate_clampOffset source offset).symm
  obtain ⟨above, below, hpieces, habove, hstart⟩ := Bytes.splitOn_eq ho
  rw [hl, ← habove]
  refine ⟨Bytes.clampOffset_eq source offset, Bytes.line_eq ho, ?_, ?_,
    Bytes.line_eq_text source o, fun hwhole => ⟨hwhole.eq ho, fun other hother => ?_⟩⟩
  · rw [hpieces, List.getElem?_append_right (Nat.le_refl _), Nat.sub_self]
    rfl
  · rw [hpieces, List.take_left]
    exact hstart
  · rw [← Bytes.locate_clampOffset source other]
    have hle := Bytes.clampOffset_le source other
    refine ⟨⟨hwhole.before hle hother, fun hbefore => ?_⟩, hwhole.unique ho hle hother⟩
    -- Of two different offsets the later one does not come before.
    rcases Nat.lt_trichotomy o (clampOffset source other) with hlt | heq | hgt
    · exact hlt
    · rw [heq] at hbefore
      unfold Location.Before at hbefore
      omega
    · have hafter := hother.before ho hwhole hgt
      unfold Location.Before at hbefore hafter
      omega

/-- A malformed byte is a character with a column of its own, the first on its line here; the offset
behind it comes before the end of the text, as which offset 99 counts. -/
theorem malformed_byte_has_a_column :
    let source : Bytes := utf8 "aé\r\n" ++ [0xC3, 98]
    let o := clampOffset source 6
    let l := locate source 6
    source.Whole o ∧ source.Whole (clampOffset source 99) ∧ l.line = 2 ∧ l.column = 2 ∧
      o = l.lineStart + (text ((glyphs (source.line o)).take (l.column - 1))).length ∧
      l.Before (locate source 99) := by
  intro source o l
  have hwhole : source.Whole o := ⟨1, by decide⟩
  have hend : source.Whole (clampOffset source 99) := ⟨2, by decide⟩
  obtain ⟨-, -, -, -, -, hexact⟩ := locate_is_exact_and_invertible source 6
  obtain ⟨hoffset, hother⟩ := hexact hwhole
  exact ⟨hwhole, hend, by decide, by decide, hoffset, (hother 99 hend).1.1 (by decide)⟩

end Scriptlet
