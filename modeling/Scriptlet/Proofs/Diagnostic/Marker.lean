import Scriptlet.Diagnostic.Drawing
import Scriptlet.Proofs.Lexing.Pointing

/-!
# Marker: carets under what they are about

A place in a text is shown by its line, and a span by carets under the line. Where the ends of the
span are boundaries of the text, the line falls into three parts, each read as it is in the line:
what is before the span, what is in it, and what is behind it. The marker is blank under the first
and has carets under the second.
-/

namespace Scriptlet

open Glyph

/-! ## Lines -/

theorem fresh_append {t u : Bytes} (ht : t.Fresh) (hu : u.Fresh) : Bytes.Fresh (t ++ u) := by
  cases t with
  | nil => exact hu
  | cons b t => exact ht

theorem fresh_dropWhile (s : Bytes) : Bytes.Fresh (s.dropWhile (· != lineFeed)) := by
  intro b hb
  have hstop := List.head?_dropWhile_not (· != lineFeed) s
  rw [Option.mem_def.1 hb] at hstop
  have hfeed : b = lineFeed := by simpa using hstop
  rw [hfeed]
  rfl

namespace Bytes

/-- The offset at which the line of an offset begins. -/
def lineStart (s : Bytes) (i : Nat) : Nat := (locate s i).lineStart

/-- The line of an offset, up to its line feed. -/
def line (s : Bytes) (i : Nat) : Bytes := (s.drop (s.lineStart i)).takeWhile (· != lineFeed)

variable {s : Bytes} {i : Nat}

theorem text_eq (s : Bytes) (i : Nat) : (locate s i).text = dropEnd (utf8 "\r") (s.line i) := by
  simp only [line, lineStart, locate]

/-- Up to an offset in it, a text is whole lines and then a part of one, whose characters are
counted for the column. -/
theorem exists_lines (hi : i ≤ s.length) :
    ∃ front part, s.take i = front ++ part ∧ s.lineStart i = front.length ∧
      (locate s i).column = glyphCount part + 1 ∧ (∀ b ∈ part, b ≠ lineFeed) ∧
      (front = [] ∨ ∃ above, front = above ++ [lineFeed]) := by
  have hclamp : clampOffset s i = i := by
    unfold clampOffset
    rw [Int.toNat_natCast, Nat.min_eq_left hi]
  let back := (s.take i).reverse
  have hsplit : s.take i =
      (back.dropWhile (· != lineFeed)).reverse ++ (back.takeWhile (· != lineFeed)).reverse := by
    rw [← List.reverse_append, List.takeWhile_append_dropWhile, List.reverse_reverse]
  have hlength := congrArg List.length hsplit
  rw [List.length_take, Nat.min_eq_left hi, List.length_append] at hlength
  refine ⟨_, _, hsplit, ?_, ?_, ?_, ?_⟩
  · unfold lineStart locate
    rw [hclamp]
    show i - (back.takeWhile (· != lineFeed)).reverse.length = _
    omega
  · unfold locate
    rw [hclamp]
  · intro b hb
    have htrue := List.all_eq_true.1 List.all_takeWhile b (List.mem_reverse.1 hb)
    simpa using htrue
  · cases hd : back.dropWhile (· != lineFeed) with
    | nil => exact .inl rfl
    | cons b rest =>
      have hstop := List.head?_dropWhile_not (· != lineFeed) back
      rw [hd] at hstop
      have hfeed : b = lineFeed := by simpa using hstop
      exact .inr ⟨rest.reverse, by rw [List.reverse_cons, hfeed]⟩

theorem lineStart_le (hi : i ≤ s.length) : s.lineStart i ≤ i := by
  obtain ⟨front, part, hsplit, hstart, -⟩ := exists_lines hi
  have hlength := congrArg List.length hsplit
  rw [List.length_take, List.length_append] at hlength
  omega

theorem column_eq (hi : i ≤ s.length) :
    (locate s i).column = glyphCount ((s.take i).drop (s.lineStart i)) + 1 := by
  obtain ⟨front, part, hsplit, hstart, hcolumn, -⟩ := exists_lines hi
  rw [hcolumn, hsplit, hstart, List.drop_left]

theorem boundary_lineStart (hi : i ≤ s.length) : s.Boundary (s.lineStart i) := by
  obtain ⟨front, part, hsplit, hstart, -, -, hfront⟩ := exists_lines hi
  rw [hstart]
  rcases hfront with rfl | ⟨above, rfl⟩
  · exact .zero s
  · have htext : s = (above ++ [lineFeed]) ++ (part ++ s.drop i) := by
      rw [← List.append_assoc, ← hsplit, List.take_append_drop]
    -- A line end is a character of its own, with what is around it read apart.
    have hglyphs : glyphs ((above ++ [lineFeed]) ++ (part ++ s.drop i)) =
        glyphs (above ++ [lineFeed]) ++ glyphs (part ++ s.drop i) := by
      rw [List.append_assoc]
      show glyphs (above ++ 10 :: (part ++ s.drop i)) = glyphs (above ++ 10 :: []) ++ _
      rw [glyphs_append_newline, glyphs_append_newline, List.append_assoc]
      rfl
    have hboundary := Boundary.of_append hglyphs
    rwa [← htext] at hboundary

theorem line_spec (hi : i ≤ s.length) :
    i ≤ s.lineStart i + (s.line i).length ∧ s.lineStart i + (s.line i).length ≤ s.length ∧
      s.drop (s.lineStart i) = s.line i ++ s.drop (s.lineStart i + (s.line i).length) ∧
      Fresh (s.drop (s.lineStart i + (s.line i).length)) := by
  have hrest : s.drop (s.lineStart i) =
      s.line i ++ (s.drop (s.lineStart i)).dropWhile (· != lineFeed) :=
    List.takeWhile_append_dropWhile.symm
  have hdrop : s.drop (s.lineStart i + (s.line i).length) =
      (s.drop (s.lineStart i)).dropWhile (· != lineFeed) := by
    rw [← List.drop_drop, hrest, List.drop_left, ← hrest]
  have hstart := lineStart_le hi
  have hlength := congrArg List.length hrest
  rw [List.length_drop, List.length_append] at hlength
  refine ⟨?_, by omega, by rw [hdrop, ← hrest], by rw [hdrop]; exact fresh_dropWhile _⟩
  obtain ⟨front, part, hsplit, hfront, -, hpart, -⟩ := exists_lines hi
  -- The part of the line before the offset is in the line, having no line feed.
  have hbehind : s.drop (s.lineStart i) = part ++ s.drop i := by
    rw [hfront, ← List.take_append_drop i s, hsplit, List.append_assoc, List.drop_left,
      ← List.append_assoc, ← hsplit, List.take_append_drop]
  have hline : part.length ≤ (s.line i).length := by
    unfold line
    rw [hbehind, List.takeWhile_append_of_pos (fun b hb => by simpa using hpart b hb),
      List.length_append]
    omega
  have htake := congrArg List.length hsplit
  rw [List.length_take, Nat.min_eq_left hi, List.length_append] at htake
  omega

theorem Boundary.in_line (h : s.Boundary i) : (s.line i).Boundary (i - s.lineStart i) := by
  obtain ⟨hin, hend, hsplit, hfresh⟩ := line_spec h.le
  have hstart := boundary_lineStart h.le
  have hfirst := (hstart.split h (lineStart_le h.le)).2
  have hlast : Boundary (s.drop (s.lineStart i)) (s.line i).length := by
    have hcut := Boundary.of_append (glyphs_append hfresh (s.line i))
    rwa [← hsplit] at hcut
  have hboth := (hfirst.split hlast (by omega)).1
  rwa [hsplit, List.take_left] at hboth

theorem shown_spec (hi : i ≤ s.length) :
    s.lineStart i + (locate s i).text.length ≤ s.length ∧
      (s.drop (s.lineStart i)).take (locate s i).text.length = (locate s i).text ∧
      Boundary (s.drop (s.lineStart i)) (locate s i).text.length := by
  obtain ⟨-, hend, hsplit, hfresh⟩ := line_spec hi
  -- The line is shown without a carriage return at its end.
  have htext : ∃ tail, s.line i = (locate s i).text ++ tail ∧ Fresh tail := by
    rw [text_eq]
    unfold dropEnd
    by_cases hsuffix : (utf8 "\r").isSuffixOf (s.line i) = true
    · rw [if_pos hsuffix]
      obtain ⟨before, hbefore⟩ := List.isSuffixOf_iff_suffix.1 hsuffix
      refine ⟨utf8 "\r", ?_, fun b hb => by cases hb; rfl⟩
      rw [← hbefore, List.length_append, Nat.add_sub_cancel, List.take_left]
    · rw [if_neg hsuffix]
      exact ⟨[], (List.append_nil _).symm, nofun⟩
  obtain ⟨tail, hline, htail⟩ := htext
  have hlength := congrArg List.length hline
  rw [List.length_append] at hlength
  have hbegins : s.drop (s.lineStart i) =
      (locate s i).text ++ (tail ++ s.drop (s.lineStart i + (s.line i).length)) := by
    rw [← List.append_assoc, ← hline, ← hsplit]
  have hcut := Boundary.of_append
    (glyphs_append (fresh_append htail hfresh) (locate s i).text)
  rw [← hbegins] at hcut
  exact ⟨by omega, by rw [hbegins, List.take_left], hcut⟩

/-- A text with a stretch marked in it is what is before the stretch, the stretch, and what is
behind it. A stretch that leaves the text is marked as far as the text goes. -/
theorem exists_parts {n a b : Nat} (hn : s.Boundary n) (ha : s.Boundary a) (hb : s.Boundary b)
    (hab : a ≤ b) :
    ∃ before inside behind,
      glyphs (s.take n) = before ++ (inside ++ behind) ∧
      before = glyphs ((s.take n).take (min a n)) ∧
      inside = glyphs (((s.take n).drop (min a n)).take (min b n - min a n)) ∧
      behind = glyphs ((s.take n).drop (min b n)) := by
  have hmin {k : Nat} (hk : s.Boundary k) : Boundary (s.take n) (min k n) := by
    have hboundary : s.Boundary (min k n) := by
      by_cases h : k ≤ n
      · rwa [Nat.min_eq_left h]
      · rwa [Nat.min_eq_right (Nat.le_of_not_le h)]
    exact (hboundary.split hn (Nat.min_le_right k n)).1
  have hle : min a n ≤ min b n := by omega
  refine ⟨_, _, _, ?_, rfl, rfl, rfl⟩
  have hfirst := (hmin ha).glyphs_eq
  have hsecond := ((hmin ha).split (hmin hb) hle).2.glyphs_eq
  rw [List.drop_drop, Nat.add_sub_cancel' hle] at hsecond
  rw [hfirst, hsecond]

theorem glyphCount_take_le {j : Nat} (hi : s.Boundary i) (hj : s.Boundary j) (h : i ≤ j) :
    glyphCount (s.take i) ≤ glyphCount (s.take j) := by
  have hsplit := congrArg List.length (hi.split hj h).1.glyphs_eq
  rw [List.take_take, Nat.min_eq_left h, List.length_append] at hsplit
  show (glyphs (s.take i)).length ≤ (glyphs (s.take j)).length
  omega

theorem glyphCount_take_min {n k : Nat} (hn : s.Boundary n) (hk : s.Boundary k) :
    min (glyphCount (s.take k)) (glyphCount (s.take n)) =
      glyphCount ((s.take n).take (min k n)) := by
  rw [List.take_take, Nat.min_assoc, Nat.min_self]
  by_cases h : k ≤ n
  · rw [Nat.min_eq_left h, Nat.min_eq_left (glyphCount_take_le hk hn h)]
  · have hle := Nat.le_of_not_le h
    rw [Nat.min_eq_right hle, Nat.min_eq_right (glyphCount_take_le hn hk hle)]

end Bytes

/-! ## Characters inside a span -/

/-- How many of the characters lie inside the span, the first of them being at the offset. -/
def Span.covers (span : Span) : Nat → List Glyph → Nat
  | _, [] => 0
  | i, g :: gs =>
    (if span.start ≤ i ∧ ((i + g.width : Nat) : Int) ≤ span.stop then 1 else 0) +
      covers span (i + g.width) gs

namespace Span

variable {a b : Nat}

theorem covers_append (span : Span) (i : Nat) (gs gs' : List Glyph) :
    span.covers i (gs ++ gs') =
      span.covers i gs + span.covers (i + (text gs).length) gs' := by
  induction gs generalizing i with
  | nil => exact (Nat.zero_add _).symm
  | cons g gs ih =>
    have hlength : i + g.width + (text gs).length = i + (text (g :: gs)).length := by
      show i + g.bytes.length + (text gs).length = i + (g.bytes ++ text gs).length
      rw [List.length_append, Nat.add_assoc]
    rw [List.cons_append, covers, covers, ih, hlength, Nat.add_assoc]

theorem covers_before {gs : List Glyph} (hgs : ∀ g ∈ gs, 0 < g.width) {i : Nat}
    (h : i + (text gs).length ≤ a) : (between a b).covers i gs = 0 := by
  induction gs generalizing i with
  | nil => rfl
  | cons g gs ih =>
    have hg := hgs g List.mem_cons_self
    have hlength : i + g.width + (text gs).length ≤ a := by
      change i + (g.bytes ++ text gs).length ≤ a at h
      rw [List.length_append, ← Nat.add_assoc] at h
      exact h
    have hout : ¬ ((between a b).start ≤ i ∧ ((i + g.width : Nat) : Int) ≤ (between a b).stop) := by
      show ¬ ((a : Int) ≤ i ∧ _)
      omega
    rw [covers, if_neg hout, ih (fun g' hg' => hgs g' (List.mem_cons_of_mem g hg')) hlength]

theorem covers_behind {gs : List Glyph} (hgs : ∀ g ∈ gs, 0 < g.width) {i : Nat} (h : b ≤ i) :
    (between a b).covers i gs = 0 := by
  induction gs generalizing i with
  | nil => rfl
  | cons g gs ih =>
    have hg := hgs g List.mem_cons_self
    have hout : ¬ ((between a b).start ≤ i ∧ ((i + g.width : Nat) : Int) ≤ (between a b).stop) := by
      show ¬ (_ ∧ ((i + g.width : Nat) : Int) ≤ (b : Int))
      omega
    have hrest : b ≤ i + g.width := Nat.le_trans h (Nat.le_add_right i _)
    rw [covers, if_neg hout, ih (fun g' hg' => hgs g' (List.mem_cons_of_mem g hg')) hrest]

theorem covers_inside {gs : List Glyph} {i : Nat} (ha : a ≤ i) (hb : i + (text gs).length ≤ b) :
    (between a b).covers i gs = gs.length := by
  induction gs generalizing i with
  | nil => rfl
  | cons g gs ih =>
    have hlength : i + g.width + (text gs).length ≤ b := by
      change i + (g.bytes ++ text gs).length ≤ b at hb
      rw [List.length_append, ← Nat.add_assoc] at hb
      exact hb
    have hin : (between a b).start ≤ i ∧ ((i + g.width : Nat) : Int) ≤ (between a b).stop := by
      show (a : Int) ≤ i ∧ ((i + g.width : Nat) : Int) ≤ (b : Int)
      omega
    rw [covers, if_pos hin, ih (Nat.le_trans ha (Nat.le_add_right i _)) hlength, List.length_cons,
      Nat.add_comm]

theorem eq_nil_of_text {gs : List Glyph} (hgs : ∀ g ∈ gs, 0 < g.width)
    (h : (text gs).length = 0) : gs = [] := by
  cases gs with
  | nil => rfl
  | cons g gs =>
    have hg : 0 < g.bytes.length := hgs g List.mem_cons_self
    change (g.bytes ++ text gs).length = 0 at h
    rw [List.length_append] at h
    omega

/-- Of a line of `n` bytes at offset `i`, parted where the span begins and where it ends, the span
covers the middle part. -/
theorem covers_parts {before inside behind : List Glyph} {i : Nat} (n : Nat)
    (hgs : ∀ g ∈ before ++ (inside ++ behind), 0 < g.width) (hi : i ≤ a) (hab : a ≤ b)
    (hbefore : (text before).length = min (a - i) n)
    (hinside : (text inside).length = min (b - i) n - min (a - i) n)
    (hbehind : (text behind).length = n - min (b - i) n) :
    (between a b).covers i (before ++ (inside ++ behind)) = inside.length := by
  have hfirst : ∀ g ∈ before, 0 < g.width := fun g hg => hgs g (List.mem_append_left _ hg)
  have hsecond : ∀ g ∈ inside, 0 < g.width := fun g hg =>
    hgs g (List.mem_append_right _ (List.mem_append_left _ hg))
  have hthird : ∀ g ∈ behind, 0 < g.width := fun g hg =>
    hgs g (List.mem_append_right _ (List.mem_append_right _ hg))
  rw [covers_append, covers_append, covers_before hfirst (by omega), Nat.zero_add]
  have hnone : (between a b).covers (i + (text before).length + (text inside).length) behind = 0 := by
    by_cases h : b - i ≤ n
    · exact covers_behind hthird (by omega)
    · rw [eq_nil_of_text hthird (by omega)]
      rfl
  rw [hnone, Nat.add_zero]
  by_cases h : (text inside).length = 0
  · rw [eq_nil_of_text hsecond h]
    rfl
  · -- There is something between the ends, so the span begins on the line.
    exact covers_inside (by omega) (by omega)

end Span

/-! ## The marker -/

namespace Location

theorem indent_spec (l : Location) :
    l.indent.length = min (l.column - 1) (glyphCount l.text) ∧
      ∀ i < l.indent.length, ∃ g, (glyphs l.text)[i]? = some g ∧
        l.indent[i]? = some (if g.char = '\t' then byte '\t' else byte ' ') := by
  have hlength : l.indent.length = min (l.column - 1) (glyphCount l.text) := by
    unfold indent
    rw [List.length_map, List.length_take]
    rfl
  refine ⟨hlength, fun i hi => ?_⟩
  have hbound : i < (glyphs l.text).length := by
    rw [hlength] at hi
    exact Nat.lt_of_lt_of_le hi (Nat.min_le_right _ _)
  have hcolumn : i < l.column - 1 := by omega
  refine ⟨(glyphs l.text)[i], List.getElem?_eq_getElem hbound, ?_⟩
  unfold indent
  rw [List.getElem?_map, List.getElem?_take_of_lt hcolumn, List.getElem?_eq_getElem hbound]
  simp only [Option.map_some, beq_iff_eq]

theorem caretCount_eq {s : Bytes} {a b n : Nat} (hle : s.lineStart a ≤ a) (hab : a ≤ b)
    (hn : (locate s a).text.length = n) :
    (locate s a).caretCount (.between a b) =
      max 1 (glyphCount (((locate s a).text.drop (min (a - s.lineStart a) n)).take
        (min (b - s.lineStart a) n - min (a - s.lineStart a) n))) := by
  unfold caretCount
  rw [hn, show (locate s a).lineStart = s.lineStart a from rfl,
    show (Span.between a b).start = (a : Int) from rfl,
    show (Span.between a b).stop = (b : Int) from rfl]
  generalize s.lineStart a = start at hle ⊢
  -- Seen from the beginning of the line, the ends of the stretch are no integers but offsets.
  have hfirst : min (max (a : Int) start) (start + n) = start + (min (a - start) n : Nat) := by
    omega
  have hlast : min (b : Int) (start + n) = start + (min (b - start) n : Nat) := by omega
  dsimp only
  rw [hfirst, hlast]
  generalize min (a - start) n = first
  generalize min (b - start) n = last
  by_cases h : first < last
  · rw [if_pos (show (start : Int) + first < start + last by omega)]
    have hdrop : ((start : Int) + first - start).toNat = first := by omega
    have htake : ((start : Int) + last - (start + first)).toNat = last - first := by omega
    rw [hdrop, htake]
  · rw [if_neg (show ¬ (start : Int) + first < start + last by omega)]
    rw [show last - first = 0 by omega, List.take_zero]
    rfl

/-- The carets are under the characters of the shown line that lie inside the span, or under one
place if none does; and they end on the line, or one place behind it. -/
theorem carets_spec {s : Bytes} {a b : Nat} (ha : s.Boundary a) (hb : s.Boundary b) (hab : a ≤ b) :
    (locate s a).caretCount (.between a b) =
        max 1 ((Span.between a b).covers (s.lineStart a) (glyphs (locate s a).text)) ∧
      (locate s a).indent.length + (locate s a).caretCount (.between a b) ≤
        glyphCount (locate s a).text + 1 := by
  have hle := Bytes.lineStart_le ha.le
  have hstart := Bytes.boundary_lineStart ha.le
  obtain ⟨-, htake, htext⟩ := Bytes.shown_spec ha.le
  have hfirst := (hstart.split ha hle).2
  have hlast := (hstart.split hb (Nat.le_trans hle hab)).2
  obtain ⟨before, inside, behind, hparts, hbefore, hinside, hbehind⟩ :=
    Bytes.exists_parts htext hfirst hlast (by omega)
  have hblank : (locate s a).indent.length = before.length := by
    have hcolumn := Bytes.column_eq ha.le
    rw [List.drop_take] at hcolumn
    have hcount := Bytes.glyphCount_take_min htext hfirst
    rw [htake] at hcount hbefore
    rw [(locate s a).indent_spec.1, hcolumn, Nat.add_sub_cancel, hcount, hbefore]
    rfl
  rw [htake] at hparts hbefore hinside hbehind
  have hcaret : (locate s a).caretCount (.between a b) = max 1 inside.length := by
    rw [caretCount_eq hle hab rfl, hinside]
    rfl
  have hcovers : (Span.between a b).covers (s.lineStart a) (glyphs (locate s a).text) =
      inside.length := by
    have hpositive := width_pos_of_mem_glyphs (locate s a).text
    rw [hparts] at hpositive ⊢
    refine Span.covers_parts (locate s a).text.length hpositive hle hab ?_ ?_ ?_
    · rw [hbefore, text_glyphs, List.length_take]
      omega
    · rw [hinside, text_glyphs, List.length_take, List.length_drop]
      omega
    · rw [hbehind, text_glyphs, List.length_drop]
  have hcount : glyphCount (locate s a).text =
      before.length + inside.length + behind.length := by
    show (glyphs (locate s a).text).length = _
    rw [hparts, List.length_append, List.length_append, Nat.add_assoc]
  rw [hcovers, hcaret, hblank, hcount]
  exact ⟨rfl, by omega⟩

end Location
end Scriptlet
