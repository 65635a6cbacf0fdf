import Scriptlet.Proofs.Lexing.Layout

/-!
# Boundaries: offsets between characters

Reading a text from the left gives its characters one after the other. An offset that one of them
ends at is a boundary: the bytes before it and the bytes behind it, read on their own, give the
characters that they give in the whole text. So a text between two boundaries can be counted by
itself.
-/

namespace Scriptlet

open Glyph

theorem text_append (gs gs' : List Glyph) : text (gs ++ gs') = text gs ++ text gs' :=
  List.flatMap_append

theorem text_glyphs (s : Bytes) : text (glyphs s) = s := flatMap_bytes_glyphs s

/-- Characters read one after the other are read in both parts of the text that they make up. -/
theorem glyphs_text_of_append {s : Bytes} {front back : List Glyph} (h : glyphs s = front ++ back) :
    glyphs (text front) = front ∧ glyphs (text back) = back := by
  induction front generalizing s with
  | nil =>
    have hs : text back = s := by rw [← text_glyphs s, h, List.nil_append]
    exact ⟨rfl, by rw [hs]; exact h⟩
  | cons g front ih =>
    cases s with
    | nil => cases h
    | cons b rest =>
      rw [glyphs_cons, List.cons_append, List.cons.injEq] at h
      obtain ⟨rfl, hrest⟩ := h
      obtain ⟨hfront, hback⟩ := ih hrest
      refine ⟨?_, hback⟩
      obtain ⟨k, hk, hbytes⟩ := bytes_decode b rest
      have hwidth : (decode b rest).width = k + 1 := by
        unfold width
        rw [hbytes, List.length_cons, List.length_take, Nat.min_eq_left hk]
      -- The text of the front is the first byte and a beginning of what is behind it.
      have hdrop : rest.drop k = text front ++ text back := by
        rw [← text_append, ← hrest, text_glyphs, hwidth, Nat.add_sub_cancel]
      have htext : text (decode b rest :: front) = b :: rest.take (k + (text front).length) := by
        show (decode b rest).bytes ++ text front = _
        rw [hbytes, List.cons_append, List.take_add, hdrop, List.take_left]
      have hdecode : decode b (rest.take (k + (text front).length)) = decode b rest :=
        decode_take (by omega)
      rw [htext, glyphs_cons, hdecode, hwidth, Nat.add_sub_cancel, List.drop_take,
        Nat.add_sub_cancel_left, hdrop, List.take_left, hfront]

namespace Bytes

/-- Some characters of the text, from its beginning, end at the offset. -/
def Boundary (s : Bytes) (i : Nat) : Prop := ∃ k, (text ((glyphs s).take k)).length = i

variable {s t u : Bytes} {i j k : Nat}

theorem glyphs_of_boundary (h : (text ((glyphs s).take k)).length = i) :
    glyphs (s.take i) = (glyphs s).take k ∧ glyphs (s.drop i) = (glyphs s).drop k := by
  obtain ⟨hfront, hback⟩ := glyphs_text_of_append (List.take_append_drop k (glyphs s)).symm
  have hsplit : text ((glyphs s).take k) ++ text ((glyphs s).drop k) = s := by
    rw [← text_append, List.take_append_drop, text_glyphs]
  have htake : (text ((glyphs s).take k) ++ text ((glyphs s).drop k)).take i =
      text ((glyphs s).take k) := List.take_left' h
  have hdrop : (text ((glyphs s).take k) ++ text ((glyphs s).drop k)).drop i =
      text ((glyphs s).drop k) := List.drop_left' h
  rw [hsplit] at htake hdrop
  rw [htake, hdrop]
  exact ⟨hfront, hback⟩

namespace Boundary

theorem le (h : s.Boundary i) : i ≤ s.length := by
  obtain ⟨k, rfl⟩ := h
  have hsplit := congrArg List.length (text_append ((glyphs s).take k) ((glyphs s).drop k))
  rw [List.take_append_drop, text_glyphs, List.length_append] at hsplit
  omega

theorem glyphs_eq (h : s.Boundary i) : glyphs s = glyphs (s.take i) ++ glyphs (s.drop i) := by
  obtain ⟨k, hk⟩ := h
  obtain ⟨hfront, hback⟩ := glyphs_of_boundary hk
  rw [hfront, hback, List.take_append_drop]

theorem zero (s : Bytes) : s.Boundary 0 := ⟨0, rfl⟩

theorem length (s : Bytes) : s.Boundary s.length :=
  ⟨(glyphs s).length, by rw [List.take_length, text_glyphs]⟩

/-- Where the two parts of a text are read as they are in the whole, there is a boundary. -/
theorem of_append (h : glyphs (t ++ u) = glyphs t ++ glyphs u) : Boundary (t ++ u) t.length :=
  ⟨(glyphs t).length, by rw [h, List.take_left, text_glyphs]⟩

theorem split (hi : s.Boundary i) (hj : s.Boundary j) (h : i ≤ j) :
    Boundary (s.take j) i ∧ Boundary (s.drop i) (j - i) := by
  obtain ⟨k, hk⟩ := hi
  obtain ⟨k', hk'⟩ := hj
  by_cases hkk : k ≤ k'
  · have hmore : (glyphs s).take k' =
        (glyphs s).take k ++ ((glyphs s).drop k).take (k' - k) := by
      rw [← List.take_add, Nat.add_sub_cancel' hkk]
    constructor
    · refine ⟨k, ?_⟩
      rw [(glyphs_of_boundary hk').1, List.take_take, Nat.min_eq_left hkk]
      exact hk
    · refine ⟨k' - k, ?_⟩
      rw [(glyphs_of_boundary hk).2]
      rw [hmore, text_append, List.length_append] at hk'
      omega
  · -- Fewer characters take no more bytes, so the two are one boundary.
    have hmore : (glyphs s).take k =
        (glyphs s).take k' ++ ((glyphs s).drop k').take (k - k') := by
      rw [← List.take_add, Nat.add_sub_cancel' (Nat.le_of_not_le hkk)]
    have hsame : i = j := by
      rw [hmore, text_append, List.length_append] at hk
      omega
    subst hsame
    constructor
    · refine ⟨k', ?_⟩
      rw [(glyphs_of_boundary hk').1, List.take_take, Nat.min_self]
      exact hk'
    · rw [Nat.sub_self]
      exact zero _

end Boundary
end Bytes
end Scriptlet
