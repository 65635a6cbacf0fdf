import Mathlib.Data.List.Basic
import Scriptlet.Text.Bytes

/-!
# Splitting: where the parts of a text end

Parts that were put one after the other can be told apart again if each one ends at a byte that it
cannot hold itself: a run at the first byte outside of it, an item of a list at the separator.
-/

namespace Scriptlet

variable {b : UInt8} {sep u u' t t' : Bytes} {xs ys : List Bytes}

/-- A run of bytes of some kind is over at the first byte of another kind. -/
theorem run_injective {P : UInt8 → Prop} (hu : ∀ b ∈ u, P b) (hu' : ∀ b ∈ u', P b)
    (ht : ∀ b ∈ t.head?, ¬ P b) (ht' : ∀ b ∈ t'.head?, ¬ P b) (h : u ++ t = u' ++ t') :
    u = u' ∧ t = t' := by
  induction u generalizing u' with
  | nil =>
    cases u' with
    | nil => exact ⟨rfl, h⟩
    | cons c u' =>
      have hhead : c ∈ t.head? := by
        rw [← List.nil_append t, h]
        rfl
      exact absurd (hu' c List.mem_cons_self) (ht c hhead)
  | cons c u ih =>
    cases u' with
    | nil =>
      have hhead : c ∈ t'.head? := by
        rw [← List.nil_append t', ← h]
        rfl
      exact absurd (hu c List.mem_cons_self) (ht' c hhead)
    | cons c' u' =>
      obtain ⟨rfl, hrest⟩ := List.cons.inj h
      obtain ⟨rfl, rfl⟩ := ih (fun b hb => hu b (List.mem_cons_of_mem _ hb))
        (fun b hb => hu' b (List.mem_cons_of_mem _ hb)) hrest
      exact ⟨rfl, rfl⟩

/-- What stands before the first `b` is over there. -/
theorem before_injective (hu : b ∉ u) (hu' : b ∉ u') (ht : ∀ c ∈ t.head?, c = b)
    (ht' : ∀ c ∈ t'.head?, c = b) (h : u ++ t = u' ++ t') : u = u' ∧ t = t' := by
  have hfree {v : Bytes} (hv : b ∉ v) : ∀ c ∈ v, c ≠ b := fun c hc hcb => hv (hcb ▸ hc)
  exact run_injective (hfree hu) (hfree hu') (fun c hc hcb => hcb (ht c hc))
    (fun c hc hcb => hcb (ht' c hc)) h

/-! ## Items with a separator between them -/

/-- Items can be told apart in a list if they can be by themselves. -/
theorem map_injective {α : Type} {f : α → Bytes} {P : α → Prop} {as bs : List α}
    (hf : ∀ {a b}, P a → P b → f a = f b → a = b) (has : ∀ a ∈ as, P a) (hbs : ∀ b ∈ bs, P b)
    (h : as.map f = bs.map f) : as = bs := by
  induction as generalizing bs with
  | nil => exact (List.map_eq_nil_iff.1 h.symm).symm
  | cons a as ih =>
    cases bs with
    | nil => cases h
    | cons b bs =>
      obtain ⟨hfirst, hrest⟩ := List.cons.inj h
      rw [hf (has a List.mem_cons_self) (hbs b List.mem_cons_self) hfirst,
        ih (fun a ha => has a (List.mem_cons_of_mem _ ha))
          (fun b hb => hbs b (List.mem_cons_of_mem _ hb)) hrest]

theorem intercalate_cons (x : Bytes) (xs : List Bytes) :
    sep.intercalate (x :: xs) = x ++ xs.flatMap (sep ++ ·) := by
  induction xs generalizing x with
  | nil => rw [List.intercalate_singleton, List.flatMap_nil, List.append_nil]
  | cons y ys ih =>
    rw [List.intercalate_cons_cons, ih, List.flatMap_cons, List.append_assoc, List.append_assoc]

theorem head_flatMap_sep : ∀ c ∈ (xs.flatMap (b :: sep ++ ·)).head?, c = b := by
  cases xs with
  | nil => nofun
  | cons x xs =>
    rintro c ⟨⟩
    rfl

/-- Items behind separators can be told apart if none of them holds the separator's first byte. -/
theorem flatMap_sep_injective (hxs : ∀ x ∈ xs, b ∉ x) (hys : ∀ y ∈ ys, b ∉ y)
    (h : xs.flatMap (b :: sep ++ ·) = ys.flatMap (b :: sep ++ ·)) : xs = ys := by
  induction xs generalizing ys with
  | nil =>
    cases ys with
    | nil => rfl
    | cons y ys => cases h
  | cons x xs ih =>
    cases ys with
    | nil => cases h
    | cons y ys =>
      rw [List.flatMap_cons, List.flatMap_cons, List.append_assoc, List.append_assoc] at h
      obtain ⟨rfl, hrest⟩ := before_injective (hxs x List.mem_cons_self) (hys y List.mem_cons_self)
        head_flatMap_sep head_flatMap_sep (List.append_cancel_left h)
      rw [ih (fun x hx => hxs x (List.mem_cons_of_mem _ hx))
        (fun y hy => hys y (List.mem_cons_of_mem _ hy)) hrest]

/-- Items with separators between them can be told apart if none of them is empty or holds the
separator's first byte. -/
theorem intercalate_injective (sep : Bytes) (hxs : ∀ x ∈ xs, x ≠ [] ∧ b ∉ x)
    (hys : ∀ y ∈ ys, y ≠ [] ∧ b ∉ y)
    (h : (b :: sep).intercalate xs = (b :: sep).intercalate ys) : xs = ys := by
  cases xs with
  | nil =>
    cases ys with
    | nil => rfl
    | cons y ys =>
      rw [intercalate_cons] at h
      exact absurd (List.append_eq_nil_iff.1 h.symm).1 (hys y List.mem_cons_self).1
  | cons x xs =>
    cases ys with
    | nil =>
      rw [intercalate_cons] at h
      exact absurd (List.append_eq_nil_iff.1 h).1 (hxs x List.mem_cons_self).1
    | cons y ys =>
      rw [intercalate_cons, intercalate_cons] at h
      obtain ⟨rfl, hrest⟩ := before_injective (hxs x List.mem_cons_self).2
        (hys y List.mem_cons_self).2 head_flatMap_sep head_flatMap_sep h
      rw [flatMap_sep_injective (fun x hx => (hxs x (List.mem_cons_of_mem _ hx)).2)
        (fun y hy => (hys y (List.mem_cons_of_mem _ hy)).2) hrest]

/-- What neither the separator nor an item holds is nowhere in the list. -/
theorem not_mem_intercalate (hsep : b ∉ sep) (hxs : ∀ x ∈ xs, b ∉ x) : b ∉ sep.intercalate xs := by
  cases xs with
  | nil => exact List.not_mem_nil
  | cons x xs =>
    rw [intercalate_cons]
    intro hmem
    rcases List.mem_append.1 hmem with hx | hrest
    · exact hxs x List.mem_cons_self hx
    · obtain ⟨y, hy, hmem⟩ := List.mem_flatMap.1 hrest
      rcases List.mem_append.1 hmem with hs | hy'
      · exact hsep hs
      · exact hxs y (List.mem_cons_of_mem _ hy) hy'

end Scriptlet
