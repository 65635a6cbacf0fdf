/-!
# Forests: trees told by the depth of their lines

A forest is written with one line for each node, parents before their children and each child one
level deeper than its parent. The children of a node are over at the first line that is no deeper
than the node itself, so the lines with their depths tell the forest.
-/

namespace Scriptlet

/-- Trees one after the other: the first one by its label and its children, and then the rest. -/
inductive Forest (α : Type) where
  | nil
  | node (label : α) (children rest : Forest α)

namespace Forest

variable {α : Type} {P : α → Prop}

/-- The labels with their depths, in reading order. -/
def lines (depth : Nat) : Forest α → List (Nat × α)
  | nil => []
  | node label children rest =>
    (depth, label) :: (children.lines (depth + 1) ++ rest.lines depth)

/-- Every label is as given. -/
def All (P : α → Prop) : Forest α → Prop
  | nil => True
  | node label children rest => P label ∧ children.All P ∧ rest.All P

theorem All.of_mem_lines {f : Forest α} (h : f.All P) {depth : Nat} {l : Nat × α}
    (hl : l ∈ f.lines depth) : P l.2 := by
  induction f generalizing depth with
  | nil => cases hl
  | node label children rest ihchildren ihrest =>
    obtain ⟨hlabel, hchildren, hrest⟩ := h
    rcases List.mem_cons.1 hl with rfl | hl
    · exact hlabel
    · rcases List.mem_append.1 hl with hl | hl
      · exact ihchildren hchildren hl
      · exact ihrest hrest hl

/-- The lines begin less deep than `depth`, if there are any. -/
def Above (depth : Nat) (ls : List (Nat × α)) : Prop := ∀ l ∈ ls.head?, l.1 < depth

theorem Above.lines_append {depth : Nat} {ls : List (Nat × α)} (h : Above depth ls)
    (f : Forest α) : Above (depth + 1) (f.lines depth ++ ls) := by
  cases f with
  | nil => exact fun l hl => Nat.lt_succ_of_lt (h l hl)
  | node label children rest =>
    rintro l ⟨⟩
    exact Nat.lt_succ_self depth

/-- The lines tell the forest, and where its lines are over in favour of less deep ones. -/
theorem lines_append_injective {f f' : Forest α} {depth : Nat} {ls ls' : List (Nat × α)}
    (hls : Above depth ls) (hls' : Above depth ls')
    (h : f.lines depth ++ ls = f'.lines depth ++ ls') : f = f' ∧ ls = ls' := by
  induction f generalizing f' depth ls ls' with
  | nil =>
    cases f' with
    | nil => exact ⟨rfl, h⟩
    | node label' children' rest' =>
      rw [lines, List.nil_append] at h
      exact absurd (hls (depth, label') (by rw [h]; rfl)) (Nat.lt_irrefl depth)
  | node label children rest ihchildren ihrest =>
    cases f' with
    | nil =>
      rw [lines, List.nil_append] at h
      exact absurd (hls' (depth, label) (by rw [← h]; rfl)) (Nat.lt_irrefl depth)
    | node label' children' rest' =>
      rw [lines, lines, List.cons_append, List.cons_append, List.append_assoc,
        List.append_assoc] at h
      obtain ⟨hlabel, hbelow⟩ := List.cons.inj h
      -- What stands behind the children is no deeper than their parent, and so above them.
      obtain ⟨rfl, hbehind⟩ :=
        ihchildren (hls.lines_append rest) (hls'.lines_append rest') hbelow
      obtain ⟨rfl, rfl⟩ := ihrest hls hls' hbehind
      cases hlabel
      exact ⟨rfl, rfl⟩

theorem lines_injective {f f' : Forest α} {depth : Nat} (h : f.lines depth = f'.lines depth) :
    f = f' := by
  have hnone : Above depth ([] : List (Nat × α)) := nofun
  refine (lines_append_injective hnone hnone ?_).1
  rw [List.append_nil, List.append_nil, h]

end Forest
end Scriptlet
