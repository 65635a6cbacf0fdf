import Mathlib.Data.List.TakeWhile
import Scriptlet.Playground.Gate

/-!
# Address: what a client is known by

The address of a client is a host and a port with a colon between them; a host with colons of its
own stands in brackets. What is written otherwise has no port, and is what the client is known by.
-/

namespace Scriptlet
namespace Gate

/-- There are no brackets in a text. -/
structure Unbracketed (s : Bytes) : Prop where
  left : byte '[' ∉ s
  right : byte ']' ∉ s

/-- An address consists of a host and a port. -/
inductive Names : Bytes → Bytes → Prop
  | plain {host port : Bytes} (hcolon : byte ':' ∉ host) (hlast : byte ':' ∉ port)
      (hhost : Unbracketed host) (hport : Unbracketed port) :
      Names (host ++ byte ':' :: port) host
  | bracketed {host port : Bytes} (hlast : byte ':' ∉ port)
      (hhost : Unbracketed host) (hport : Unbracketed port) :
      Names (byte '[' :: (host ++ [byte ']']) ++ byte ':' :: port) host

variable {s port host : Bytes}

theorem contains_eq_false {b : UInt8} : s.contains b = false ↔ b ∉ s := by
  rw [← Bool.not_eq_true, List.contains_iff_mem]

theorem takeWhile_before {mark : UInt8} {rest : Bytes} (h : mark ∉ s) :
    (s ++ mark :: rest).takeWhile (· != mark) = s := by
  have hall : ∀ c ∈ s, (c != mark) = true := by
    intro c hc
    rw [bne_iff_ne]
    rintro rfl
    exact h hc
  rw [List.takeWhile_append_of_pos hall, List.takeWhile_cons, bne_self_eq_false,
    if_neg Bool.false_ne_true, List.append_nil]

theorem drop_behind {mark : UInt8} {rest : Bytes} :
    (s ++ mark :: rest).drop (s.length + 1) = rest := by
  rw [← List.drop_drop, List.drop_left]
  rfl

/-- Where the last colon stands. -/
theorem lastColon (h : byte ':' ∉ port) :
    (s ++ byte ':' :: port).length -
      ((s ++ byte ':' :: port).reverse.takeWhile (· != byte ':')).length - 1 = s.length := by
  have hreverse : (s ++ byte ':' :: port).reverse = port.reverse ++ byte ':' :: s.reverse := by
    rw [List.reverse_append, List.reverse_cons, List.append_assoc, List.singleton_append]
  have hport : byte ':' ∉ port.reverse := fun hmem => h (List.mem_reverse.1 hmem)
  rw [hreverse, takeWhile_before hport, List.length_append, List.length_cons, List.length_reverse]
  omega

theorem exists_lastColon {address : Bytes} (h : byte ':' ∈ address) :
    ∃ s port, address = s ++ byte ':' :: port ∧ byte ':' ∉ port := by
  obtain ⟨port, s, hs, hport⟩ := List.eq_append_cons_of_mem (List.mem_reverse.2 h)
  refine ⟨s.reverse, port.reverse, ?_, fun hmem => hport (List.mem_reverse.1 hmem)⟩
  rw [← List.reverse_reverse address, hs, List.reverse_append, List.reverse_cons,
    List.append_assoc, List.singleton_append]

theorem contains_colon (s port : Bytes) : (s ++ byte ':' :: port).contains (byte ':') = true := by
  rw [List.contains_iff_mem, List.mem_append]
  exact .inr List.mem_cons_self

theorem unbracketed_append : Unbracketed (s ++ port) ↔ Unbracketed s ∧ Unbracketed port := by
  constructor
  · rintro ⟨hleft, hright⟩
    rw [List.mem_append, not_or] at hleft hright
    exact ⟨⟨hleft.1, hright.1⟩, hleft.2, hright.2⟩
  · rintro ⟨hs, hport⟩
    constructor
    · rw [List.mem_append, not_or]
      exact ⟨hs.left, hport.left⟩
    · rw [List.mem_append, not_or]
      exact ⟨hs.right, hport.right⟩

theorem unbracketed_colon : Unbracketed (byte ':' :: port) ↔ Unbracketed port := by
  have hcolon : Unbracketed [byte ':'] := ⟨by decide, by decide⟩
  rw [← List.singleton_append, unbracketed_append, and_iff_right hcolon]

theorem unbracketed_append_colon :
    Unbracketed (s ++ byte ':' :: port) ↔ Unbracketed s ∧ Unbracketed port := by
  rw [unbracketed_append, unbracketed_colon]

theorem host?_of_not_bracket (hlast : byte ':' ∉ port) (hs : s.head? ≠ some (byte '[')) :
    host? (s ++ byte ':' :: port) = some host ↔
      s = host ∧ byte ':' ∉ host ∧ Unbracketed host ∧ Unbracketed port := by
  have hnot : ∀ rest, s ++ byte ':' :: port ≠ byte '[' :: rest := by
    cases s with
    | nil => exact fun rest h => absurd (List.cons.inj h).1 (by decide)
    | cons a s => exact fun rest h => hs (congrArg some (List.cons.inj h).1)
  have hwell : (s.contains (byte ':') || (s ++ byte ':' :: port).contains (byte '[') ||
      (s ++ byte ':' :: port).contains (byte ']')) = false ↔
        byte ':' ∉ s ∧ Unbracketed s ∧ Unbracketed port := by
    rw [Bool.or_eq_false_iff, Bool.or_eq_false_iff, contains_eq_false, contains_eq_false,
      contains_eq_false, and_assoc, ← unbracketed_append_colon]
    exact and_congr_right fun _ => ⟨fun h => ⟨h.1, h.2⟩, fun h => ⟨h.left, h.right⟩⟩
  unfold host?
  dsimp only
  rw [contains_colon, lastColon hlast, Bool.not_true, if_neg Bool.false_ne_true]
  split
  · rename_i rest hrest
    exact absurd hrest (hnot rest)
  · rw [List.take_left]
    split
    · rename_i hbad
      constructor
      · intro h
        cases h
      · rintro ⟨rfl, h⟩
        rw [hwell.2 h] at hbad
        cases hbad
    · rename_i hgood
      have h := hwell.1 (Bool.eq_false_iff.2 hgood)
      rw [Option.some.injEq]
      constructor
      · rintro rfl
        exact ⟨rfl, h⟩
      · exact fun h => h.1

theorem host?_bracket (hlast : byte ':' ∉ port) :
    host? (byte '[' :: s ++ byte ':' :: port) =
      let rest := s ++ byte ':' :: port
      let inner := rest.takeWhile (· != byte ']')
      let after := rest.drop (inner.length + 1)
      if inner.length = rest.length then none
      else if inner.length + 2 ≠ s.length + 1 then none
      else if inner.contains (byte '[') || after.contains (byte '[') || after.contains (byte ']')
      then none
      else some inner := by
  have hlength : (byte '[' :: s).length = s.length + 1 := rfl
  unfold host?
  dsimp only
  rw [contains_colon, lastColon hlast, Bool.not_true, if_neg Bool.false_ne_true, hlength]
  rfl

theorem host?_of_bracket (hlast : byte ':' ∉ port) :
    host? (byte '[' :: s ++ byte ':' :: port) = some host ↔
      s = host ++ [byte ']'] ∧ Unbracketed host ∧ Unbracketed port := by
  rw [host?_bracket hlast]
  dsimp only
  constructor
  · intro h
    split at h
    · cases h
    · rename_i hclosed
      split at h
      · cases h
      · rename_i hplace
        split at h
        · cases h
        · rename_i hwell
          have hbracket : byte ']' ∈ s ++ byte ':' :: port := by
            by_contra hnot
            refine hclosed (congrArg List.length (List.takeWhile_eq_self_iff.2 fun c hc => ?_))
            rw [bne_iff_ne]
            rintro rfl
            exact hnot hc
          obtain ⟨inner, after, hrest, hinner⟩ := List.eq_append_cons_of_mem hbracket
          have hhost : inner = host := by
            rw [hrest, takeWhile_before hinner] at h
            exact Option.some.inj h
          subst hhost
          rw [hrest, takeWhile_before hinner] at hplace
          rw [hrest, takeWhile_before hinner, drop_behind] at hwell
          -- The bracket that closes the host stands right before the last colon.
          have hlength : s.length = (inner ++ [byte ']']).length := by
            rw [List.length_append, List.length_singleton]
            omega
          rw [← List.singleton_append (l := after), ← List.append_assoc] at hrest
          obtain ⟨hs, hafter⟩ := List.append_inj hrest hlength
          rw [Bool.or_eq_true, Bool.or_eq_true, not_or, not_or, List.contains_iff_mem,
            List.contains_iff_mem, List.contains_iff_mem] at hwell
          obtain ⟨⟨hleft, hleft'⟩, hright'⟩ := hwell
          have hport : Unbracketed (byte ':' :: port) := hafter ▸ ⟨hleft', hright'⟩
          exact ⟨hs, ⟨hleft, hinner⟩, unbracketed_colon.1 hport⟩
  · rintro ⟨rfl, hhost, hport⟩
    have hrest : host ++ [byte ']'] ++ byte ':' :: port = host ++ byte ']' :: byte ':' :: port := by
      rw [List.append_assoc, List.singleton_append]
    have hclosed : host.length ≠ (host ++ byte ']' :: byte ':' :: port).length := by
      rw [List.length_append, List.length_cons]
      omega
    have hplace : ¬ host.length + 2 ≠ (host ++ [byte ']']).length + 1 := by
      rw [List.length_append, List.length_singleton]
      omega
    have hcolon := unbracketed_colon.2 hport
    rw [hrest, takeWhile_before hhost.right, drop_behind, if_neg hclosed, if_neg hplace,
      contains_eq_false.2 hhost.left, contains_eq_false.2 hcolon.left,
      contains_eq_false.2 hcolon.right]
    rfl

theorem host?_eq_some_iff {address : Bytes} : host? address = some host ↔ Names address host := by
  constructor
  · intro h
    have hcolon : byte ':' ∈ address := by
      by_contra hnot
      unfold host? at h
      dsimp only at h
      rw [contains_eq_false.2 hnot] at h
      cases h
    obtain ⟨s, port, rfl, hlast⟩ := exists_lastColon hcolon
    by_cases hs : s.head? = some (byte '[')
    · obtain ⟨s', rfl⟩ := List.head?_eq_some_iff.1 hs
      obtain ⟨rfl, hhost, hport⟩ := (host?_of_bracket hlast).1 h
      exact .bracketed hlast hhost hport
    · obtain ⟨rfl, hfree, hhost, hport⟩ := (host?_of_not_bracket hlast hs).1 h
      exact .plain hfree hlast hhost hport
  · intro h
    cases h with
    | plain hcolon hlast hhost hport =>
      have hs : host.head? ≠ some (byte '[') := fun hs => hhost.left (List.mem_of_head? hs)
      exact (host?_of_not_bracket hlast hs).2 ⟨rfl, hcolon, hhost, hport⟩
    | bracketed hlast hhost hport => exact (host?_of_bracket hlast).2 ⟨rfl, hhost, hport⟩

/-- A client is known by the host of its address if that is an address with a port, and by all of
the address if it is not. -/
theorem clientKey_eq (address : Bytes) :
    (∀ host, Names address host → clientKey address = host) ∧
      ((∀ host, ¬ Names address host) → clientKey address = address) := by
  unfold clientKey
  constructor
  · intro host h
    rw [host?_eq_some_iff.2 h]
    rfl
  · intro h
    have hnone : host? address = none :=
      Option.eq_none_iff_forall_ne_some.2 fun host hhost => h host (host?_eq_some_iff.1 hhost)
    rw [hnone]
    rfl

end Gate
end Scriptlet
