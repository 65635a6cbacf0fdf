import Mathlib.Data.List.Perm.Subperm
import Scriptlet.Playground.Gate
import Scriptlet.Proofs.Store.History

/-!
# Buckets: each client takes from its own

While there is room for all clients no client is forgotten, so a bucket stays with the client that
it was provided for. A client then has as many tokens left as its bucket held at first, less one for
each time it asked. Every step at the gate keeps it so, and takes no client's bucket away, whatever
the other clients are at: their steps only move them to the front.
-/

namespace Scriptlet

/-! ## Lists with room for all keys -/

namespace Recent

variable {κ α : Type} [BEq κ] {r : Recent κ α} {k j : κ} {a : α} {keys : List κ}

theorem fst_get? : (r.get? k).1 = r.peek? k := by
  unfold get?
  cases r.peek? k with
  | none => rfl
  | some a => rfl

theorem get?_of_peek? (h : r.peek? k = some a) :
    (r.get? k).2 = { r with entries := (k, a) :: without k r.entries } := by
  unfold get?
  rw [h]

theorem get?_of_peek?_none (h : r.peek? k = none) : (r.get? k).2 = r := by
  unfold get?
  rw [h]

variable [LawfulBEq κ]

theorem peek?_eq_none : r.peek? k = none ↔ k ∉ r.entries.map Prod.fst := by
  unfold peek?
  rw [List.lookup_eq_none_iff, List.mem_map]
  constructor
  · rintro h ⟨e, he, rfl⟩
    have hne := h e he
    rw [bne_self_eq_false] at hne
    cases hne
  · intro h e he
    rw [bne_iff_ne]
    rintro rfl
    exact h ⟨e, he, rfl⟩

/-- Using an entry moves it to the front, and changes nothing that is held. -/
theorem peek?_get? : (r.get? k).2.peek? j = r.peek? j := by
  cases hk : r.peek? k with
  | none => rw [get?_of_peek?_none hk]
  | some a =>
    rw [get?_of_peek? hk]
    show ((k, a) :: without k r.entries).lookup j = r.entries.lookup j
    by_cases hj : j = k
    · subst hj
      rw [List.lookup_cons_self]
      exact hk.symm
    · rw [List.lookup_cons, beq_false_of_ne hj]
      exact lookup_without hj

/-- Each key is held once, it is one of `keys`, and there is room for all of these. -/
structure Roomy [DecidableEq κ] (keys : List κ) (r : Recent κ α) : Prop where
  nodup : (r.entries.map Prod.fst).Nodup
  subset : r.entries.map Prod.fst ⊆ keys
  room : keys.dedup.length ≤ r.capacity

section Roomy

variable [DecidableEq κ]

theorem Roomy.get? (h : r.Roomy keys) : (r.get? k).2.Roomy keys := by
  cases hk : r.peek? k with
  | none =>
    rw [get?_of_peek?_none hk]
    exact h
  | some a =>
    rw [get?_of_peek? hk]
    refine ⟨nodup_keys_cons_without h.nodup, ?_, h.room⟩
    have hheld : k ∈ r.entries.map Prod.fst := by
      by_contra hnot
      rw [peek?_eq_none.2 hnot] at hk
      cases hk
    rw [List.map_cons, List.cons_subset]
    exact ⟨h.subset hheld, fun j hj => h.subset (mem_keys_without.1 hj).1⟩

/-- A key that is not held yet is added to all that is. -/
theorem Roomy.entries_add (h : r.Roomy keys) (hk : k ∈ keys) (hnew : r.peek? k = none) :
    (r.add k a).entries = (k, a) :: r.entries := by
  have hnot := peek?_eq_none.1 hnew
  have hnodup : (k :: r.entries.map Prod.fst).Nodup := List.nodup_cons.2 ⟨hnot, h.nodup⟩
  have hsubset : k :: r.entries.map Prod.fst ⊆ keys.dedup := fun j hj =>
    List.mem_dedup.2 (List.cons_subset.2 ⟨hk, h.subset⟩ hj)
  -- With the new key there are still no more than `keys`, so nothing falls off the far end.
  have hlength : ((k, a) :: r.entries).length ≤ r.capacity := by
    have hle := (hnodup.subperm hsubset).length_le
    rw [List.length_cons, List.length_map] at hle
    exact Nat.le_trans hle h.room
  show ((k, a) :: without k r.entries).take r.capacity = _
  rw [without_eq_self hnot, List.take_of_length_le hlength]

theorem Roomy.add (h : r.Roomy keys) (hk : k ∈ keys) (hnew : r.peek? k = none) :
    (r.add k a).Roomy keys := by
  have hnot := peek?_eq_none.1 hnew
  refine ⟨?_, ?_, h.room⟩
  · rw [h.entries_add hk hnew]
    exact List.nodup_cons.2 ⟨hnot, h.nodup⟩
  · rw [h.entries_add hk hnew]
    exact List.cons_subset.2 ⟨hk, h.subset⟩

theorem Roomy.peek?_add_self (h : r.Roomy keys) (hk : k ∈ keys) (hnew : r.peek? k = none) :
    (r.add k a).peek? k = some a := by
  unfold peek?
  rw [h.entries_add hk hnew, List.lookup_cons_self]

theorem Roomy.peek?_add_of_ne (h : r.Roomy keys) (hk : k ∈ keys) (hnew : r.peek? k = none)
    (hj : j ≠ k) : (r.add k a).peek? j = r.peek? j := by
  unfold peek?
  rw [h.entries_add hk hnew, List.lookup_cons, beq_false_of_ne hj]

end Roomy

end Recent

/-! ## The steps of a request -/

namespace Buckets

variable {b b' : Buckets} {clients seen : List Bytes} {client : Bytes} {bucket : Nat}

/-- Of `clients`, those in `seen` have asked for a token, as often as they are in there. What the
bucket of each has left is what it held at first less what was asked for. -/
structure Tally (clients seen : List Bytes) (b : Buckets) : Prop where
  roomy : b.known.Roomy clients
  left : ∀ c k, b.known.peek? c = some k → b.tokens[k]? = some (b.burst - seen.count c)
  apart : ∀ c c' k, b.known.peek? c = some k → b.known.peek? c' = some k → c = c'
  unseen : ∀ c, b.known.peek? c = none → c ∉ seen

/-- What holds from `b` to `b'`, whoever does what: new buckets are as full, and no client's bucket
is another one. -/
structure Leads (b b' : Buckets) : Prop where
  burst : b'.burst = b.burst
  known : ∀ c k, b.known.peek? c = some k → b'.known.peek? c = some k

theorem tally_new {burst capacity : Nat} (h : clients.dedup.length ≤ capacity) :
    Tally clients [] { burst, known := { capacity } } where
  roomy := ⟨List.nodup_nil, List.nil_subset _, h⟩
  left _ _ hk := nomatch hk
  apart _ _ _ hk := nomatch hk
  unseen _ _ := List.not_mem_nil

theorem fst_find? (b : Buckets) (client : Bytes) :
    (b.find? client).1 = b.known.peek? client := Recent.fst_get?

theorem peek?_find? (b : Buckets) (client c : Bytes) :
    (b.find? client).2.known.peek? c = b.known.peek? c := Recent.peek?_get?

theorem leads_find? (b : Buckets) (client : Bytes) : Leads b (b.find? client).2 :=
  ⟨rfl, fun c _ hk => (peek?_find? b client c).trans hk⟩

theorem Tally.find? (h : b.Tally clients seen) (client : Bytes) :
    (b.find? client).2.Tally clients seen where
  roomy := h.roomy.get?
  left c k hk := h.left c k ((peek?_find? b client c).symm.trans hk)
  apart c c' k hk hk' := h.apart c c' k ((peek?_find? b client c).symm.trans hk)
    ((peek?_find? b client c').symm.trans hk')
  unseen c hc := h.unseen c ((peek?_find? b client c).symm.trans hc)

theorem provide_of_known (h : b.known.peek? client = some bucket) :
    b.provide client = (bucket, b) := by
  unfold provide
  rw [h]

theorem provide_of_unknown (h : b.known.peek? client = none) :
    b.provide client = (b.tokens.length,
      { b with known := b.known.add client b.tokens.length, tokens := b.tokens ++ [b.burst] }) := by
  unfold provide
  rw [h]

theorem Tally.leads_provide (h : b.Tally clients seen) (hc : client ∈ clients) :
    Leads b (b.provide client).2 := by
  cases hp : b.known.peek? client with
  | some bucket =>
    rw [provide_of_known hp]
    exact ⟨rfl, fun _ _ hk => hk⟩
  | none =>
    rw [provide_of_unknown hp]
    refine ⟨rfl, fun c k hk => ?_⟩
    have hne : c ≠ client := by
      rintro rfl
      rw [hp] at hk
      cases hk
    exact (h.roomy.peek?_add_of_ne hc hp hne).trans hk

theorem Tally.peek?_provide (h : b.Tally clients seen) (hc : client ∈ clients) :
    (b.provide client).2.known.peek? client = some (b.provide client).1 := by
  cases hp : b.known.peek? client with
  | some bucket =>
    rw [provide_of_known hp]
    exact hp
  | none =>
    rw [provide_of_unknown hp]
    exact h.roomy.peek?_add_self hc hp

theorem Tally.lt_length (h : b.Tally clients seen) {c : Bytes} {k : Nat}
    (hk : b.known.peek? c = some k) : k < b.tokens.length :=
  (List.getElem?_eq_some_iff.1 (h.left c k hk)).1

theorem Tally.provide (h : b.Tally clients seen) (hc : client ∈ clients) :
    (b.provide client).2.Tally clients seen := by
  cases hp : b.known.peek? client with
  | some bucket =>
    rw [provide_of_known hp]
    exact h
  | none =>
    rw [provide_of_unknown hp]
    have hself := h.roomy.peek?_add_self (a := b.tokens.length) hc hp
    have hother {c : Bytes} (hne : c ≠ client) :=
      h.roomy.peek?_add_of_ne (a := b.tokens.length) hc hp hne
    -- The new bucket has the next number, so it is nobody else's.
    have hfresh {c : Bytes} {k : Nat} (hk : b.known.peek? c = some k) : k ≠ b.tokens.length :=
      Nat.ne_of_lt (h.lt_length hk)
    constructor
    · exact h.roomy.add hc hp
    · intro c k hk
      by_cases hne : c = client
      · subst hne
        cases hself.symm.trans hk
        have hcount : seen.count c = 0 := List.count_eq_zero.2 (h.unseen c hp)
        rw [hcount, List.getElem?_concat_length, Nat.sub_zero]
      · have hk := (hother hne).symm.trans hk
        rw [List.getElem?_append_left (h.lt_length hk)]
        exact h.left c k hk
    · intro c c' k hk hk'
      by_cases hne : c = client
      · by_cases hne' : c' = client
        · rw [hne, hne']
        · subst hne
          cases hself.symm.trans hk
          exact absurd rfl (hfresh ((hother hne').symm.trans hk'))
      · by_cases hne' : c' = client
        · subst hne'
          cases hself.symm.trans hk'
          exact absurd rfl (hfresh ((hother hne).symm.trans hk))
        · exact h.apart c c' k ((hother hne).symm.trans hk) ((hother hne').symm.trans hk')
    · intro c hnone
      have hne : c ≠ client := by
        rintro rfl
        cases hself.symm.trans hnone
      exact h.unseen c ((hother hne).symm.trans hnone)

theorem take_of_holds {n : Nat} (h : b.tokens[bucket]? = some n) :
    b.take bucket = (decide (0 < n), { b with tokens := b.tokens.set bucket (n - 1) }) := by
  unfold take
  rw [h]
  cases n with
  | succ n => rfl
  | zero =>
    obtain ⟨hlt, hget⟩ := List.getElem?_eq_some_iff.1 h
    have hset : b.tokens.set bucket 0 = b.tokens := by
      conv_rhs => rw [← List.set_getElem_self hlt, hget]
    show (false, b) = (false, { b with tokens := b.tokens.set bucket 0 })
    rw [hset]

theorem leads_take : Leads b (b.take bucket).2 := by
  unfold take
  split
  · exact ⟨rfl, fun _ _ hk => hk⟩
  · exact ⟨rfl, fun _ _ hk => hk⟩
  · exact ⟨rfl, fun _ _ hk => hk⟩

/-- A token is granted as long as the client has asked for fewer than its bucket held at first. -/
theorem Tally.fst_take (h : b.Tally clients seen) (hk : b.known.peek? client = some bucket) :
    (b.take bucket).1 = decide (seen.count client < b.burst) := by
  rw [take_of_holds (h.left client bucket hk)]
  exact decide_eq_decide.2 Nat.sub_pos_iff_lt

theorem Tally.take (h : b.Tally clients seen) (hk : b.known.peek? client = some bucket) :
    (b.take bucket).2.Tally clients (seen ++ [client]) := by
  rw [take_of_holds (h.left client bucket hk)]
  constructor
  · exact h.roomy
  · intro c k hc
    show (b.tokens.set bucket _)[k]? = some (b.burst - (seen ++ [client]).count c)
    rw [List.getElem?_set, List.count_append]
    by_cases hkb : bucket = k
    · subst hkb
      have hself : c = client := h.apart c client bucket hc hk
      rw [if_pos rfl, if_pos (h.lt_length hk), hself, List.count_singleton_self, Nat.sub_sub]
    · -- A client with another bucket is another client.
      have hne : client ≠ c := by
        rintro rfl
        exact hkb (Option.some.inj (hk.symm.trans hc))
      rw [if_neg hkb, h.left c k hc, List.count_singleton, beq_false_of_ne hne,
        if_neg Bool.false_ne_true, Nat.add_zero]
  · exact h.apart
  · intro c hc hmem
    rcases List.mem_append.1 hmem with hseen | hlast
    · exact h.unseen c hc hseen
    · rw [List.mem_singleton.1 hlast, hk] at hc
      cases hc

/-- All the steps in a row. -/
theorem Tally.letIn (h : b.Tally clients seen) (hc : client ∈ clients) :
    (b.letIn client).1 = decide (seen.count client < b.burst) ∧
      (b.letIn client).2.burst = b.burst ∧
      (b.letIn client).2.Tally clients (seen ++ [client]) := by
  have hfound := fst_find? b client
  have htally := h.find? client
  have hpeek := peek?_find? b client client
  have hburst : (b.find? client).2.burst = b.burst := rfl
  unfold Buckets.letIn
  generalize b.find? client = found at hfound htally hpeek hburst
  obtain ⟨bucket?, b'⟩ := found
  dsimp only at hfound htally hpeek hburst
  rw [← hburst]
  cases bucket? with
  | some bucket =>
    have hk := hpeek.trans hfound.symm
    exact ⟨htally.fst_take hk, leads_take.burst, htally.take hk⟩
  | none =>
    have hk := htally.peek?_provide hc
    have hprovided := (htally.leads_provide hc).burst
    have htally := htally.provide hc
    rw [← hprovided]
    exact ⟨htally.fst_take hk, leads_take.burst, htally.take hk⟩

end Buckets
end Scriptlet
