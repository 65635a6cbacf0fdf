import Mathlib.Data.List.Dedup
import Scriptlet.Proofs.Runner.Reading

/-!
# History: what a store holds after a series of calls

A store of capacity `c` holds, of all the programs added since it was last purged, those under the
`c` keys used last. What it holds is therefore read off the history of its calls alone: a key is
found if it was added, and if fewer than `c` other keys were used since it was used last.

The proof keeps a ledger beside the store, which drops nothing: every key of the history with its
program, the latest used first. The store is the front of the ledger.
-/

namespace Scriptlet

/-! ## Bounded lists of entries -/

namespace Recent

variable {κ α : Type} [BEq κ] [LawfulBEq κ] {k j : κ} {a : α} {l : List (κ × α)} {n : Nat}

/-- The entries in front of the first one of a key. -/
def ahead (k : κ) (l : List (κ × α)) : List (κ × α) := l.takeWhile fun e => !(e.1 == k)

theorem mem_keys_without : j ∈ (without k l).map Prod.fst ↔ j ∈ l.map Prod.fst ∧ j ≠ k := by
  simp only [without, List.mem_map, List.mem_filter, Bool.not_eq_true', beq_eq_false_iff_ne]
  constructor
  · rintro ⟨e, ⟨he, hne⟩, rfl⟩
    exact ⟨⟨e, he, rfl⟩, hne⟩
  · rintro ⟨⟨e, he, rfl⟩, hne⟩
    exact ⟨e, ⟨he, hne⟩, rfl⟩

theorem nodup_keys_cons_without (h : (l.map Prod.fst).Nodup) :
    (((k, a) :: without k l).map Prod.fst).Nodup := by
  rw [List.map_cons, List.nodup_cons]
  constructor
  · intro hk
    exact (mem_keys_without.1 hk).2 rfl
  · exact h.sublist (List.filter_sublist.map _)

theorem without_eq_self (h : k ∉ l.map Prod.fst) : without k l = l := by
  rw [without, List.filter_eq_self]
  intro e he
  have hne : e.1 ≠ k := by
    rintro rfl
    exact h (List.mem_map_of_mem he)
  simpa using hne

theorem lookup_without (h : j ≠ k) : (without k l).lookup j = l.lookup j := by
  induction l with
  | nil => rfl
  | cons e l ih =>
    obtain ⟨i, b⟩ := e
    by_cases hi : i = k
    · subst hi
      have hdrop : without i ((i, b) :: l) = without i l := by simp [without]
      rw [hdrop, ih, List.lookup_cons, beq_false_of_ne h]
    · have hkeep : without k ((i, b) :: l) = (i, b) :: without k l := by simp [without, hi]
      rw [hkeep, List.lookup_cons, List.lookup_cons, ih]

theorem ahead_without (h : j ≠ k) : ahead j (without k l) = without k (ahead j l) := by
  induction l with
  | nil => rfl
  | cons e l ih =>
    obtain ⟨i, b⟩ := e
    by_cases hi : i = k
    · -- The entry of `k` is in front of that of `j` on one side and dropped on the other.
      subst hi
      have hij : (i == j) = false := beq_false_of_ne (Ne.symm h)
      simpa [ahead, without, hij] using ih
    · by_cases hj : i = j
      · subst hj
        simp [ahead, without, hi]
      · simpa [ahead, without, hi, hj] using ih

/-- Within its first `n` entries, a list finds the keys with fewer than `n` entries ahead. -/
theorem lookup_take :
    (l.take n).lookup k = some a ↔ l.lookup k = some a ∧ (ahead k l).length < n := by
  induction l generalizing n with
  | nil => simp
  | cons e l ih =>
    obtain ⟨i, b⟩ := e
    cases n with
    | zero => simp
    | succ n =>
      rw [List.take_succ_cons, List.lookup_cons, List.lookup_cons]
      by_cases hi : i = k
      · subst hi
        simp [ahead]
      · have hki : (k == i) = false := beq_false_of_ne (Ne.symm hi)
        have hahead : ahead k ((i, b) :: l) = (i, b) :: ahead k l := by simp [ahead, hi]
        rw [hki, hahead, List.length_cons, Nat.add_lt_add_iff_right]
        exact ih

theorem take_without_take (h : (l.map Prod.fst).Nodup) :
    (without k (l.take (n + 1))).take n = (without k l).take n := by
  -- One entry more than is needed makes up for the one that `without` drops.
  induction l generalizing n with
  | nil => simp
  | cons e l ih =>
    obtain ⟨i, b⟩ := e
    obtain ⟨hmem, hl⟩ := List.nodup_cons.1 h
    rw [List.take_succ_cons]
    by_cases hi : i = k
    · subst hi
      have hdrop (l' : List (κ × α)) : without i ((i, b) :: l') = without i l' := by simp [without]
      have htake : i ∉ (l.take n).map Prod.fst := fun hin =>
        hmem ((List.take_subset n l |> List.map_subset _) hin)
      rw [hdrop, hdrop, without_eq_self hmem, without_eq_self htake, List.take_take, Nat.min_self]
    · have hkeep (l' : List (κ × α)) : without k ((i, b) :: l') = (i, b) :: without k l' := by
        simp [without, hi]
      rw [hkeep, hkeep]
      cases n with
      | zero => rfl
      | succ n => rw [List.take_succ_cons, List.take_succ_cons, ih hl]

variable {r : Recent κ α}

theorem entries_add (h : (l.map Prod.fst).Nodup) (hr : r.entries = l.take r.capacity) :
    (r.add k a).entries = ((k, a) :: without k l).take r.capacity := by
  show ((k, a) :: without k r.entries).take r.capacity = _
  rw [hr]
  cases r.capacity with
  | zero => rfl
  | succ n => rw [List.take_succ_cons, List.take_succ_cons, take_without_take h]

theorem entries_get? (h : (l.map Prod.fst).Nodup) (hr : r.entries = l.take r.capacity)
    (ha : (r.get? k).1 = some a) :
    r.entries.lookup k = some a ∧
      (r.get? k).2.entries = ((k, a) :: without k l).take r.capacity := by
  have hlook : r.entries.lookup k = some a := by
    unfold get? peek? at ha
    cases hp : r.entries.lookup k with
    | none => rw [hp] at ha; cases ha
    | some b => rw [hp] at ha; exact ha
  have hget : (r.get? k).2.entries = (k, a) :: without k r.entries := by
    unfold get? peek?
    rw [hlook]
  refine ⟨hlook, ?_⟩
  -- There is room, since the entry of `k` itself is among those that are held.
  have hroom : ((k, a) :: without k r.entries).length ≤ r.capacity := by
    have hmem : (k, a) ∈ r.entries := mem_of_peek? hlook
    have hless : (without k r.entries).length < r.entries.length :=
      List.length_filter_lt_length_iff_exists.2 ⟨_, hmem, by simp⟩
    have hheld : r.entries.length ≤ r.capacity := by
      rw [hr]
      exact List.length_take_le _ _
    rw [List.length_cons]
    omega
  rw [hget, ← entries_add h hr]
  exact (List.take_of_length_le hroom).symm

omit [LawfulBEq κ] in
theorem entries_get?_of_none (ha : (r.get? k).1 = none) : (r.get? k).2 = r := by
  unfold get? at *
  cases hp : r.peek? k with
  | none => rfl
  | some b => rw [hp] at ha; cases ha

end Recent

namespace Store

variable {α : Type}

/-! ## Calls and what is recorded of them -/

/-- What a store is asked for. -/
inductive Call (α : Type)
  | add (k : Bytes) (program : Option α)
  | get (k : Bytes)
  | purge
  | stats

/-- A call with its answer. -/
inductive Event (α : Type)
  | added (k : Bytes) (program : Option α)
  | fetched (k : Bytes) (program : Option α)
  | purged
  | reported (stats : StoreStats)

def Call.isGet : Call α → Bool
  | .get _ => true
  | _ => false

namespace Event

/-- The key that becomes the latest: one that gets a program, or one whose program is found. -/
def used? : Event α → Option Bytes
  | .added k (some _) => some k
  | .fetched k (some _) => some k
  | _ => none

/-- The program that is added under a key. -/
def added? (k : Bytes) : Event α → Option α
  | .added j (some a) => if j = k then some a else none
  | _ => none

def isPurge : Event α → Bool
  | .purged => true
  | _ => false

end Event

/-- Answers one call. -/
def perform (s : Store α) : Call α → Event α × Store α
  | .add k program => (.added k program, s.add? k program)
  | .get k => (.fetched k (s.get k).1, (s.get k).2)
  | .purge => (.purged, s.purge)
  | .stats => (.reported s.stats, s)

/-- Answers one more call than those of a history, whose latest event comes first. -/
def record (h : List (Event α) × Store α) (call : Call α) : List (Event α) × Store α :=
  ((h.2.perform call).1 :: h.1, (h.2.perform call).2)

/-- Answers calls one after the other: their history and the store they leave. -/
def performAll (s : Store α) (calls : List (Call α)) : List (Event α) × Store α :=
  calls.foldl record ([], s)

/-- The program added last under a key since the last purge. -/
def lastAdded? (k : Bytes) (history : List (Event α)) : Option α :=
  (history.takeWhile fun e => !e.isPurge).findSome? (Event.added? k)

/-- The keys used since `k` was used last, each as often as it was used. -/
def usedSince (k : Bytes) (history : List (Event α)) : List Bytes :=
  (history.takeWhile fun e => e.used? ≠ some k).filterMap Event.used?

/-! ## The ledger of a history -/

/-- Every key that was added since the last purge, with its program, the latest used first. -/
structure Ledger (history : List (Event α)) (l : List (Bytes × α)) : Prop where
  nodup : (l.map Prod.fst).Nodup
  lookup : ∀ k, l.lookup k = lastAdded? k history
  ahead : ∀ k ∈ l.map Prod.fst, ∀ j,
    j ∈ (Recent.ahead k l).map Prod.fst ↔ j ∈ usedSince k history

namespace Ledger

variable {history : List (Event α)} {l : List (Bytes × α)} {e : Event α} {k : Bytes} {a : α}

theorem nil : Ledger ([] : List (Event α)) [] := ⟨List.nodup_nil, fun _ => rfl, by simp⟩

theorem purged : Ledger (.purged :: history) [] := ⟨List.nodup_nil, fun _ => rfl, by simp⟩

theorem idle (h : Ledger history l) (hused : e.used? = none) (hpurge : e.isPurge = false)
    (hadded : ∀ k, e.added? k = none) : Ledger (e :: history) l := by
  refine ⟨h.nodup, fun k => ?_, fun k hk j => ?_⟩
  · rw [h.lookup]
    simp [lastAdded?, hpurge, hadded]
  · rw [h.ahead k hk]
    simp [usedSince, hused]

theorem use (h : Ledger history l) (hused : e.used? = some k)
    (hlast : ∀ j, lastAdded? j (e :: history) =
      if j = k then some a else lastAdded? j history) :
    Ledger (e :: history) ((k, a) :: Recent.without k l) := by
  refine ⟨Recent.nodup_keys_cons_without h.nodup, fun j => ?_, fun j hj i => ?_⟩
  · rw [hlast, List.lookup_cons]
    by_cases hjk : j = k
    · simp [hjk]
    · rw [if_neg hjk, beq_false_of_ne hjk, Recent.lookup_without hjk, h.lookup]
  · by_cases hjk : k = j
    · -- Nothing is ahead of the key just used.
      subst hjk
      simp [Recent.ahead, usedSince, hused]
    · have hmem : j ∈ l.map Prod.fst := by
        rcases List.mem_cons.1 hj with rfl | hj
        · exact absurd rfl hjk
        · exact (Recent.mem_keys_without.1 hj).1
      have hfront : Recent.ahead j ((k, a) :: Recent.without k l) =
          (k, a) :: Recent.without k (Recent.ahead j l) := by
        rw [← Recent.ahead_without (Ne.symm hjk)]
        simp [Recent.ahead, hjk]
      have hsince : usedSince j (e :: history) = k :: usedSince j history := by
        simp [usedSince, hused, hjk]
      rw [hfront, hsince, List.map_cons, List.mem_cons, List.mem_cons, Recent.mem_keys_without,
        h.ahead j hmem]
      by_cases hik : i = k
      · simp [hik]
      · simp [hik]

theorem add (h : Ledger history l) :
    Ledger (.added k (some a) :: history) ((k, a) :: Recent.without k l) := by
  apply h.use rfl
  intro j
  by_cases hjk : j = k
  · simp [lastAdded?, Event.isPurge, Event.added?, hjk]
  · simp [lastAdded?, Event.isPurge, Event.added?, hjk, Ne.symm hjk]

theorem fetch (h : Ledger history l) (ha : l.lookup k = some a) :
    Ledger (.fetched k (some a) :: history) ((k, a) :: Recent.without k l) := by
  apply h.use rfl
  intro j
  have hsame : lastAdded? j (.fetched k (some a) :: history) = lastAdded? j history := by
    rfl
  rw [hsame]
  by_cases hjk : j = k
  · rw [if_pos hjk, hjk, ← h.lookup, ha]
  · rw [if_neg hjk]

/-- The entries ahead of a key are as many as the different keys used since. -/
theorem length_ahead (h : Ledger history l) (hk : k ∈ l.map Prod.fst) :
    (Recent.ahead k l).length = (usedSince k history).dedup.length := by
  have hnodup : ((Recent.ahead k l).map Prod.fst).Nodup :=
    h.nodup.sublist ((List.takeWhile_sublist _).map _)
  have hperm : ((Recent.ahead k l).map Prod.fst).Perm (usedSince k history).dedup := by
    rw [List.perm_ext_iff_of_nodup hnodup (List.nodup_dedup _)]
    intro j
    rw [h.ahead k hk, List.mem_dedup]
  rw [← hperm.length_eq, List.length_map]

end Ledger

/-! ## The store is the front of the ledger -/

/-- The store holds the front of the ledger of the history. -/
structure Recorded (capacity : Nat) (history : List (Event α)) (s : Store α) : Prop where
  capacity_eq : s.programs.capacity = capacity
  entries_eq : ∃ l, Ledger history l ∧ s.programs.entries = l.take capacity

theorem get_fst (s : Store α) (k : Bytes) : (s.get k).1 = (s.programs.get? k).1 := by
  unfold get
  split <;> rename_i h <;> rw [h]

theorem get_programs (s : Store α) (k : Bytes) :
    (s.get k).2.programs = (s.programs.get? k).2 := by
  unfold get
  split <;> rename_i h <;> rw [h]

theorem get_fst_eq_lookup (s : Store α) (k : Bytes) :
    (s.get k).1 = s.programs.entries.lookup k := by
  rw [get_fst]
  unfold Recent.get? Recent.peek?
  cases s.programs.entries.lookup k <;> rfl

namespace Recorded

variable {capacity : Nat} {history : List (Event α)} {s : Store α}

theorem perform (h : Recorded capacity history s) (call : Call α) :
    Recorded capacity ((s.perform call).1 :: history) (s.perform call).2 := by
  obtain ⟨hcap, l, hl, hs⟩ := h
  subst hcap
  cases call with
  | add k program =>
    cases program with
    | none => exact ⟨rfl, l, hl.idle rfl rfl fun _ => rfl, hs⟩
    | some a => exact ⟨rfl, _, hl.add, Recent.entries_add hl.nodup hs⟩
  | get k =>
    have hkept : (s.get k).2.programs.capacity = s.programs.capacity := by
      rw [get_programs]
      unfold Recent.get?
      split <;> rfl
    cases hget : (s.programs.get? k).1 with
    | none =>
      have hmiss : (s.get k).1 = none := by rw [get_fst, hget]
      have hsame : (s.get k).2.programs = s.programs := by
        rw [get_programs, Recent.entries_get?_of_none hget]
      refine ⟨hkept, l, ?_, ?_⟩
      · show Ledger (.fetched k (s.get k).1 :: history) l
        rw [hmiss]
        exact hl.idle rfl rfl fun _ => rfl
      · show (s.get k).2.programs.entries = _
        rw [hsame, hs]
    | some a =>
      have hhit : (s.get k).1 = some a := by rw [get_fst, hget]
      obtain ⟨hlook, hentries⟩ := Recent.entries_get? hl.nodup hs hget
      have hlast : l.lookup k = some a := by
        rw [hs] at hlook
        exact (Recent.lookup_take.1 hlook).1
      refine ⟨hkept, (k, a) :: Recent.without k l, ?_, ?_⟩
      · show Ledger (.fetched k (s.get k).1 :: history) _
        rw [hhit]
        exact hl.fetch hlast
      · show (s.get k).2.programs.entries = _
        rw [get_programs]
        exact hentries
  | purge => exact ⟨rfl, [], .purged, by simp [Store.perform, purge, Recent.clear]⟩
  | stats => exact ⟨rfl, l, hl.idle rfl rfl fun _ => rfl, hs⟩

theorem get_eq_some_iff (h : Recorded capacity history s) (k : Bytes) (a : α) :
    (s.get k).1 = some a ↔
      lastAdded? k history = some a ∧ (usedSince k history).dedup.length < capacity := by
  obtain ⟨-, l, hl, hs⟩ := h
  rw [get_fst_eq_lookup, hs, Recent.lookup_take, hl.lookup]
  constructor
  all_goals
    rintro ⟨ha, hlt⟩
    have hmem : k ∈ l.map Prod.fst := by
      have hlook : l.lookup k = some a := by rw [hl.lookup, ha]
      exact List.mem_map_of_mem (Recent.mem_of_peek? (r := ⟨0, l⟩) hlook)
    rw [hl.length_ahead hmem] at *
    exact ⟨ha, hlt⟩

theorem foldl_record {h : List (Event α) × Store α} (hh : Recorded capacity h.1 h.2)
    (calls : List (Call α)) :
    Recorded capacity (calls.foldl record h).1 (calls.foldl record h).2 := by
  induction calls generalizing h with
  | nil => exact hh
  | cons call calls ih => exact ih (h := record h call) (hh.perform call)

theorem size_le (h : Recorded capacity history s) : s.programs.size ≤ capacity := by
  obtain ⟨-, l, -, hs⟩ := h
  unfold Recent.size
  rw [hs]
  exact List.length_take_le _ _

theorem nodup_keys (h : Recorded capacity history s) :
    (s.programs.entries.map Prod.fst).Nodup := by
  obtain ⟨-, l, hl, hs⟩ := h
  rw [hs]
  exact hl.nodup.sublist ((List.take_sublist _ _).map _)

end Recorded

theorem counts_perform (s : Store α) (call : Call α) :
    (s.perform call).2.hits + (s.perform call).2.misses =
      s.hits + s.misses + if call.isGet then 1 else 0 := by
  cases call with
  | add k program =>
    have hidle : (s.add? k program).hits + (s.add? k program).misses = s.hits + s.misses := by
      cases program <;> rfl
    exact hidle.trans (UInt64.add_zero _).symm
  | get k =>
    show (s.get k).2.hits + (s.get k).2.misses = s.hits + s.misses + 1
    unfold get
    split
    · show s.hits + 1 + s.misses = _
      ac_rfl
    · show s.hits + (s.misses + 1) = _
      ac_rfl
  | purge => exact (UInt64.add_zero _).symm
  | stats => exact (UInt64.add_zero _).symm

theorem counts_foldl_record (h : List (Event α) × Store α) (calls : List (Call α)) :
    (calls.foldl record h).2.hits + (calls.foldl record h).2.misses =
      h.2.hits + h.2.misses + .ofNat (calls.countP Call.isGet) := by
  induction calls generalizing h with
  | nil => exact (UInt64.add_zero _).symm
  | cons call calls ih =>
    have hone : UInt64.ofNat (if call.isGet then 1 else 0) = if call.isGet then 1 else 0 := by
      split <;> rfl
    rw [List.foldl_cons, ih, List.countP_cons, UInt64.ofNat_add, hone]
    show (h.2.perform call).2.hits + (h.2.perform call).2.misses + _ = _
    rw [counts_perform]
    ac_rfl

/-- Over every series of calls, a store of a positive capacity holds no more programs than that
and none twice, and counts every get and nothing else, in words. A key is found, with the program
that was added last under it, if and only if one was added since the last purge and fewer other keys
than the capacity were added or found since that key was. -/
theorem holds_the_keys_used_last (capacity : Int) (hc : 0 < capacity) (calls : List (Call α)) :
    ∃ empty history s, create? capacity = some empty ∧ empty.performAll calls = (history, s) ∧
      s.stats.entries ≤ capacity ∧ s.stats.capacity = capacity ∧
      (s.programs.entries.map Prod.fst).Nodup ∧
      s.stats.hits + s.stats.misses = .ofNat (calls.countP Call.isGet) ∧
      (s.purge.stats.hits = s.stats.hits ∧ s.purge.stats.misses = s.stats.misses) ∧
      (∀ k, s.add? k none = s) ∧
      ∀ k a, (s.get k).1 = some a ↔
        lastAdded? k history = some a ∧ (usedSince k history).dedup.length < capacity := by
  let empty : Store α := { programs := { capacity := capacity.toNat } }
  have hcreate : create? capacity = some empty := if_neg (by omega)
  have hcap : (capacity.toNat : Int) = capacity := Int.toNat_of_nonneg (by omega)
  have hempty : Recorded capacity.toNat [] empty := ⟨rfl, [], .nil, by simp [empty]⟩
  have hrun := hempty.foldl_record (h := ([], empty)) calls
  have hcounts := counts_foldl_record ([], empty) calls
  rw [← performAll] at hrun hcounts
  rw [show empty.hits + empty.misses = 0 from rfl, UInt64.zero_add] at hcounts
  generalize hh : (empty.performAll calls).1 = history at *
  generalize hs : (empty.performAll calls).2 = s at *
  refine ⟨empty, history, s, hcreate, by rw [← hh, ← hs], ?_, ?_, hrun.nodup_keys, hcounts,
    ⟨rfl, rfl⟩, fun _ => rfl, fun k a => ?_⟩
  · have hsize : s.programs.size ≤ capacity.toNat := hrun.size_le
    show (s.programs.size : Int) ≤ capacity
    omega
  · show (s.programs.capacity : Int) = capacity
    rw [hrun.capacity_eq, hcap]
  · rw [hrun.get_eq_some_iff]
    apply and_congr_right
    intro _
    omega

/-- With room for two, the key that is fetched outlives the one that is not. -/
theorem fetched_key_outlives_the_other :
    ∃ (empty : Store Nat) (history : _) (s : _), create? 2 = some empty ∧
      empty.performAll [.add [1] (some 10), .add [2] (some 20), .get [1], .add [3] (some 30)] =
        (history, s) ∧
      (s.get [1]).1 = some 10 ∧ (s.get [2]).1 = none := by
  obtain ⟨empty, history, s, hcreate, hrun, -, -, -, -, -, -, hget⟩ :=
    holds_the_keys_used_last 2 (by decide)
      [.add [1] (some 10), .add [2] (some 20), .get [1], .add [3] (some 30)]
  refine ⟨empty, history, s, hcreate, hrun, ?_⟩
  cases hcreate
  have hhistory := congrArg Prod.fst hrun
  dsimp only at hhistory
  constructor
  · rw [hget, ← hhistory]
    decide
  · rw [Option.eq_none_iff_forall_not_mem]
    intro a ha
    have hfew := ((hget _ a).1 ha).2
    rw [← hhistory] at hfew
    exact absurd hfew (by decide)

end Store
end Scriptlet
