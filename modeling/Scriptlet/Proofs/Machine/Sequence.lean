import Scriptlet.Proofs.Machine.Naturality

/-!
# Sequence: one program behind another

A program put behind another runs on the machine that the other leaves, as it does when the two are
run one after the other. This needs the first to come to its end: statements behind a `break` or a
`return` are not reached.
-/

namespace Scriptlet

namespace Exec

variable {b : Budget} {s : Stmt} {ss : List Stmt} {m k : Machine} {n : Nat}

/-- Statements come to their end if the first does and the others do. -/
theorem exists_of_block_cons (h : block b (n + 1) (s :: ss) m = .ok .next k) :
    ∃ l, stmt b n s m = .ok .next l ∧ block b n ss l = .ok .next k := by
  rw [block] at h
  cases hs : stmt b n s m with
  | error halt l => rw [bind_eq_of_error hs] at h; cases h
  | ok flow l =>
    rw [bind_eq_of_ok hs] at h
    cases flow with
    | next => exact ⟨l, rfl, h⟩
    | leave | ret => cases h

/-- Statements behind others that come to their end run on what those leave. -/
theorem block_append {ts : List Stmt} (h : block b (n + ss.length) ss m = .ok .next k) :
    block b (n + ss.length) (ss ++ ts) m = block b n ts k := by
  -- Each statement costs a unit of fuel, so `n` units are left when the first list is done.
  induction ss generalizing m with
  | nil =>
    cases n with
    | zero => rw [List.length_nil, block] at h; cases h
    | succ n => rw [List.length_nil, block] at h; cases h; rfl
  | cons s ss ih =>
    rw [List.length_cons, ← Nat.add_assoc] at h ⊢
    obtain ⟨l, hs, hss⟩ := exists_of_block_cons h
    rw [List.cons_append, block, bind_eq_of_ok hs]
    exact ih hss

end Exec

namespace Machine

open Exec

variable {b : Budget} {p q : Program} {m k : Machine} {n : Nat}

/-- A run that completes has run all statements, if no `break` or `return` is at the top. -/
theorem block_of_run (htop : ∀ flow l, block b n p m = .ok flow l → flow = .next)
    (h : run b n p m = .ok () k) : block b n p m = .ok .next k := by
  cases hc : b.cancelled m with
  | some reason => rw [run_eq, hc] at h; cases h
  | none =>
    rw [run_of_not_cancelled hc] at h
    cases hblock : block b n p m with
    | error halt l => rw [hblock] at h; cases h
    | ok flow l =>
      rw [hblock] at h
      cases h
      rw [htop flow k hblock]

/-- A program behind another runs on the machine that the other leaves. -/
theorem run_append (hnever : ∀ l, b.cancelled l = none)
    (htop : ∀ flow l, block b (n + p.length) p m = .ok flow l → flow = .next)
    (h : run b (n + p.length) p m = .ok () k) :
    run b (n + p.length) (p ++ q) m = run b n q k := by
  have hblock : block b (n + p.length) (p ++ q) m = block b n q k :=
    block_append (block_of_run htop h)
  rw [run_of_not_cancelled (hnever m), run_of_not_cancelled (hnever k), hblock]

/-- Two programs run one after the other end as the one behind the other does. -/
theorem endsIn_append_iff (hnever : ∀ l, b.cancelled l = none)
    (htop : ∀ n flow l, block b n p m = .ok flow l → flow = .next)
    (h : EndsIn b p m (.ok () k)) (r : EStateM.Result Halt Machine Unit) :
    EndsIn b (p ++ q) m r ↔ EndsIn b q k r := by
  obtain ⟨n₀, hn₀⟩ := h.fuel
  -- With enough fuel for the first program the two runs are one and the same.
  have happend : ∀ n, n₀ ≤ n → run b (n + p.length) (p ++ q) m = run b n q k := by
    intro n hn
    exact run_append hnever (htop _) (hn₀ _ (by omega))
  constructor
  · intro hr
    obtain ⟨n, hn⟩ := hr.fuel
    refine ⟨hr.finished, max n₀ n, fun fuel hfuel => ?_⟩
    rw [← happend fuel (by omega)]
    exact hn _ (by omega)
  · intro hr
    obtain ⟨n, hn⟩ := hr.fuel
    refine ⟨hr.finished, max n₀ n + p.length, fun fuel hfuel => ?_⟩
    obtain ⟨d, rfl⟩ := Nat.exists_eq_add_of_le hfuel
    have hsum : max n₀ n + p.length + d = max n₀ n + d + p.length := by omega
    rw [hsum, happend _ (by omega)]
    exact hn _ (by omega)

end Machine

variable {f : Span → Span}

theorem finished_movedBy {α : Type} (r : EStateM.Result Halt Machine α) :
    finished (movedBy f r) = finished r := by
  cases r with
  | ok a m => rfl
  | error h m =>
    cases h with
    | fault | exit | stuck | outOfFuel => rfl

/-- A moved program ends on a moved machine as the program does, moved. -/
theorem Machine.endsIn_respan_iff {b : Budget} (hb : b.Blind) (hf : f .origin = .origin)
    (p : Program) (m : Machine) (r : EStateM.Result Halt Machine Unit) :
    EndsIn b (Stmt.allRespan f p) (m.respan f) r ↔ ∃ r', EndsIn b p m r' ∧ r = movedBy f r' := by
  constructor
  · intro hr
    obtain ⟨n, hn⟩ := hr.exists_run
    rw [run_respan hb hf] at hn
    have hfinished : finished (run b n p m) = true := by
      rw [← finished_movedBy (f := f), hn]
      exact hr.finished
    exact ⟨_, endsIn_run hfinished, hn.symm⟩
  · rintro ⟨r', hr', rfl⟩
    obtain ⟨n, hn⟩ := hr'.fuel
    refine ⟨by rw [finished_movedBy]; exact hr'.finished, n, fun fuel hfuel => ?_⟩
    rw [run_respan hb hf, hn fuel hfuel]

end Scriptlet
