import Mathlib.Algebra.Order.Field.Power
import Mathlib.Algebra.Order.Ring.Rat
import Scriptlet.Playground.Service
import Scriptlet.Proofs.Playground.Buckets

/-!
# Admission: requests one after the other

What handles a request neither looks at the gate nor changes it, and nothing else handles one that
the gate stops. So behind a gate with buckets a request is handled as if there were no gate, if it
is among the first of its client, and leaves no trace if it is not.
-/

namespace Scriptlet

/-- The number that a finite one stands for. -/
def Binary64.toRat? : Binary64 → Option ℚ
  | .finite negative m e => some ((if negative then -1 else 1) * m * 2 ^ e)
  | .infinite _ | .nan => none

/-- What a client is known by at the gate. -/
def Request.client (r : Request) : Bytes := Gate.clientKey r.remote

namespace Gate

/-- The rate is positive, and below the one that means no limit. -/
def Limits (rate : Binary64) : Prop :=
  ∃ q top, rate.toRat? = some q ∧ endless.toRat? = some top ∧ 0 < q ∧ q < top

/-- The buckets of a new gate. -/
def newBuckets (burst : Nat) : Buckets := { burst, known := { capacity := maxClients } }

theorem ofRate_of_limits {rate : Binary64} (h : Limits rate) {burst : Int} (hburst : 1 ≤ burst) :
    ofRate rate burst = .buckets (newBuckets burst.toNat) := by
  obtain ⟨q, top, hq, htop, hpos, hlt⟩ := h
  cases rate with
  | infinite negative => cases hq
  | nan => cases hq
  | finite negative m e =>
    have hvalue : (if negative then -1 else 1) * (m : ℚ) * 2 ^ e = q := Option.some.inj hq
    -- Each way to an open gate goes against one of the bounds on the rate.
    have hsign : negative = false := by
      by_contra hsign
      have hmagnitude : 0 ≤ (m : ℚ) * 2 ^ e := mul_nonneg m.cast_nonneg (Rat.zpow_pos rfl).le
      rw [if_pos (Bool.eq_true_of_not_eq_false hsign), neg_one_mul, neg_mul] at hvalue
      rw [← hvalue, neg_pos] at hpos
      exact absurd hmagnitude (not_le.2 hpos)
    have hmantissa : m ≠ 0 := by
      rintro rfl
      rw [Nat.cast_zero, mul_zero, zero_mul] at hvalue
      exact absurd hvalue hpos.ne
    have hbelow : Binary64.finite negative m e ≠ endless := by
      intro heq
      rw [heq, htop] at hq
      exact hlt.ne (Option.some.inj hq).symm
    have hlimited : ¬ (negative || m = 0 || Binary64.finite negative m e = endless) = true := by
      rw [hsign, decide_eq_false hmantissa, decide_eq_false (hsign ▸ hbelow)]
      decide
    show (if negative || m = 0 || Binary64.finite negative m e = endless then .wide
      else Gate.buckets { burst := if burst ≤ 0 then 1 else burst.toNat, known := _ }) = _
    rw [if_neg hlimited, if_neg (Int.not_le.2 hburst)]
    rfl

end Gate

namespace Playground

variable {p : Playground} {r : Request} {s : State}

/-! ## Handling a request -/

/-- What the handler behind the gate does with a request. -/
def handle (p : Playground) (r : Request) (s : State) : Reply × State :=
  let (reply, s) := p.serveAdmitted (p.requestId r) r s
  (reply.withHeader "X-Request-Id" (p.requestId r), s)

/-- What a request is answered that is not let in. -/
def turnedAway (p : Playground) (r : Request) : Reply :=
  tooMany.withHeader "X-Request-Id" (p.requestId r)

theorem serve_eq (p : Playground) (r : Request) (s : State) :
    p.serve r s =
      let (admitted, gate) := s.gate.letIn r.client
      if admitted then p.handle r { s with gate } else (p.turnedAway r, { s with gate }) := by
  unfold serve
  dsimp only [Request.client]
  split
  · rfl
  · rfl

/-- Neither looks at the gate nor changes it. -/
def Ungated {α : Type} (f : State → α × State) : Prop :=
  ∀ s gate, f { s with gate } = ((f s).1, { (f s).2 with gate })

theorem ungated_runProgram (p : Playground) (runId id : Bytes) (req : RunRequest) :
    Ungated (p.runProgram runId id req) := fun _ _ => rfl

theorem ungated_serveRun (p : Playground) (id body : Bytes) : Ungated (p.serveRun id body) := by
  intro s gate
  unfold serveRun
  split
  · rfl
  · rfl
  · split
    · rfl
    · split
      · rfl
      · dsimp only
        cases p.runId (s.runs + 1) with
        | none => rfl
        | some runId => exact ungated_runProgram p runId id _ { s with runs := s.runs + 1 } gate

theorem ungated_share (p : Playground) (id : Bytes) (r : Request) : Ungated (p.share id r) := by
  intro s gate
  unfold share
  split
  · rfl
  · unfold dispatch
    split
    · rfl
    · split
      · rfl
      · rfl
      · split
        · rfl
        · split
          · rfl
          · rfl
          · exact ungated_serveRun p id r.body s gate

theorem ungated_handle (p : Playground) (r : Request) : Ungated (p.handle r) := by
  have hrecover : Ungated (p.recover (p.requestId r) r) := by
    intro s gate
    unfold recover
    rw [ungated_share p (p.requestId r) r s gate]
    generalize p.share (p.requestId r) r s = shared
    obtain ⟨handled, t⟩ := shared
    cases handled with
    | reply reply => rfl
    | crash reason => rfl
  intro s gate
  unfold handle serveAdmitted
  rw [hrecover s gate]
  cases p.logRequests with
  | true => rfl
  | false => rfl

theorem gate_handle (p : Playground) (r : Request) (s : State) :
    (p.handle r s).2.gate = s.gate :=
  congrArg (·.2.gate) (ungated_handle p r s s.gate)

theorem gate_serve (p : Playground) (r : Request) (s : State) :
    (p.serve r s).2.gate = (s.gate.letIn r.client).2 := by
  rw [serve_eq]
  generalize s.gate.letIn r.client = answer
  obtain ⟨admitted, gate⟩ := answer
  cases admitted with
  | true => exact gate_handle p r { s with gate }
  | false => rfl

/-! ## Requests one after the other -/

/-- The gate has buckets of `burst` tokens, and of `clients` those in `seen` have asked for one. -/
def State.Tally (clients seen : List Bytes) (burst : Nat) (s : State) : Prop :=
  ∃ b, s.gate = .buckets b ∧ b.burst = burst ∧ b.Tally clients seen

theorem State.tally_new {clients : List Bytes} {burst : Nat}
    (hgate : s.gate = .buckets (Gate.newBuckets burst))
    (hfew : clients.dedup.length ≤ Gate.maxClients) : s.Tally clients [] burst :=
  ⟨Gate.newBuckets burst, hgate, rfl, Buckets.tally_new hfew⟩

section Serve

variable {clients seen : List Bytes} {burst : Nat}

/-- A request is handled as long as its client has sent fewer than there are tokens; if not, there
is nothing left of it but what became of the gate. -/
theorem State.Tally.serve_eq (h : s.Tally clients seen burst) (hr : r.client ∈ clients) :
    ∃ gate, s.gate.letIn r.client = (decide (seen.count r.client < burst), gate) ∧
      p.serve r s = if seen.count r.client < burst then p.handle r { s with gate }
        else (p.turnedAway r, { s with gate }) := by
  obtain ⟨b, hgate, rfl, htally⟩ := h
  obtain ⟨hgranted, -, -⟩ := htally.letIn hr
  have hletIn : s.gate.letIn r.client =
      (decide (seen.count r.client < b.burst), .buckets (b.letIn r.client).2) := by
    rw [hgate, ← hgranted]
    rfl
  refine ⟨_, hletIn, ?_⟩
  rw [Playground.serve_eq, hletIn]
  dsimp only
  by_cases hlt : seen.count r.client < b.burst
  · rw [decide_eq_true hlt, if_pos rfl, if_pos hlt]
  · rw [decide_eq_false hlt, if_neg Bool.false_ne_true, if_neg hlt]

theorem State.Tally.serve (h : s.Tally clients seen burst) (hr : r.client ∈ clients) :
    (p.serve r s).2.Tally clients (seen ++ [r.client]) burst := by
  obtain ⟨b, hgate, rfl, htally⟩ := h
  obtain ⟨-, hburst, htally⟩ := htally.letIn hr
  refine ⟨(b.letIn r.client).2, ?_, hburst, htally⟩
  rw [gate_serve, hgate]
  rfl

theorem State.Tally.serveAll (h : s.Tally clients seen burst) {requests : List Request}
    (hr : requests.map Request.client ⊆ clients) :
    (p.serveAll requests s).2.Tally clients (seen ++ requests.map Request.client) burst := by
  induction requests generalizing s seen with
  | nil =>
    rw [List.map_nil, List.append_nil]
    exact h
  | cons r rest ih =>
    rw [List.map_cons, List.cons_subset] at hr
    have hrest := ih (h.serve (p := p) hr.1) hr.2
    rw [List.append_assoc] at hrest
    exact hrest

end Serve

/-- The reply to a request is what serving it after those before it gives. -/
theorem reply_serveAll (p : Playground) (before : List Request) (r : Request)
    (after : List Request) (s : State) :
    (p.serveAll (before ++ r :: after) s).1[before.length]? =
      some (p.serve r (p.serveAll before s).2).1 := by
  induction before generalizing s with
  | nil => rfl
  | cons q before ih => exact ih (p.serve q s).2

end Playground
end Scriptlet
