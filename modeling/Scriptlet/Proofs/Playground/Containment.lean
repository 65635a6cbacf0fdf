import Scriptlet.Playground.Service
import Scriptlet.Proofs.Runner.Bound
import Scriptlet.Proofs.Runner.Ending

/-!
# Containment: requests to run a program

A request to run a program is refused for its size or its form, or the program is run; then the
answer tells how the run ended, and it ended: it finished, or failed with one diagnostic. What it
wrote keeps to the bound, and is what it would have written without one, up to a write that was
refused.
-/

namespace Scriptlet

open Writable

/-- The value of a field of an object. -/
def Payload.field? (key : Bytes) : Payload → Option Payload
  | .object fields => fields.lookup key
  | .null | .bool _ | .number _ | .string _ | .array _ => none

namespace Playground

/-- The run that a request asks for, started on `w`. -/
def runOn (p : Playground) (runId id : Bytes) (req : RunRequest) (w : Surface) :
    RunEnd × Surface :=
  let name := if req.name.isEmpty then usualName else req.name
  let mode : RunMode := { debug := req.debug, dryRun := req.dryRun, time := req.time }
  (p.runner runId id).run (some mode) name req.code w

/-! ## States -/

/-- The programs kept come from texts. -/
def State.Parsed (s : State) : Prop := ∀ t ∈ s.store, t.Holds fun _ loaded => loaded.Parsed

/-- The states that playgrounds get into: the store is new, and is used by runners and by requests,
to this playground or to others. -/
inductive State.Reached : State → Prop
  | new (capacity : Int) (gate : Gate) (runs : Nat) (log : List LogEntry) :
    Reached { store := Store.create? capacity, gate, runs, log }
  | used {s : State} (h : Reached s) (w : Surface) (uses : List Use) :
    Reached { s with store := (Use.after { w with store := s.store } uses).store }
  | served {s : State} (h : Reached s) (p : Playground) (r : Request) : Reached (p.serve r s).2

section Step

variable {s : State} (hs : s.Parsed) (p : Playground) (id : Bytes)
include hs

theorem parsed_runProgram (runId : Bytes) (req : RunRequest) :
    (p.runProgram runId id req s).2.Parsed := by
  have hstart : (p.surface s req.stdin).Parsed := hs
  have hran : (p.runOn runId id req (p.surface s req.stdin)).2.Parsed :=
    Runner.parsed_run hstart _ _ _ _
  exact hran

theorem parsed_serveRun (body : Bytes) : (p.serveRun id body s).2.Parsed := by
  unfold serveRun
  split
  · exact hs
  · exact hs
  · rename_i req _
    split
    · exact hs
    · split
      · exact hs
      · split
        · exact hs
        · rename_i runId _
          have hcounted : State.Parsed { s with runs := s.runs + 1 } := hs
          exact parsed_runProgram hcounted p id runId req

theorem parsed_dispatch (r : Request) : (p.dispatch id r s).2.Parsed := by
  unfold dispatch
  split
  · exact hs
  · split
    · exact hs
    · exact hs
    · split
      · exact hs
      · split
        · exact hs
        · exact hs
        · exact parsed_serveRun hs p id r.body

theorem parsed_recover (r : Request) : (p.recover id r s).2.Parsed := by
  have hshare : (p.share id r s).2.Parsed := by
    unfold share
    split
    · exact hs
    · exact parsed_dispatch hs p id r
  unfold recover
  generalize p.share id r s = shared at hshare
  obtain ⟨handled, t⟩ := shared
  cases handled with
  | reply reply => exact hshare
  | crash reason => exact hshare

theorem parsed_serve (r : Request) : (p.serve r s).2.Parsed := by
  have hlet (gate : Gate) : State.Parsed { s with gate } := hs
  unfold serve
  generalize s.gate.letIn (Gate.clientKey r.remote) = answer
  obtain ⟨admitted, gate⟩ := answer
  cases admitted with
  | false => exact hlet gate
  | true =>
    have hrecover := parsed_recover (hlet gate) p (p.requestId r) r
    unfold serveAdmitted
    dsimp only
    generalize p.recover (p.requestId r) r { s with gate } = recovered at hrecover
    obtain ⟨reply, t⟩ := recovered
    cases p.logRequests with
    | false => exact hrecover
    | true => exact hrecover

end Step

theorem State.Reached.parsed {s : State} (h : s.Reached) : s.Parsed := by
  induction h with
  | new capacity gate runs log => exact fun t ht => Store.Holds.create? ht
  | used h w uses ih =>
    rename_i s
    have hstart : Surface.Parsed { w with store := s.store } := ih
    exact Use.parsed_after uses hstart
  | served h p r ih => exact parsed_serve ih p r

/-! ## Answers -/

/-- The reply tells how the run ended, with what it wrote: that it finished, or that it failed, with
its one diagnostic. There is nothing else to tell. -/
def Tells (reply : Reply) (source : Bytes) (ran : RunEnd × Surface) : Prop :=
  ∃ told : Payload, reply.body = told.render ++ utf8 "\n" ∧
    told.field? (utf8 "output") = some (.string ran.2.out.text) ∧
    match ran.1 with
    | .finished _ => reply.status = 200 ∧ told.field? (utf8 "diagnostics") = none
    | .failed _ d =>
      reply.status = 422 ∧
        told.field? (utf8 "diagnostics") = some (.array [diagnosticPayload source d])
    | .refused _ | .stuck _ | .unfinished _ => False

/-- The output of the run keeps to the bound of the playground, and is what the run `free` writes
to its end without a bound: its first writes, and all of them unless a stream failed the run. -/
structure Bounded (p : Playground) (ran free : RunEnd × Surface) : Prop where
  length : ran.2.out.text.length ≤ p.maxOutputBytes
  ended : free.1.Decided
  writes : p.budget.Fair → ∃ n, ran.2.out.text = (free.2.out.chunks.reverse.take n).flatten
  whole : p.budget.Fair → ran.1.key? ≠ some (utf8 "E0009") → ran.2.out.text = free.2.out.text

/-- How a request to run a program is answered: what is too large or not understood is refused, and
anything else is run. -/
def Contained (p : Playground) (runId id body : Bytes) (s : State) (reply : Reply) : Prop :=
  match readBody p.bodyLimit body with
  | .error .tooLarge => reply.status = 413
  | .error .malformed => reply.status = 400
  | .ok req =>
    if (trimBlanks req.code).isEmpty then reply.status = 400
    else if p.maxSourceBytes.toInt < req.code.length then reply.status = 413
    else
      let start := p.surface s req.stdin
      let ran := p.runOn runId id req start
      Tells reply req.code ran ∧
        p.Bounded ran (p.runOn runId id req { start with out := .empty none })

theorem field_runPayload (runId out err : Bytes) (report : Report) (source : Bytes)
    (failure : Option Diagnostic) :
    (runPayload runId out err report source failure).field? (utf8 "output") =
        some (.string out) ∧
      (runPayload runId out err report source failure).field? (utf8 "diagnostics") =
        failure.map fun d => .array [diagnosticPayload source d] := by
  unfold runPayload Payload.field?
  constructor
  · rfl
  · cases failure <;> cases err.isEmpty <;> rfl

theorem tells_runProgram (p : Playground) (runId id : Bytes) (req : RunRequest) (s : State)
    (h : (p.runOn runId id req (p.surface s req.stdin)).1.Decided) :
    ∃ reply, (p.runProgram runId id req s).1 = .reply reply ∧
      Tells reply req.code (p.runOn runId id req (p.surface s req.stdin)) := by
  have hrun : (p.runProgram runId id req s).1 =
      let ran := p.runOn runId id req (p.surface s req.stdin)
      let answer (status : Nat) (report : Report) (failure : Option Diagnostic) : Handled :=
        .reply (.document status
          (runPayload runId ran.2.out.text ran.2.err.text report req.code failure))
      match ran.1 with
      | .finished report => answer 200 report none
      | .failed report d => answer 422 report (some d)
      | .refused why => .reply (internalError why.message)
      | .stuck _ => .crash (utf8 "stuck")
      | .unfinished _ => .reply (internalError (utf8 "unfinished")) := rfl
  rw [hrun]
  generalize p.runOn runId id req (p.surface s req.stdin) = ran at h
  obtain ⟨ending, w⟩ := ran
  cases ending with
  | finished report =>
    obtain ⟨hout, hdiagnostics⟩ := field_runPayload runId w.out.text w.err.text report req.code none
    exact ⟨_, rfl, _, rfl, hout, rfl, hdiagnostics⟩
  | failed report d =>
    obtain ⟨hout, hdiagnostics⟩ :=
      field_runPayload runId w.out.text w.err.text report req.code (some d)
    exact ⟨_, rfl, _, rfl, hout, rfl, hdiagnostics⟩
  | refused | stuck | unfinished => exact h.elim

theorem bounded_runOn (p : Playground) (runId id : Bytes) (req : RunRequest) (s : State)
    (h : (p.runOn runId id req { p.surface s req.stdin with out := .empty none }).1.Decided) :
    p.Bounded (p.runOn runId id req (p.surface s req.stdin))
      (p.runOn runId id req { p.surface s req.stdin with out := .empty none }) := by
  have hstart : (p.surface s req.stdin).out.Within p.maxOutputBytes := .empty _
  have hafter : After (p.surface s req.stdin) (p.runOn runId id req (p.surface s req.stdin)).2 :=
    Runner.after_run _ _ _ _ _
  have hcurbed (hb : p.budget.Fair) : RunEnd.Curbed p.maxOutputBytes
      (p.runOn runId id req (p.surface s req.stdin))
      (p.runOn runId id req (unbounded (p.surface s req.stdin))) := by
    unfold runOn
    exact Runner.curbed_run (e := p.runner runId id) hb _ _ _ hstart
  constructor
  · exact (Sink.Follows.within hafter hstart).length_text_le
  · exact h
  · exact fun hb => (hcurbed hb).exists_take
  · exact fun hb => (hcurbed hb).text_eq

/-! ## Runs that are stopped -/

/-- The time of a run is up by the time it has taken some number of steps. -/
def TimesOut (p : Playground) : Prop :=
  ∃ n, ∀ m : Machine, n ≤ m.steps → p.calledOff m ≠ none

/-- What is known of the run that a request asks for: its steps are bounded, by a number that a
counter can go beyond, or else its time is up at some step. -/
structure Limited (p : Playground) : Prop where
  bounded : 0 < p.maxSteps
  stopped : p.maxSteps < Int64.maxValue ∨ p.TimesOut

theorem budget_steps (p : Playground) : p.budget.steps = p.maxSteps := by
  have hsteps (depth : Int) : (Budget.ofSettings p.maxSteps.toInt depth).steps = p.maxSteps := by
    unfold Budget.ofSettings
    dsimp only
    split
    · exact Int64.ofInt_toInt _
    · exact Int64.ofInt_toInt _
  unfold budget
  dsimp only
  split
  · exact hsteps _
  · exact hsteps _

theorem Limited.stops {p : Playground} (hp : p.Limited) : p.budget.Stops := by
  rcases hp.stopped with hmax | ⟨n, hn⟩
  · apply Budget.stops_of_steps
    · rw [budget_steps]
      exact hp.bounded
    · rw [budget_steps]
      exact hmax
  · apply Budget.stops_of_cancelled (n := n)
    intro m hm
    unfold budget
    dsimp only
    split
    · exact Option.some_ne_none Budget.overdue
    · exact hn m hm

theorem exists_fuel_of_runOn {p : Playground} (hp : p.Limited) {w : Surface} (hw : w.Parsed)
    (runId id : Bytes) (req : RunRequest) :
    ∃ n, ∀ fuel, n ≤ fuel → ({ p with fuel }.runOn runId id req w).1.Decided := by
  have hbudget : (p.runner runId id).budget.Stops := hp.stops
  exact Runner.exists_fuel_of_run hbudget rfl hw _ _

/-- The run that a request asks for ends on its own output, and without the bound. -/
def Ended (p : Playground) (runId id : Bytes) (req : RunRequest) (s : State) : Prop :=
  (p.runOn runId id req (p.surface s req.stdin)).1.Decided ∧
    (p.runOn runId id req { p.surface s req.stdin with out := .empty none }).1.Decided

theorem exists_fuel_of_request {p : Playground} (hp : p.Limited) {s : State} (hs : s.Parsed)
    (runId id : Bytes) (req : RunRequest) :
    ∃ n, ∀ fuel, n ≤ fuel → { p with fuel }.Ended runId id req s := by
  have hstart : (p.surface s req.stdin).Parsed := hs
  have hfree : Surface.Parsed { p.surface s req.stdin with out := .empty none } := hs
  obtain ⟨n, hn⟩ := exists_fuel_of_runOn hp hstart runId id req
  obtain ⟨n', hn'⟩ := exists_fuel_of_runOn hp hfree runId id req
  refine ⟨max n n', fun fuel hfuel => ⟨hn fuel ?_, hn' fuel ?_⟩⟩
  · omega
  · omega

/-! ## Requests -/

theorem contained_serveRun {p : Playground} {s : State} (id : Bytes) {body runId : Bytes}
    (hid : p.runId (s.runs + 1) = some runId)
    (hended : ∀ req, readBody p.bodyLimit body = .ok req → p.Ended runId id req s) :
    ∃ reply, (p.serveRun id body s).1 = .reply reply ∧ p.Contained runId id body s reply := by
  unfold serveRun Contained
  cases hbody : readBody p.bodyLimit body with
  | error fault =>
    cases fault with
    | malformed => exact ⟨_, rfl, rfl⟩
    | tooLarge => exact ⟨_, rfl, rfl⟩
  | ok req =>
    dsimp only
    by_cases hblank : (trimBlanks req.code).isEmpty = true
    · simp only [if_pos hblank]
      exact ⟨_, rfl, rfl⟩
    · by_cases hlarge : p.maxSourceBytes.toInt < req.code.length
      · simp only [if_neg hblank, if_pos hlarge]
        exact ⟨_, rfl, rfl⟩
      · simp only [if_neg hblank, if_neg hlarge, hid]
        obtain ⟨hran, hfree⟩ := hended req hbody
        obtain ⟨reply, hreply, htells⟩ := tells_runProgram p runId id req s hran
        exact ⟨reply, hreply, htells, bounded_runOn p runId id req s hfree⟩

/-- The request asks the service that runs programs, at its path, to run one. -/
structure AsksToRun (r : Request) : Prop where
  method : r.method = utf8 "POST"
  target : r.target.isServer = false
  direct : Route.matched r = r.target.escaped
  service : Service.at? (Route.matched r) = some .run

theorem share_of_asksToRun {r : Request} (hr : AsksToRun r) (p : Playground) (id : Bytes)
    (s : State) : p.share id r s = p.serveRun id r.body s := by
  have hmethod : r.method ≠ utf8 "OPTIONS" := by
    rw [hr.method]
    decide
  have hredirect : Route.redirect? r = none := if_pos hr.direct
  have hposted : Service.run.methods.contains r.method = true := by
    rw [hr.method]
    decide
  unfold share dispatch
  rw [if_neg hmethod, hr.target, hredirect, hr.service]
  simp only [hposted]
  rfl

theorem reply_serve {r : Request} (hr : AsksToRun r) {p : Playground} {s : State}
    (hin : (s.gate.letIn (Gate.clientKey r.remote)).1 = true) {reply : Reply}
    (hreply : (p.serveRun (p.requestId r) r.body
      { s with gate := (s.gate.letIn (Gate.clientKey r.remote)).2 }).1 = .reply reply) :
    (p.serve r s).1 =
      (reply.withHeaders crossSite).withHeader "X-Request-Id" (p.requestId r) := by
  unfold serve
  generalize s.gate.letIn (Gate.clientKey r.remote) = answer at hin hreply
  obtain ⟨admitted, gate⟩ := answer
  cases hin
  -- What is around the service sets headers, and breaks in only on a crash.
  unfold serveAdmitted recover
  dsimp only at hreply ⊢
  rw [share_of_asksToRun hr]
  generalize p.serveRun (p.requestId r) r.body { s with gate } = handled at hreply
  obtain ⟨answer, t⟩ := handled
  cases hreply
  rfl

/-- Every request to run a program is contained. If it is let in, it is refused for its size or its
form, or the program is run to its end, which the bound on its steps enforces or, where that is the
greatest number, the time it is given; the answer tells that it finished, or the one diagnostic that
it failed with, and what it wrote. The output keeps to its bound; and where cancellation does not
look at that bound, as when there is none, the output is what the run writes without the bound, up
to a write that was refused. -/
theorem run_requests_are_contained {p : Playground} (hp : p.Limited) {s : State}
    (hs : s.Reached) {r : Request} (hr : AsksToRun r)
    (hin : (s.gate.letIn (Gate.clientKey r.remote)).1 = true) {runId : Bytes}
    (hid : p.runId (s.runs + 1) = some runId) :
    ∃ n, ∀ fuel, n ≤ fuel →
      { p with fuel }.Contained runId (p.requestId r) r.body s ({ p with fuel }.serve r s).1 := by
  -- Only a request that is run takes fuel.
  have hfuel : ∃ n, ∀ fuel, n ≤ fuel → ∀ req, readBody p.bodyLimit r.body = .ok req →
      { p with fuel }.Ended runId (p.requestId r) req s := by
    cases readBody p.bodyLimit r.body with
    | error fault => exact ⟨0, fun _ _ req h => by cases h⟩
    | ok req =>
      obtain ⟨n, hn⟩ := exists_fuel_of_request hp hs.parsed runId (p.requestId r) req
      refine ⟨n, fun fuel hfuel req' h => ?_⟩
      cases h
      exact hn fuel hfuel
  obtain ⟨n, hn⟩ := hfuel
  refine ⟨n, fun fuel hfuel => ?_⟩
  let q : Playground := { p with fuel }
  let admitted : State := { s with gate := (s.gate.letIn (Gate.clientKey r.remote)).2 }
  have hserved : ∃ reply, (q.serveRun (q.requestId r) r.body admitted).1 = .reply reply ∧
      q.Contained runId (q.requestId r) r.body admitted reply :=
    contained_serveRun (q.requestId r) hid (hn fuel hfuel)
  obtain ⟨reply, hreply, hcontained⟩ := hserved
  have hserve : (q.serve r s).1 =
      (reply.withHeaders crossSite).withHeader "X-Request-Id" (q.requestId r) :=
    reply_serve hr hin hreply
  rw [hserve]
  -- Headers and the gate are nothing that `Contained` looks at.
  exact hcontained

/-- Of three writes the third does not fit. -/
theorem third_write_is_refused :
    let p : Playground := { maxOutputBytes := 3, maxSteps := 10 }
    let r : Request := {
      method := utf8 "POST"
      target := { written := utf8 "/api/run", path := utf8 "/api/run" }
      body := utf8 "\x7b\"code\": \"print(1); print(2); print(345);\"\x7d" }
    p.Limited ∧ State.Reached {} ∧ AsksToRun r ∧
      (Gate.wide.letIn (Gate.clientKey r.remote)).1 = true ∧
      p.runId 1 = some (utf8 "GENERATED") ∧ p.budget.Fair ∧
      (∃ n, ∀ fuel, n ≤ fuel → { p with fuel }.Contained (utf8 "GENERATED") (p.requestId r) r.body
        {} ({ p with fuel }.serve r {}).1) ∧
      ({ p with fuel := 100 }.serve r {}).1.status = 422 := by
  intro p r
  have hr : AsksToRun r := ⟨rfl, rfl, by decide +kernel, by decide +kernel⟩
  have hs : State.Reached {} := .new 0 .wide 0 []
  have hp : p.Limited := ⟨by decide, .inl (by decide)⟩
  exact ⟨hp, hs, hr, rfl, rfl, fun _ => rfl, run_requests_are_contained hp hs hr rfl rfl,
    by decide +kernel⟩

end Playground
end Scriptlet
