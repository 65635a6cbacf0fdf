import Mathlib.Logic.Function.Basic
import Scriptlet.Proofs.Playground.Address
import Scriptlet.Proofs.Playground.Admission

/-!
# Contention: requests at the same time

Requests that are served at the same time share the buckets of the gate, and come to them in any
order: one may find no bucket for its client and have another request of that client provide it
before it does. Still each client gets as many tokens as a bucket holds, and gets them for the
requests of it that asked first.
-/

namespace Scriptlet
namespace Playground

/-- How far a request has come. -/
inductive Turn where
  | arrived
  /-- Its client was not found among those known. -/
  | unknown
  /-- It has the bucket of its client. -/
  | holding (bucket : Nat)
  /-- It was granted a token. -/
  | admitted
  | answered (reply : Reply)

/-- The turn of a request that has looked its client up. -/
def Turn.ofBucket? : Option Nat → Turn
  | some bucket => .holding bucket
  | none => .unknown

/-- The turn of a request that was granted a token or was not. -/
def Turn.ofVerdict (p : Playground) (r : Request) (granted : Bool) : Turn :=
  if granted then .admitted else .answered (p.turnedAway r)

theorem Turn.ofBucket?_eq_holding {bucket? : Option Nat} {bucket : Nat} :
    ofBucket? bucket? = .holding bucket ↔ bucket? = some bucket := by
  cases bucket? with
  | none =>
    constructor
    · intro h
      cases h
    · intro h
      cases h
  | some k =>
    constructor
    · intro h
      exact congrArg some (Turn.holding.inj h)
    · intro h
      exact congrArg Turn.holding (Option.some.inj h)

theorem Turn.ofVerdict_ne_holding {p : Playground} {r : Request} (granted : Bool) (bucket : Nat) :
    ofVerdict p r granted ≠ .holding bucket := by
  cases granted with
  | true => exact Turn.noConfusion
  | false => exact Turn.noConfusion

/-- How many steps a request takes at most until it is answered. -/
def Turn.left : Turn → Nat
  | .arrived => 4
  | .unknown => 3
  | .holding _ => 2
  | .admitted => 1
  | .answered _ => 0

theorem Turn.left_ofVerdict {p : Playground} {r : Request} (granted : Bool) :
    (ofVerdict p r granted).left ≤ 1 := by
  cases granted with
  | true => exact Nat.le_refl _
  | false => exact Nat.zero_le _

theorem Turn.exists_answered {turn : Turn} (h : turn.left = 0) :
    ∃ reply, turn = .answered reply := by
  cases turn with
  | arrived | unknown | holding | admitted => cases h
  | answered reply => exact ⟨reply, rfl⟩

/-- Requests served at the same time, known by their numbers. -/
structure Rush where
  state : State
  turn : Nat → Turn := fun _ => .arrived
  /-- The requests that asked for a token, in that order, and whether they were granted it. -/
  verdicts : List (Nat × Bool) := []
  /-- The requests that were handled, in that order. -/
  handled : List Nat := []

/-- What is behind the gate once requests were handled in the order given. -/
def handleAll (p : Playground) (request : Nat → Request) : List Nat → State → State
  | [], s => s
  | i :: order, s => p.handleAll request order (p.handle (request i) s).2

namespace Rush

/-- A request comes to a turn, and the buckets are others. -/
def come (x : Rush) (i : Nat) (turn : Turn) (b : Buckets) : Rush :=
  { x with
    state := { x.state with gate := .buckets b }
    turn := Function.update x.turn i turn }

/-- A request asks a bucket for a token. -/
def ask (p : Playground) (r : Request) (x : Rush) (i bucket : Nat) (b : Buckets) : Rush :=
  let (granted, b) := b.take bucket
  { x.come i (.ofVerdict p r granted) b with verdicts := x.verdicts ++ [(i, granted)] }

/-- A request is handled. What handles it has nothing to do with the gate, so it is one step for
those that are there. -/
def handle (p : Playground) (r : Request) (x : Rush) (i : Nat) : Rush :=
  let (reply, state) := p.handle r x.state
  { x with state, turn := Function.update x.turn i (.answered reply), handled := x.handled ++ [i] }

/-- One step of a request, into which no other can break. -/
def step (p : Playground) (request : Nat → Request) (x : Rush) (i : Nat) : Rush :=
  let r := request i
  match x.turn i, x.state.gate with
  | .arrived, .buckets b =>
    let (bucket?, b) := b.find? r.client
    x.come i (.ofBucket? bucket?) b
  | .unknown, .buckets b =>
    let (bucket, b) := b.provide r.client
    x.come i (.holding bucket) b
  | .holding bucket, .buckets b => ask p r x i bucket b
  | .admitted, _ => handle p r x i
  | _, _ => x

/-- Steps of the requests in the order given. -/
def run (p : Playground) (request : Nat → Request) (x : Rush) : List Nat → Rush
  | [] => x
  | i :: schedule => (x.step p request i).run p request schedule

/-! ## What a step does -/

variable {p : Playground} {request : Nat → Request} {x : Rush} {i j : Nat} {b : Buckets}

theorem step_of_arrived (hgate : x.state.gate = .buckets b) (hturn : x.turn i = .arrived) :
    x.step p request i = x.come i (.ofBucket? (b.find? (request i).client).1)
      (b.find? (request i).client).2 := by
  unfold step
  rw [hturn, hgate]

theorem step_of_unknown (hgate : x.state.gate = .buckets b) (hturn : x.turn i = .unknown) :
    x.step p request i = x.come i (.holding (b.provide (request i).client).1)
      (b.provide (request i).client).2 := by
  unfold step
  rw [hturn, hgate]

theorem step_of_answered {reply : Reply} (hturn : x.turn i = .answered reply) :
    x.step p request i = x := by
  unfold step
  rw [hturn]

theorem step_of_admitted (hturn : x.turn i = .admitted) :
    x.step p request i = handle p (request i) x i := by
  unfold step
  rw [hturn]

theorem step_of_holding {bucket : Nat} (hgate : x.state.gate = .buckets b)
    (hturn : x.turn i = .holding bucket) :
    x.step p request i = ask p (request i) x i bucket b := by
  unfold step
  rw [hturn, hgate]

theorem run_holding (p : Playground) (request : Nat → Request) {bucket : Nat}
    (hgate : x.state.gate = .buckets b) (hturn : x.turn i = .holding bucket) :
    let granted := (b.take bucket).1
    let t : State := { x.state with gate := .buckets (b.take bucket).2 }
    let served := if granted then p.handle (request i) t else (p.turnedAway (request i), t)
    ((x.step p request i).step p request i).state = served.2 ∧
      ((x.step p request i).step p request i).turn i = .answered served.1 := by
  rw [step_of_holding hgate hturn]
  unfold ask
  generalize b.take bucket = taken
  obtain ⟨granted, b'⟩ := taken
  dsimp only
  cases granted with
  | true =>
    rw [step_of_admitted (Function.update_self ..)]
    exact ⟨rfl, Function.update_self ..⟩
  | false =>
    rw [step_of_answered (Function.update_self ..)]
    exact ⟨rfl, Function.update_self ..⟩

/-- Four steps of a request in a row are what serving it is. -/
theorem run_alone (hgate : x.state.gate = .buckets b) (hturn : x.turn i = .arrived) :
    (x.run p request [i, i, i, i]).state = (p.serve (request i) x.state).2 ∧
      (x.run p request [i, i, i, i]).turn i = .answered (p.serve (request i) x.state).1 := by
  rw [serve_eq, hgate]
  unfold run run run run run Gate.letIn Buckets.letIn
  rw [step_of_arrived hgate hturn]
  dsimp only
  generalize b.find? (request i).client = found
  obtain ⟨bucket?, b'⟩ := found
  cases bucket? with
  | some bucket =>
    -- Three steps were enough, and the fourth is idle.
    have hserved := run_holding p request (x := x.come i (.holding bucket) b') rfl
      (Function.update_self ..)
    dsimp only [Turn.ofBucket?]
    rw [step_of_answered hserved.2]
    exact hserved
  | none =>
    dsimp only [Turn.ofBucket?]
    rw [step_of_unknown (x := x.come i .unknown b') rfl (Function.update_self ..)]
    exact run_holding p request rfl (Function.update_self ..)

/-! ## At the gate -/

/-- The buckets at the gate, from which those in the verdicts have asked for a token. A request has
got the bucket of its client, and no other. -/
structure AtGate (request : Nat → Request) (clients : List Bytes) (burst : Nat) (x : Rush)
    (b : Buckets) : Prop where
  gate : x.state.gate = .buckets b
  burst : b.burst = burst
  tally : b.Tally clients (x.verdicts.map fun v => (request v.1).client)
  holding : ∀ i bucket, x.turn i = .holding bucket →
    b.known.peek? (request i).client = some bucket

variable {clients : List Bytes} {burst : Nat} {b' : Buckets} {turn : Turn}

theorem AtGate.come (h : x.AtGate request clients burst b) (hleads : Buckets.Leads b b')
    {verdicts : List (Nat × Bool)}
    (htally : b'.Tally clients (verdicts.map fun v => (request v.1).client))
    (hturn : ∀ bucket, turn = .holding bucket →
      b'.known.peek? (request i).client = some bucket) :
    AtGate request clients burst { x.come i turn b' with verdicts } b' where
  gate := rfl
  burst := hleads.burst.trans h.burst
  tally := htally
  holding := by
    refine (Function.forall_update_iff x.turn fun j t => ∀ bucket, t = .holding bucket →
      b'.known.peek? (request j).client = some bucket).2 ⟨hturn, fun j _ bucket hj => ?_⟩
    exact hleads.known _ _ (h.holding j bucket hj)

theorem AtGate.step (h : x.AtGate request clients burst b) (hi : (request i).client ∈ clients) :
    ∃ b', (x.step p request i).AtGate request clients burst b' := by
  cases hturn : x.turn i with
  | arrived =>
    rw [step_of_arrived h.gate hturn]
    refine ⟨_, h.come (Buckets.leads_find? b _) (h.tally.find? _) fun bucket hbucket => ?_⟩
    rw [Buckets.peek?_find?, ← Buckets.fst_find?]
    exact Turn.ofBucket?_eq_holding.1 hbucket
  | unknown =>
    rw [step_of_unknown h.gate hturn]
    -- Whether the bucket is new or another request was faster, it is the client's from here on.
    refine ⟨_, h.come (h.tally.leads_provide hi) (h.tally.provide hi) fun bucket hbucket => ?_⟩
    cases hbucket
    exact h.tally.peek?_provide hi
  | holding bucket =>
    have hk := h.holding i bucket hturn
    rw [step_of_holding h.gate hturn]
    refine ⟨_, h.come Buckets.leads_take ?_ fun k hk => ?_⟩
    · rw [List.map_append]
      exact h.tally.take hk
    · exact absurd hk (Turn.ofVerdict_ne_holding _ k)
  | admitted =>
    rw [step_of_admitted hturn]
    refine ⟨b, (gate_handle p (request i) x.state).trans h.gate, h.burst, h.tally, ?_⟩
    refine (Function.forall_update_iff x.turn fun j t => ∀ bucket, t = .holding bucket →
      b.known.peek? (request j).client = some bucket).2 ⟨fun bucket hk => ?_, fun j _ => ?_⟩
    · cases hk
    · exact h.holding j
  | answered reply =>
    rw [step_of_answered hturn]
    exact ⟨b, h⟩

/-! ## What becomes of the requests -/

/-- Where a request stands at its turn. Before it asks, nothing is decided about it. Then it is to
be handled or was handled if it was granted a token, and it is turned away if it was not. -/
def Stands (p : Playground) (request : Nat → Request) (x : Rush) (i : Nat) : Turn → Prop
  | .arrived | .unknown | .holding _ => i ∉ x.verdicts.map Prod.fst ∧ i ∉ x.handled
  | .admitted => (i, true) ∈ x.verdicts ∧ i ∉ x.handled
  | .answered reply =>
    (i, true) ∈ x.verdicts ∧ i ∈ x.handled ∨
      (i, false) ∈ x.verdicts ∧ i ∉ x.handled ∧ reply = p.turnedAway (request i)

/-- Each client got tokens for the first of its requests that asked, as many as a bucket holds, and
what became of each request is as its verdict says. -/
structure Rationed (p : Playground) (request : Nat → Request) (burst : Nat) (s : State)
    (x : Rush) : Prop where
  /-- The `k`-th request of a client was granted a token if `k` is at most `burst`. -/
  verdict : ∀ before i granted after, x.verdicts = before ++ (i, granted) :: after →
    (granted = true ↔
      (before.map fun v => (request v.1).client).count (request i).client + 1 ≤ burst)
  stands : ∀ i, x.Stands p request i (x.turn i)
  /-- No request asks twice or is handled twice. -/
  once : (x.verdicts.map Prod.fst).Nodup ∧ x.handled.Nodup
  /-- What was handled was answered as it is after what was handled before it. -/
  reply : ∀ before i after, x.handled = before ++ i :: after →
    x.turn i = .answered (p.handle (request i) (p.handleAll request before s)).1
  /-- Behind the gate there is what those that were handled left, and nothing of the others. -/
  state : ∃ gate, x.state = { p.handleAll request x.handled s with gate }

/-- What became of a request: it asked for a token, as the `k`-th of its client. If `k` is at most
`burst`, it was handled, and answered as it is after those that were handled earlier; if not, it was
not handled, and answered that there are too many. -/
def Settled (p : Playground) (request : Nat → Request) (burst : Nat) (s : State) (x : Rush)
    (i : Nat) : Prop :=
  ∃ before granted after, x.verdicts = before ++ (i, granted) :: after ∧
    let k := (before.map fun v => (request v.1).client).count (request i).client + 1
    if k ≤ burst then ∃ earlier later, x.handled = earlier ++ i :: later ∧
      x.turn i = .answered (p.handle (request i) (p.handleAll request earlier s)).1
    else i ∉ x.handled ∧ x.turn i = .answered (p.turnedAway (request i))

theorem Rationed.settled {s : State} (h : x.Rationed p request burst s) {reply : Reply}
    (hturn : x.turn i = .answered reply) : x.Settled p request burst s i := by
  have hstands := h.stands i
  rw [hturn] at hstands
  rcases hstands with ⟨hmem, hhandled⟩ | ⟨hmem, hhandled, rfl⟩
  · obtain ⟨before, after, hv⟩ := List.append_of_mem hmem
    obtain ⟨earlier, later, hj⟩ := List.append_of_mem hhandled
    refine ⟨before, true, after, hv, ?_⟩
    rw [if_pos ((h.verdict before i true after hv).1 rfl)]
    exact ⟨earlier, later, hj, h.reply earlier i later hj⟩
  · obtain ⟨before, after, hv⟩ := List.append_of_mem hmem
    refine ⟨before, false, after, hv, ?_⟩
    rw [if_neg fun hk => Bool.false_ne_true ((h.verdict before i false after hv).2 hk)]
    exact ⟨hhandled, hturn⟩

theorem handleAll_concat (p : Playground) (request : Nat → Request) (order : List Nat) (i : Nat)
    (s : State) : p.handleAll request (order ++ [i]) s =
      (p.handle (request i) (p.handleAll request order s)).2 := by
  induction order generalizing s with
  | nil => rfl
  | cons j order ih => exact ih _

/-- A part of a list with one more element is a part of the list, or ends in that element. -/
theorem split_concat {α : Type} {l before after : List α} {a e : α}
    (h : l ++ [a] = before ++ e :: after) :
    before = l ∧ e = a ∨ ∃ after', l = before ++ e :: after' := by
  rcases List.eq_nil_or_concat after with rfl | ⟨after', c, rfl⟩
  · obtain ⟨hl, ha⟩ := List.append_inj' h rfl
    exact .inl ⟨hl.symm, (List.cons.inj ha).1.symm⟩
  · rw [List.concat_eq_append, ← List.cons_append, ← List.append_assoc] at h
    exact .inr ⟨after', (List.append_inj' h rfl).1⟩

section Stands

variable {granted : Bool}

theorem Stands.ask (h : x.Stands p request j turn) (hne : j ≠ i) :
    { x with verdicts := x.verdicts ++ [(i, granted)] }.Stands p request j turn := by
  have hmem {v : Bool} (hv : (j, v) ∈ x.verdicts) : (j, v) ∈ x.verdicts ++ [(i, granted)] :=
    List.mem_append_left _ hv
  have hnew (hj : j ∉ x.verdicts.map Prod.fst) :
      j ∉ (x.verdicts ++ [(i, granted)]).map Prod.fst := by
    rw [List.map_append, List.mem_append, not_or]
    exact ⟨hj, fun hi => hne (List.mem_singleton.1 hi)⟩
  cases turn with
  | arrived | unknown | holding => exact ⟨hnew h.1, h.2⟩
  | admitted => exact ⟨hmem h.1, h.2⟩
  | answered reply =>
    rcases h with ⟨hv, hh⟩ | ⟨hv, hh, hreply⟩
    · exact .inl ⟨hmem hv, hh⟩
    · exact .inr ⟨hmem hv, hh, hreply⟩

theorem Stands.handle (h : x.Stands p request j turn) (hne : j ≠ i) :
    { x with handled := x.handled ++ [i] }.Stands p request j turn := by
  have hnew (hj : j ∉ x.handled) : j ∉ x.handled ++ [i] := by
    rw [List.mem_append, not_or]
    exact ⟨hj, fun hi => hne (List.mem_singleton.1 hi)⟩
  cases turn with
  | arrived | unknown | holding => exact ⟨h.1, hnew h.2⟩
  | admitted => exact ⟨h.1, hnew h.2⟩
  | answered reply =>
    rcases h with ⟨hv, hh⟩ | ⟨hv, hh, hreply⟩
    · exact .inl ⟨hv, List.mem_append_left _ hh⟩
    · exact .inr ⟨hv, hnew hh, hreply⟩

end Stands

variable {s : State}

theorem Rationed.reply_update (h : x.Rationed p request burst s) (hi : i ∉ x.handled)
    {before after : List Nat} (hj : x.handled = before ++ j :: after) :
    Function.update x.turn i turn j =
      .answered (p.handle (request j) (p.handleAll request before s)).1 := by
  have hne : j ≠ i := by
    rintro rfl
    rw [hj] at hi
    exact hi (List.mem_append_right _ List.mem_cons_self)
  rw [Function.update_of_ne hne]
  exact h.reply before j after hj

theorem Rationed.state_with (h : x.Rationed p request burst s) (gate : Gate) :
    { x.state with gate } = { p.handleAll request x.handled s with gate } := by
  obtain ⟨gate', hstate⟩ := h.state
  rw [hstate]

/-- Until a request asks, its steps change nothing but the gate. -/
theorem Rationed.come (h : x.Rationed p request burst s) (hturn : x.Stands p request i turn)
    (hi : i ∉ x.handled) : (x.come i turn b').Rationed p request burst s where
  verdict := h.verdict
  stands := (Function.forall_update_iff x.turn fun j t => x.Stands p request j t).2
    ⟨hturn, fun j _ => h.stands j⟩
  once := h.once
  reply _ _ _ hj := h.reply_update hi hj
  state := ⟨_, h.state_with _⟩

theorem Rationed.ask (h : x.Rationed p request burst s) (hg : x.AtGate request clients burst b)
    {bucket : Nat} (hturn : x.turn i = .holding bucket) :
    (ask p (request i) x i bucket b).Rationed p request burst s := by
  have hi : i ∉ x.verdicts.map Prod.fst ∧ i ∉ x.handled := by
    have hstands := h.stands i
    rw [hturn] at hstands
    exact hstands
  have hgranted := hg.tally.fst_take (hg.holding i bucket hturn)
  rw [hg.burst] at hgranted
  unfold Rush.ask
  generalize b.take bucket = taken at hgranted
  obtain ⟨granted, b'⟩ := taken
  dsimp only at hgranted ⊢
  constructor
  · -- Only the last verdict is new, and it comes after all the others.
    intro before j v after hv
    rcases split_concat hv with ⟨rfl, hlast⟩ | ⟨after', hv⟩
    · cases hlast
      rw [hgranted, decide_eq_true_iff]
      exact Iff.rfl
    · exact h.verdict before j v after' hv
  · refine (Function.forall_update_iff x.turn fun j t =>
      { x with verdicts := x.verdicts ++ [(i, granted)] }.Stands p request j t).2
        ⟨?_, fun j hne => (h.stands j).ask hne⟩
    have hmem : (i, granted) ∈ x.verdicts ++ [(i, granted)] :=
      List.mem_append_right _ List.mem_cons_self
    cases granted with
    | true => exact ⟨hmem, hi.2⟩
    | false => exact .inr ⟨hmem, hi.2, rfl⟩
  · refine ⟨?_, h.once.2⟩
    show ((x.verdicts ++ [(i, granted)]).map Prod.fst).Nodup
    rw [List.map_append]
    exact h.once.1.append (List.nodup_singleton i) (List.disjoint_singleton.2 hi.1)
  · exact fun _ _ _ hj => h.reply_update hi.2 hj
  · exact ⟨_, h.state_with _⟩

theorem Rationed.handle (h : x.Rationed p request burst s) (hturn : x.turn i = .admitted) :
    (handle p (request i) x i).Rationed p request burst s := by
  have hi : (i, true) ∈ x.verdicts ∧ i ∉ x.handled := by
    have hstands := h.stands i
    rw [hturn] at hstands
    exact hstands
  obtain ⟨gate, hstate⟩ := h.state
  -- The reply is the same at any gate, so it is that of the handled requests alone.
  have hhandle := ungated_handle p (request i) (p.handleAll request x.handled s) gate
  rw [← hstate] at hhandle
  unfold Rush.handle
  rw [hhandle]
  constructor
  · exact h.verdict
  · refine (Function.forall_update_iff x.turn fun j t =>
      { x with handled := x.handled ++ [i] }.Stands p request j t).2
        ⟨?_, fun j hne => (h.stands j).handle hne⟩
    exact Or.inl ⟨hi.1, List.mem_append_right _ List.mem_cons_self⟩
  · exact ⟨h.once.1, h.once.2.append (List.nodup_singleton i) (List.disjoint_singleton.2 hi.2)⟩
  · intro before j after hj
    rcases split_concat hj with ⟨rfl, rfl⟩ | ⟨after', hj⟩
    · exact Function.update_self ..
    · exact h.reply_update hi.2 hj
  · refine ⟨gate, ?_⟩
    rw [handleAll_concat]

theorem Rationed.step (h : x.Rationed p request burst s) (hg : x.AtGate request clients burst b) :
    (x.step p request i).Rationed p request burst s := by
  have hstands := h.stands i
  cases hturn : x.turn i with
  | arrived =>
    rw [hturn] at hstands
    rw [step_of_arrived hg.gate hturn]
    refine h.come ?_ hstands.2
    cases (b.find? (request i).client).1 with
    | none => exact hstands
    | some bucket => exact hstands
  | unknown =>
    rw [hturn] at hstands
    rw [step_of_unknown hg.gate hturn]
    exact h.come hstands hstands.2
  | holding bucket =>
    rw [step_of_holding hg.gate hturn]
    exact h.ask hg hturn
  | admitted =>
    rw [step_of_admitted hturn]
    exact h.handle hturn
  | answered reply =>
    rw [step_of_answered hturn]
    exact h

/-! ## Runs -/

theorem left_update (hturn : turn.left ≤ (x.turn i).left - 1) :
    (Function.update x.turn i turn j).left ≤ (x.turn j).left - [i].count j := by
  by_cases hj : j = i
  · subst hj
    rw [Function.update_self, List.count_singleton_self]
    exact hturn
  · rw [Function.update_of_ne hj, List.count_singleton, beq_false_of_ne (Ne.symm hj)]
    exact Nat.le_refl _

theorem left_step (p : Playground) (request : Nat → Request) (hgate : x.state.gate = .buckets b)
    (i j : Nat) :
    ((x.step p request i).turn j).left ≤ (x.turn j).left - [i].count j := by
  cases hturn : x.turn i with
  | arrived =>
    rw [step_of_arrived hgate hturn]
    refine left_update ?_
    rw [hturn]
    cases (b.find? (request i).client).1 with
    | none => exact Nat.le_refl _
    | some bucket => exact Nat.le_succ _
  | unknown =>
    rw [step_of_unknown hgate hturn]
    refine left_update ?_
    rw [hturn]
    exact Nat.le_refl _
  | holding bucket =>
    rw [step_of_holding hgate hturn]
    refine left_update ?_
    rw [hturn]
    exact Turn.left_ofVerdict _
  | admitted =>
    rw [step_of_admitted hturn]
    exact left_update (Nat.zero_le _)
  | answered reply =>
    -- Idling is coming to the turn the request is at.
    have hsame : x.turn = Function.update x.turn i (.answered reply) := by
      rw [← hturn, Function.update_eq_self]
    rw [step_of_answered hturn]
    conv_lhs => rw [hsame]
    exact left_update (Nat.zero_le _)

theorem rationed_run {schedule : List Nat} (h : x.Rationed p request burst s)
    (hg : x.AtGate request clients burst b)
    (hs : ∀ i ∈ schedule, (request i).client ∈ clients) :
    (x.run p request schedule).Rationed p request burst s ∧
      ∀ i, ((x.run p request schedule).turn i).left ≤ (x.turn i).left - schedule.count i := by
  induction schedule generalizing x b with
  | nil => exact ⟨h, fun i => Nat.le_refl _⟩
  | cons j schedule ih =>
    obtain ⟨hj, hs⟩ := List.forall_mem_cons.1 hs
    obtain ⟨b', hg'⟩ := hg.step (p := p) hj
    obtain ⟨hrationed, hleft⟩ := ih (h.step hg) hg' hs
    refine ⟨hrationed, fun i => (hleft i).trans ?_⟩
    have hstep := left_step p request hg.gate j i
    rw [← List.singleton_append, List.count_append]
    omega

theorem atGate_start (request : Nat → Request) (hgate : s.gate = .buckets (Gate.newBuckets burst))
    (hfew : clients.dedup.length ≤ Gate.maxClients) :
    AtGate request clients burst { state := s } (Gate.newBuckets burst) :=
  ⟨hgate, rfl, Buckets.tally_new hfew, fun _ _ hturn => nomatch hturn⟩

theorem rationed_start : Rationed p request burst s { state := s } where
  verdict before i granted after hv := absurd hv (by simp)
  stands _ := ⟨List.not_mem_nil, List.not_mem_nil⟩
  once := ⟨List.nodup_nil, List.nodup_nil⟩
  reply before i after hj := absurd hj (by simp)
  state := ⟨s.gate, rfl⟩

end Rush

/-- Requests are rationed by client. Behind a gate for a rate that limits, and while there are no
more clients than it remembers, the `k`-th request of a client is handled if `k` is at most the
number of tokens in a bucket, whatever the other clients send and whenever they do. If it is not, it
is answered that there are too many, and nothing but the gate has changed. So it is when requests
come one after the other, and when they are served at the same time and are counted in the order in
which they ask for a token; four steps of a request are enough for its answer. A client is known by
the host of its address, or by all of it if it has no port. -/
theorem requests_are_rationed_by_client {rate : Binary64} (hrate : Gate.Limits rate) {burst : Nat}
    (hburst : 1 ≤ burst) (p : Playground) {s : State} (hgate : s.gate = Gate.ofRate rate burst) :
    (∀ before r after,
      ((before ++ r :: after).map Request.client).dedup.length ≤ Gate.maxClients →
      let t := (p.serveAll before s).2
      let k := (before.map Request.client).count r.client + 1
      (p.serveAll (before ++ r :: after) s).1[before.length]? = some (p.serve r t).1 ∧
        ∃ gate, t.gate.letIn r.client = (decide (k ≤ burst), gate) ∧
          p.serve r t = if k ≤ burst then p.handle r { t with gate }
            else (p.turnedAway r, { t with gate })) ∧
      (∀ request schedule,
        (schedule.map fun i => (request i).client).dedup.length ≤ Gate.maxClients →
        let x := Rush.run p request { state := s } schedule
        x.Rationed p request burst s ∧
          ∀ i, 4 ≤ schedule.count i → x.Settled p request burst s i) ∧
      ∀ r, (p.turnedAway r).status = 429 ∧
        (∀ host, Gate.Names r.remote host → r.client = host) ∧
        ((∀ host, ¬ Gate.Names r.remote host) → r.client = r.remote) := by
  have hnew : s.gate = .buckets (Gate.newBuckets burst) := by
    rw [hgate, Gate.ofRate_of_limits hrate (Int.ofNat_le.2 hburst), Int.toNat_natCast]
  refine ⟨fun before r after hfew => ⟨reply_serveAll p before r after s, ?_⟩,
    fun request schedule hfew => ?_, fun r => ⟨rfl, Gate.clientKey_eq r.remote⟩⟩
  · -- One after the other: what the gate decides is counted up to the request.
    have hclients : before.map Request.client ⊆ (before ++ r :: after).map Request.client :=
      List.map_subset _ (List.subset_append_left _ _)
    have hr : r.client ∈ (before ++ r :: after).map Request.client :=
      List.mem_map_of_mem (List.mem_append_right _ List.mem_cons_self)
    exact ((State.tally_new hnew hfew).serveAll hclients).serve_eq hr
  · -- At the same time: the invariant holds at the start, and every step keeps it.
    have hstart := Rush.atGate_start request hnew hfew
    obtain ⟨hrationed, hleft⟩ := Rush.rationed_run Rush.rationed_start hstart fun i hi =>
      List.mem_map_of_mem hi
    refine ⟨hrationed, fun i hi => ?_⟩
    have hdone := (hleft i).trans (Nat.sub_le_sub_left hi _)
    obtain ⟨reply, hreply⟩ := Turn.exists_answered (Nat.le_zero.1 hdone)
    exact hrationed.settled hreply

/-- Of three requests that are served at the same time, two of one client find that it has no
bucket. The one that asks first is handled, as is the request of the other client; when the same
three come one after the other, it is the first of them. -/
theorem second_request_of_client_is_turned_away :
    let rate : Binary64 := .finite false 1 0
    let p : Playground := {}
    let s : State := { gate := Gate.ofRate rate 1 }
    let request (i : Nat) : Request :=
      { remote := if i = 2 then utf8 "10.0.0.2:80" else utf8 "10.0.0.1:80" }
    let schedule := [0, 1, 1, 1, 2, 0, 0, 2, 2, 1, 0, 2, 1]
    let x := Rush.run p request { state := s } schedule
    let t := (p.serveAll [request 0] s).2
    Gate.Limits rate ∧ x.verdicts = [(1, true), (0, false), (2, true)] ∧
      (∀ i, 4 ≤ schedule.count i → x.Settled p request 1 s i) ∧
      (p.serveAll [request 0, request 1, request 2] s).1.map Reply.status = [404, 429, 404] ∧
      ∃ gate, p.serve (request 1) t = (p.turnedAway (request 1), { t with gate }) := by
  intro rate p s request schedule x t
  have hrate : Gate.Limits rate :=
    ⟨1, _, by decide +kernel, rfl, by decide +kernel, by decide +kernel⟩
  obtain ⟨hserial, hrush, -⟩ :=
    requests_are_rationed_by_client hrate (Nat.le_refl 1) p (s := s) rfl
  obtain ⟨-, gate, -, hserve⟩ := hserial [request 0] (request 1) [request 2] (by decide +kernel)
  rw [if_neg (by decide +kernel)] at hserve
  exact ⟨hrate, by decide +kernel, (hrush request schedule (by decide +kernel)).2,
    by decide +kernel, gate, hserve⟩

end Playground
end Scriptlet
