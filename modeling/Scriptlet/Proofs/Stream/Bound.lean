import Scriptlet.Proofs.Ends
import Scriptlet.Stream.Sink

/-!
# Bound: what a bounded output leaves out

A bounded sink takes whole writes until one would go beyond its bound. Until then an action does
what it does where the bound is lifted; and if the refused write ends the action, what was taken by
then is the beginning of what is written without a bound. All that matters of the state of an action
is that there is an output in it.
-/

namespace Scriptlet

namespace Sink

/-- The sink with its bound lifted. -/
def unbounded (s : Sink) : Sink := { s with refuses := (empty none).refuses }

/-- The sink has the given bound and keeps to it. -/
structure Within (limit : Nat) (s : Sink) : Prop where
  refuses : s.refuses = (empty (some limit)).refuses
  total : s.total ≤ limit

namespace Within

variable {limit : Nat} {s t : Sink} {chunk reason : Bytes}

theorem empty (limit : Nat) : (empty (some limit)).Within limit := ⟨rfl, Nat.zero_le _⟩

theorem length_text_le (h : s.Within limit) : s.text.length ≤ limit := by
  rw [← s.total_eq_length_text]
  exact h.total

theorem write_ok (h : s.Within limit) (hw : s.write chunk = (.ok (), t)) :
    t.Within limit ∧ s.unbounded.write chunk = (.ok (), t.unbounded) := by
  unfold write at hw
  rw [h.refuses] at hw
  by_cases hfits : s.total + chunk.length ≤ limit
  · have hnone : (Sink.empty (some limit)).refuses s.asked s.total chunk = none := if_pos hfits
    rw [hnone] at hw
    cases hw
    -- Both sinks count what they ask for, so they stay the same but for the bound.
    refine ⟨⟨rfl, ?_⟩, rfl⟩
    show chunk.length + s.total ≤ limit
    omega
  · have hsome : (Sink.empty (some limit)).refuses s.asked s.total chunk = some refusal :=
      if_neg hfits
    rw [hsome] at hw
    cases hw

theorem write_error (h : s.Within limit) (hw : s.write chunk = (.error reason, t)) :
    t.Within limit ∧ t.chunks = s.chunks := by
  unfold write at hw
  split at hw
  · cases hw
    exact ⟨⟨h.refuses, h.total⟩, rfl⟩
  · cases hw

theorem write (h : s.Within limit) (chunk : Bytes) : (s.write chunk).2.Within limit := by
  cases hw : s.write chunk with
  | mk taken t =>
    cases taken with
    | ok u => exact (h.write_ok hw).1
    | error reason => exact (h.write_error hw).1

end Within

/-- The second sink is the first after some writes, taken or refused. -/
inductive Follows (s : Sink) : Sink → Prop
  | refl : Follows s s
  | write {t : Sink} (h : Follows s t) (chunk : Bytes) : Follows s (t.write chunk).2

namespace Follows

variable {s t u : Sink}

theorem trans (h : s.Follows t) (h' : t.Follows u) : s.Follows u := by
  induction h' with
  | refl => exact h
  | write _ chunk ih => exact ih.write chunk

theorem chunks (h : s.Follows t) : s.chunks <:+ t.chunks := by
  induction h with
  | refl => exact List.suffix_refl _
  | write _ chunk ih => exact ih.trans (chunks_write ..)

theorem within {limit : Nat} (h : s.Follows t) (hs : s.Within limit) : t.Within limit := by
  induction h with
  | refl => exact hs
  | write _ chunk ih => exact ih.write chunk

end Follows
end Sink

/-! ## States with an output -/

/-- States with an output that can be replaced. -/
class Writable (σ : Type) where
  sink : σ → Sink
  withSink : σ → Sink → σ
  sink_withSink : ∀ s t, sink (withSink s t) = t
  withSink_withSink : ∀ s t u, withSink (withSink s t) u = withSink s u

namespace Writable

variable {σ : Type} [Writable σ]

/-- The state with the bound of its output lifted. -/
def unbounded (s : σ) : σ := withSink s (sink s).unbounded

@[simp] theorem sink_unbounded (s : σ) : sink (unbounded s) = (sink s).unbounded :=
  sink_withSink ..

theorem unbounded_withSink (s : σ) (t : Sink) :
    unbounded (withSink s t) = withSink s t.unbounded := by
  unfold unbounded
  rw [sink_withSink, withSink_withSink]

/-- Between the two states there were only writes, and changes that leave the output alone. -/
def After (s t : σ) : Prop := (sink s).Follows (sink t)

theorem After.of_sink_eq {s t : σ} (h : sink t = sink s) : After s t := by
  unfold After
  rw [h]
  exact .refl

theorem After.trans {s t u : σ} (h : After s t) (h' : After t u) : After s u :=
  Sink.Follows.trans h h'

/-- What is written in `s` stands in `t`, whatever the bounds are. -/
def Stands (s t : σ) : Prop := (sink s).chunks <:+ (sink t).chunks

theorem After.stands {s t : σ} (h : After s t) : Stands s t := Sink.Follows.chunks h

theorem Stands.trans {s t u : σ} (h : Stands s t) (h' : Stands t u) : Stands s u :=
  List.IsSuffix.trans h h'

end Writable

/-! ## Actions on a bounded output -/

open Writable

variable {ε σ α β γ δ : Type}

/-- The outcome with another state behind it. -/
def onState (f : σ → σ) : EStateM.Result ε σ α → EStateM.Result ε σ α
  | .ok a s => .ok a (f s)
  | .error e s => .error e (f s)

theorem Ends.onState_iff {f : σ → σ} {r : EStateM.Result ε σ α} {post : α → σ → Prop}
    {stop : ε → σ → Prop} :
    Ends (onState f r) post stop ↔ Ends r (fun a s => post a (f s)) (fun e s => stop e (f s)) := by
  cases r with
  | ok a s => exact Iff.rfl
  | error e s => exact Iff.rfl

variable [Writable σ]

/-- However it ends, what is written in `s` stands. -/
def Keeps (s : σ) (r : EStateM.Result ε σ α) : Prop :=
  Ends r (fun _ t => Stands s t) (fun _ t => Stands s t)

/-- The first outcome, on a bounded output, is the second with its bound lifted; or it was cut off,
and the second wrote more. -/
def Curbed (limit : Nat) (cut : ε → Prop) (P : α → β → Prop) (r : EStateM.Result ε σ α)
    (r' : EStateM.Result ε σ β) : Prop :=
  match r with
  | .ok a s => (sink s).Within limit ∧ ∃ b, r' = .ok b (unbounded s) ∧ P a b
  | .error e s => (sink s).Within limit ∧ (r' = .error e (unbounded s) ∨ cut e ∧ Keeps s r')

theorem Curbed.onState {limit : Nat} {cut : ε → Prop} {P : α → β → Prop}
    {r : EStateM.Result ε σ α} {r' : EStateM.Result ε σ β} (h : Curbed limit cut P r r') {f : σ → σ}
    (hsink : ∀ s, sink (f s) = sink s) (hsame : ∀ s, f (unbounded s) = unbounded (f s)) :
    Curbed limit cut P (onState f r) (onState f r') := by
  cases r with
  | ok a s =>
    obtain ⟨hs, b, rfl, hab⟩ := h
    exact ⟨(hsink s).symm ▸ hs, b, congrArg (EStateM.Result.ok b) (hsame s), hab⟩
  | error e s =>
    obtain ⟨hs, hcases⟩ := h
    refine ⟨(hsink s).symm ▸ hs, ?_⟩
    rcases hcases with rfl | ⟨hcut, hkeeps⟩
    · exact .inl (congrArg (EStateM.Result.error e) (hsame s))
    · right
      constructor
      · exact hcut
      · -- `Stands` looks at the outputs only, which `f` leaves alone on both sides.
        have hstands (t : σ) (ht : Stands s t) : Stands (f s) (f t) := by
          unfold Stands
          rw [hsink, hsink]
          exact ht
        exact Ends.onState_iff.2 (hkeeps.mono (fun _ t ht => hstands t ht)
          (fun _ t ht => hstands t ht))

/-- On an output with the given bound the first action does what the second does without a bound,
unless it is cut off. -/
structure Curbs (limit : Nat) (cut : ε → Prop) (P : α → β → Prop) (x : EStateM ε σ α)
    (y : EStateM ε σ β) : Prop where
  after : ∀ s, Ends (y s) (fun b t => (∃ a, P a b) ∧ After s t) (fun _ t => After s t)
  curbed : ∀ s, (sink s).Within limit → Curbed limit cut P (x s) (y (unbounded s))

namespace Curbs

variable {limit : Nat} {cut : ε → Prop} {P : α → β → Prop} {Q : γ → δ → Prop}

theorem after_state {x : EStateM ε σ α} {y : EStateM ε σ β} (h : Curbs limit cut P x y) (s : σ) :
    Ends (y s) (fun _ t => After s t) (fun _ t => After s t) :=
  (h.after s).mono (fun _ _ ht => ht.2) (fun _ _ ht => ht)

theorem pure {a : α} {b : β} (h : P a b) :
    Curbs limit cut P (pure a : EStateM ε σ α) (pure b : EStateM ε σ β) :=
  ⟨fun _ => ⟨⟨a, h⟩, .of_sink_eq rfl⟩, fun _ hs => ⟨hs, b, rfl, h⟩⟩

theorem throw (e : ε) :
    Curbs limit cut P (throw e : EStateM ε σ α) (throw e : EStateM ε σ β) :=
  ⟨fun _ => .of_sink_eq rfl, fun _ hs => ⟨hs, .inl rfl⟩⟩

theorem bind {x : EStateM ε σ α} {y : EStateM ε σ β} {p : α → EStateM ε σ γ}
    {q : β → EStateM ε σ δ} (hx : Curbs limit cut P x y)
    (hp : ∀ a b, P a b → Curbs limit cut Q (p a) (q b)) :
    Curbs limit cut Q (x >>= p) (y >>= q) := by
  constructor
  · intro s
    rw [Ends.bind_iff]
    refine (hx.after s).mono (fun b t ht => ?_) (fun _ _ ht => ht)
    obtain ⟨⟨a, hab⟩, hst⟩ := ht
    exact ((hp a b hab).after t).mono (fun _ u hu => ⟨hu.1, hst.trans hu.2⟩)
      (fun _ u hu => hst.trans hu)
  · intro s hs
    have hcurbed := hx.curbed s hs
    cases hr : x s with
    | ok a t =>
      rw [hr] at hcurbed
      obtain ⟨ht, b, hb, hab⟩ := hcurbed
      rw [bind_eq_of_ok hr, bind_eq_of_ok hb]
      exact (hp a b hab).curbed t ht
    | error e t =>
      rw [hr] at hcurbed
      obtain ⟨ht, hcases⟩ := hcurbed
      rw [bind_eq_of_error hr]
      refine ⟨ht, ?_⟩
      rcases hcases with hsame | ⟨hcut, hkeeps⟩
      · exact .inl (bind_eq_of_error hsame)
      · -- The second action goes on by itself, and only adds to what it has written.
        right
        constructor
        · exact hcut
        · unfold Keeps
          rw [Ends.bind_iff]
          refine (hkeeps.and (hx.after _)).mono (fun b u hu => ?_) (fun _ _ hu => hu.1)
          obtain ⟨hstands, ⟨a, hab⟩, -⟩ := hu
          exact ((hp a b hab).after_state u).mono (fun _ v hv => hstands.trans hv.stands)
            (fun _ v hv => hstands.trans hv.stands)

theorem get {P : σ → σ → Prop} (h : ∀ s, P s (unbounded s)) (hP : ∀ s, ∃ t, P t s) :
    Curbs limit cut P (get : EStateM ε σ σ) (get : EStateM ε σ σ) :=
  ⟨fun s => ⟨hP s, .of_sink_eq rfl⟩, fun s hs => ⟨hs, unbounded s, rfl, h s⟩⟩

/-- Actions that leave the output alone, and do the same whether it is bounded or not. -/
theorem of_idle {x y : EStateM ε σ α}
    (hx : ∀ s, Ends (x s) (fun _ t => sink t = sink s) (fun _ t => sink t = sink s))
    (hy : ∀ s, Ends (y s) (fun _ t => sink t = sink s) (fun _ t => sink t = sink s))
    (hsame : ∀ s, y (unbounded s) = onState unbounded (x s)) : Curbs limit cut Eq x y := by
  constructor
  · intro s
    exact (hy s).mono (fun a _ ht => ⟨⟨a, rfl⟩, .of_sink_eq ht⟩) (fun _ _ ht => .of_sink_eq ht)
  · intro s hs
    have hkept := hx s
    rw [hsame s]
    cases hr : x s with
    | ok a t => exact ⟨hkept.of_ok hr ▸ hs, a, rfl, rfl⟩
    | error e t => exact ⟨hkept.of_error hr ▸ hs, .inl rfl⟩

theorem modify {f : σ → σ} (hsink : ∀ s, sink (f s) = sink s)
    (hsame : ∀ s, f (unbounded s) = unbounded (f s)) :
    Curbs limit cut Eq (modify f : EStateM ε σ PUnit) (modify f : EStateM ε σ PUnit) :=
  of_idle hsink hsink fun s => congrArg (EStateM.Result.ok PUnit.unit) (hsame s)

/-- An action that is one write, and stops if it is refused. -/
theorem write {x : EStateM ε σ Unit} {text : Bytes} {stop : Bytes → ε}
    (hx : ∀ s, x s = match (sink s).write text with
      | (.ok _, t) => .ok () (withSink s t)
      | (.error reason, t) => .error (stop reason) (withSink s t))
    (hcut : ∀ reason, cut (stop reason)) : Curbs limit cut Eq x x := by
  have hafter (s : σ) : Ends (x s) (fun _ t => After s t) (fun _ t => After s t) := by
    have hwritten : After s (withSink s ((sink s).write text).2) := by
      unfold After
      rw [sink_withSink]
      exact Sink.Follows.refl.write text
    rw [hx]
    generalize (sink s).write text = written at hwritten
    obtain ⟨taken, t⟩ := written
    cases taken with
    | ok u => exact hwritten
    | error reason => exact hwritten
  constructor
  · intro s
    exact (hafter s).mono (fun u _ ht => ⟨⟨u, rfl⟩, ht⟩) (fun _ _ ht => ht)
  · intro s hs
    rw [hx s]
    cases hw : (sink s).write text with
    | mk taken t =>
      cases taken with
      | ok u =>
        obtain ⟨ht, hfree⟩ := hs.write_ok hw
        have hfree' : x (unbounded s) = .ok () (unbounded (withSink s t)) := by
          rw [hx, sink_unbounded, hfree, unbounded_withSink]
          exact congrArg (EStateM.Result.ok ()) (withSink_withSink ..)
        refine ⟨?_, (), hfree', rfl⟩
        rw [sink_withSink]
        exact ht
      | error reason =>
        obtain ⟨ht, hchunks⟩ := hs.write_error hw
        -- Nothing was taken here, and whatever the free side does with the write only adds.
        have hstands : Stands (withSink s t) (unbounded s) := by
          unfold Stands
          rw [sink_withSink, sink_unbounded, hchunks]
          exact List.suffix_refl _
        constructor
        · rw [sink_withSink]
          exact ht
        · right
          constructor
          · exact hcut reason
          · exact (hafter (unbounded s)).mono (fun _ _ hu => hstands.trans hu.stands)
              (fun _ _ hu => hstands.trans hu.stands)

end Curbs
end Scriptlet
