import Scriptlet.Machine

/-!
# Ends: how an action can end

Parsing and running are actions that end with a value or with a stop, and leave a state behind in
both cases. `Ends` says of such an outcome what holds at either end. Its lemmas follow the way
actions are put together, so that what a composed action does is read off its parts.
-/

namespace Scriptlet

variable {ε σ α β : Type}

/-- The outcome satisfies `post` if it is a value, and `stop` if it is none. -/
def Ends (r : EStateM.Result ε σ α) (post : α → σ → Prop) (stop : ε → σ → Prop) : Prop :=
  match r with
  | .ok a s => post a s
  | .error e s => stop e s

/-- Whether the outcome is a stop. -/
def stops : EStateM.Result ε σ α → Bool
  | .ok _ _ => false
  | .error _ _ => true

theorem exists_of_stops {r : EStateM.Result ε σ α} (h : stops r = true) :
    ∃ e s, r = .error e s := by
  cases r with
  | ok a s => cases h
  | error e s => exact ⟨e, s, rfl⟩

theorem exists_of_not_stops {r : EStateM.Result ε σ α} (h : stops r = false) :
    ∃ a s, r = .ok a s := by
  cases r with
  | ok a s => exact ⟨a, s, rfl⟩
  | error e s => cases h

namespace Ends

variable {post post' : α → σ → Prop} {stop stop' : ε → σ → Prop} {s : σ}

theorem mono {r : EStateM.Result ε σ α} (h : Ends r post stop)
    (hpost : ∀ a s, post a s → post' a s) (hstop : ∀ e s, stop e s → stop' e s) :
    Ends r post' stop' := by
  cases r with
  | ok a s => exact hpost a s h
  | error e s => exact hstop e s h

/-- A second fact about the same outcome joins the first. -/
theorem and {r : EStateM.Result ε σ α} (h : Ends r post stop) (h' : Ends r post' stop') :
    Ends r (fun a s => post a s ∧ post' a s) (fun e s => stop e s ∧ stop' e s) := by
  cases r with
  | ok a s => exact ⟨h, h'⟩
  | error e s => exact ⟨h, h'⟩

theorem of_ok {r : EStateM.Result ε σ α} {a : α} (h : Ends r post stop) (hr : r = .ok a s) :
    post a s := by
  rw [hr] at h
  exact h

theorem of_error {r : EStateM.Result ε σ α} {e : ε} (h : Ends r post stop)
    (hr : r = .error e s) : stop e s := by
  rw [hr] at h
  exact h

/-- Only the values are of interest. -/
theorem of_forall_ok {r : EStateM.Result ε σ α} (h : ∀ a s, r = .ok a s → post a s) :
    Ends r post (fun _ _ => True) := by
  cases r with
  | ok a s => exact h a s rfl
  | error e s => trivial

@[simp] theorem pure_iff {a : α} :
    Ends ((pure a : EStateM ε σ α) s) post stop ↔ post a s := Iff.rfl

@[simp] theorem throw_iff {e : ε} :
    Ends ((throw e : EStateM ε σ α) s) post stop ↔ stop e s := Iff.rfl

@[simp] theorem get_iff {post : σ → σ → Prop} :
    Ends ((get : EStateM ε σ σ) s) post stop ↔ post s s := Iff.rfl

@[simp] theorem modify_iff {f : σ → σ} {post : Unit → σ → Prop} :
    Ends ((modify f : EStateM ε σ PUnit) s) post stop ↔ post () (f s) := Iff.rfl

/-- A composed action ends where its second part ends, started where the first part left off. -/
@[simp] theorem bind_iff {x : EStateM ε σ α} {f : α → EStateM ε σ β} {post : β → σ → Prop} :
    Ends ((x >>= f) s) post stop ↔ Ends (x s) (fun a t => Ends (f a t) post stop) stop := by
  change Ends (EStateM.bind x f s) post stop ↔ _
  unfold EStateM.bind
  cases x s with
  | ok a t => exact Iff.rfl
  | error e t => exact Iff.rfl

/-- Nothing need be known of the first part if nothing is asked of a stop. -/
theorem after {x : EStateM ε σ α} {f : α → EStateM ε σ β} {post : β → σ → Prop}
    (h : ∀ a t, Ends (f a t) post (fun _ _ => True)) :
    Ends ((x >>= f) s) post (fun _ _ => True) := by
  rw [bind_iff]
  cases x s with
  | ok a t => exact h a t
  | error e t => trivial

@[simp] theorem map_iff {x : EStateM ε σ α} {f : α → β} {post : β → σ → Prop} :
    Ends ((f <$> x) s) post stop ↔ Ends (x s) (fun a t => post (f a) t) stop := by
  change Ends (EStateM.map f x s) post stop ↔ _
  unfold EStateM.map
  cases x s with
  | ok a t => exact Iff.rfl
  | error e t => exact Iff.rfl

end Ends

/-- A composed action gives a value if its first part does and its second part does from there. -/
theorem bind_eq_of_ok {x : EStateM ε σ α} {f : α → EStateM ε σ β} {s t : σ} {a : α}
    (h : x s = .ok a t) : (x >>= f) s = f a t := by
  change EStateM.bind x f s = f a t
  unfold EStateM.bind
  rw [h]

theorem bind_eq_of_error {x : EStateM ε σ α} {f : α → EStateM ε σ β} {s t : σ} {e : ε}
    (h : x s = .error e t) : (x >>= f) s = .error e t := by
  change EStateM.bind x f s = .error e t
  unfold EStateM.bind
  rw [h]

/-- A composed action that gives a value did so with both parts. -/
theorem exists_of_bind_ok {x : EStateM ε σ α} {f : α → EStateM ε σ β} {s t : σ} {b : β}
    (h : (x >>= f) s = .ok b t) : ∃ a u, x s = .ok a u ∧ f a u = .ok b t := by
  cases hx : x s with
  | error e u => rw [bind_eq_of_error hx] at h; cases h
  | ok a u => rw [bind_eq_of_ok hx] at h; exact ⟨a, u, rfl, h⟩

/-- A composed action that stops was stopped in one of its parts. -/
theorem of_bind_error {x : EStateM ε σ α} {f : α → EStateM ε σ β} {s t : σ} {e : ε}
    (h : (x >>= f) s = .error e t) :
    x s = .error e t ∨ ∃ a u, x s = .ok a u ∧ f a u = .error e t := by
  cases hx : x s with
  | error e' u => rw [bind_eq_of_error hx] at h; cases h; exact .inl rfl
  | ok a u => rw [bind_eq_of_ok hx] at h; exact .inr ⟨a, u, rfl, h⟩

namespace Exec

variable {post : α → Machine → Prop} {stop : Halt → Machine → Prop} {m : Machine}

@[simp] theorem ends_fail {fault : Fault} {span : Span} :
    Ends ((fail fault span : Exec α) m) post stop ↔ stop (.fault ⟨fault, span⟩) m := Iff.rfl

@[simp] theorem ends_mismatch {need : Need} {got : Value} {span : Span} :
    Ends ((mismatch need got span : Exec α) m) post stop ↔
      stop (.fault ⟨.mismatch need got.type, span⟩) m := Iff.rfl

end Exec
end Scriptlet
