import Scriptlet.Proofs.Machine.Naturality
import Scriptlet.Proofs.Program.Places

/-!
# Places: a run points where its program does

A way of moving places may leave those of a program alone. Then it leaves those of every function
that the program declares alone, and those of the fault that the program ends with: a run makes no
place up. So faults lie between the offsets between which the nodes of the program lie, or at the
origin if the run does not begin.
-/

namespace Scriptlet

variable {f : Span → Span}

/-! ## Moving twice -/

theorem Function.respan_respan (hf : ∀ s, f (f s) = f s) (g : Function) :
    (g.respan f).respan f = g.respan f := by
  have hcomp : f ∘ f = f := funext hf
  unfold Function.respan
  rw [List.map_map, Stmt.allRespan_allRespan, hcomp]
  congr 2
  funext p
  show p.respan (f ∘ f) = p.respan f
  rw [hcomp]

theorem Machine.respan_respan (hf : ∀ s, f (f s) = f s) (m : Machine) :
    (m.respan f).respan f = m.respan f := by
  unfold respan
  rw [List.map_map]
  congr 2
  funext d
  show (d.1, (d.2.respan f).respan f) = (d.1, d.2.respan f)
  rw [Function.respan_respan hf]

namespace Exec

open Machine

variable {α β γ δ : Type}

/-- On a machine whose places are left alone, the action leaves such a machine behind, and ends with
one of the results or with a halt whose places are left alone. -/
def Settled (f : Span → Span) (results : β → Prop) (y : Exec β) : Prop :=
  ∀ m, m.respan f = m →
    Ends (y m) (fun b n => results b ∧ n.respan f = n) (fun h n => h.respan f = h ∧ n.respan f = n)

namespace Settled

variable {results : β → Prop} {results' : δ → Prop}

theorem pure {b : β} (h : results b) : Settled f results (pure b) := fun _ hm => ⟨h, hm⟩

theorem bind {y : Exec β} {q : β → Exec δ} (hy : Settled f results y)
    (hq : ∀ b, results b → Settled f results' (q b)) : Settled f results' (y >>= q) := by
  intro m hm
  rw [Ends.bind_iff]
  exact (hy m hm).mono (fun b n hb => hq b hb.1 n hb.2) fun _ _ h => h

theorem fail {fault : Fault} (h : fault.respan f = fault) {span : Span} (hspan : f span = span) :
    Settled f results (fail fault span) := by
  intro m hm
  refine ⟨?_, hm⟩
  show Halt.fault ⟨fault.respan f, f span⟩ = .fault ⟨fault, span⟩
  rw [h, hspan]

theorem get {results : Machine → Prop} (h : ∀ m, m.respan f = m → results m) :
    Settled f results (get : Exec Machine) := fun m hm => ⟨h m hm, hm⟩

theorem modify {results : PUnit → Prop} {g : Machine → Machine} (hr : results ⟨⟩)
    (h : ∀ m, m.respan f = m → (g m).respan f = g m) :
    Settled f results (modify g : Exec PUnit) := fun m hm => ⟨hr, h m hm⟩

theorem branch {p : Prop} [Decidable p] {y y' : Exec β} (hy : Settled f results y)
    (hy' : Settled f results y') : Settled f results (if p then y else y') := by
  by_cases hp : p
  · rw [if_pos hp]
    exact hy
  · rw [if_neg hp]
    exact hy'

theorem inCall {y : Exec β} (h : Settled f results y) (own : Scope) :
    Settled f results (inCall own y) := by
  intro m hm
  -- Variables hold no places, so a machine is left alone whatever its variables are.
  have hvars {n : Machine} (hn : n.respan f = n) (own : Option Scope) (depth : Nat) :
      ({ n with locals := own, depth } : Machine).respan f = { n with locals := own, depth } :=
    congrArg (fun k : Machine => { k with locals := own, depth }) hn
  have hy := h { m with locals := some own, depth := m.depth + 1 } (hvars hm _ _)
  unfold Exec.inCall
  cases hr : y { m with locals := some own, depth := m.depth + 1 } with
  | ok b n =>
    rw [hr] at hy
    exact ⟨hy.1, hvars hy.2 _ _⟩
  | error e n =>
    rw [hr] at hy
    exact ⟨hy.1, hvars hy.2 _ _⟩

end Settled

theorem settled_modify_bind {g : Machine → Machine} {y : PUnit → Exec β} {results : β → Prop}
    (hg : ∀ m, m.respan f = m → (g m).respan f = g m) (hy : Settled f results (y ⟨⟩)) :
    Settled f results (modify g >>= y) := by
  have hmodify : Settled f (fun _ => True) (modify g : Exec PUnit) := .modify trivial hg
  exact hmodify.bind fun _ _ => hy

variable {results : Unit → Prop} {span : Span}

theorem settled_write (hr : results ()) (hspan : f span = span) (text : Bytes) :
    Settled f results (write span text) := by
  refine Settled.bind (.get fun _ _ => trivial) fun m (_ : True) => ?_
  generalize m.output.write text = written
  obtain ⟨taken, sink⟩ := written
  refine settled_modify_bind (fun n hn => ?_) ?_
  · exact congrArg (fun k : Machine => { k with output := sink }) hn
  · cases taken with
    | ok u => exact .pure hr
    | error reason => exact .fail rfl hspan

theorem settled_readLine {results : Bytes → Prop} (hr : ∀ text, results text)
    (hspan : f span = span) : Settled f results (readLine span) := by
  refine Settled.bind (.get fun _ _ => trivial) fun m (_ : True) => ?_
  generalize m.input.readLine = read
  obtain ⟨line, rest⟩ := read
  refine settled_modify_bind (fun n hn => ?_) ?_
  · exact congrArg (fun k : Machine => { k with input := rest }) hn
  · cases line with
    | ok text => exact .pure (hr text)
    | error reason => exact .fail rfl hspan

theorem settled_tick (hr : results ()) (hspan : f span = span) (b : Budget) :
    Settled f results (tick b span) := by
  refine settled_modify_bind (fun n hn => ?_) ?_
  · exact congrArg (fun k : Machine => { k with steps := n.steps + 1 }) hn
  refine Settled.bind (.get fun _ _ => trivial) fun m (_ : True) => ?_
  refine .branch (.fail rfl hspan) (.branch ?_ (.pure hr))
  cases b.cancelled m with
  | none => exact .pure hr
  | some reason => exact .fail rfl hspan

theorem settled_checkDepth (hr : results ()) (hspan : f span = span) (b : Budget) :
    Settled f results (checkDepth b span) := by
  refine Settled.bind (.get fun _ _ => trivial) fun m (_ : True) => ?_
  exact .branch (.fail rfl hspan) (.pure hr)

/-- What every run keeps, as a congruence of actions with themselves at moved places. -/
def settlement (f : Span → Span) (hf : ∀ s, f (f s) = f s) (b : Budget) : Congruence f b b where
  Rel P _ y := Settled f (fun c => ∃ a, P a c) y
  pure h := .pure ⟨_, h⟩
  bind hx hp := hx.bind fun c hc => hc.elim fun a ha => hp a c ha
  stuck := fun _ hm => ⟨rfl, hm⟩
  fail h span := .fail h.respan (hf span)
  look := .get fun m hm => ⟨m, by
    have hnames := sameNames_respan (f := f) m
    rw [hm] at hnames
    exact hnames⟩
  write span text := settled_write ⟨(), rfl⟩ (hf span) text
  readLine span := settled_readLine (fun text => ⟨text, rfl⟩) (hf span)
  exit _ := fun _ hm => ⟨rfl, hm⟩
  tick span := settled_tick ⟨(), rfl⟩ (hf span) b
  checkDepth span := settled_checkDepth ⟨(), rfl⟩ (hf span) b
  declare name v := .modify ⟨_, rfl⟩ fun m hm => by rw [← respan_declare, hm]
  assign name v := .modify ⟨_, rfl⟩ fun m hm => by rw [← respan_assign, hm]
  define name g := .modify ⟨_, rfl⟩ fun m hm => by
    have hdefine := respan_define (f := f) name g m
    rw [hm] at hdefine
    rw [hdefine, respan_respan hf]
  inCall own h := h.inCall own

end Exec

namespace Machine

theorem settled_run (hf : ∀ s, f (f s) = f s) (horigin : f .origin = .origin) {p : Program}
    (hp : Stmt.allRespan f p = p) (b : Budget) (n : Nat) :
    Exec.Settled f (fun _ => True) (run b n p) := by
  have hblock := ((Exec.settlement f hf b).agree (fun _ hm => ⟨rfl, hm⟩) n).block p
  rw [hp] at hblock
  refine Exec.Settled.bind (.get fun _ _ => trivial) fun m (_ : True) => ?_
  cases b.cancelled m with
  | some reason => exact .fail rfl horigin
  | none => exact hblock.bind fun _ _ => .pure trivial

/-- A new machine runs a program to a fault that lies where the nodes of the program do. -/
theorem on_of_run {offsets : Nat → Prop} (hzero : offsets 0) {p : Program}
    (hp : ∀ n ∈ Stmt.allNodes p, n.2.On offsets) {b : Budget} {n : Nat} {m m' : Machine}
    (hm : m.functions = []) {d : Diagnostic} (h : run b n p m = .error (.fault d) m') :
    d.span.On offsets := by
  have horigin : Span.origin.On offsets := ⟨0, 0, rfl, Nat.le_refl 0, hzero, hzero⟩
  let f := Span.keep offsets .origin
  have hkept : ∀ s, (f s).On offsets := Span.on_keep horigin
  have hprogram : Stmt.allRespan f p = p :=
    Stmt.allRespan_of_fixed fun n hn => Span.keep_of_on (hp n hn)
  have hmachine : m.respan f = m := by
    obtain ⟨globals, locals, functions, steps, depth, input, output⟩ := m
    cases hm
    rfl
  have hends := settled_run (fun s => Span.keep_of_on (hkept s)) (Span.keep_of_on horigin) hprogram b
    n m hmachine
  have hhalt : Halt.fault (d.respan f) = .fault d := (hends.of_error h).1
  have hspan : f d.span = d.span := congrArg Diagnostic.span (Halt.fault.inj hhalt)
  exact hspan ▸ hkept d.span

end Machine
end Scriptlet
