import Scriptlet.Proofs.Machine.Legibility

/-!
# Text: strings are well formed at every moment

On well-formed input, a program has only well-formed strings at every moment of its run, and writes
only well-formed texts, whatever the bytes of its source. The characters of two such strings add up
when the strings are put together, which is false of strings that end or begin within a character.
-/

namespace Scriptlet

/-! ## Legible moments -/

/-- The expressions or statements of the task are legible. -/
def Task.Legible : Task → Prop
  | .eval _ e => e.Legible
  | .items _ es | .args _ es | .call _ _ _ es _ => Expr.AllLegible es
  | .stmt s => s.Legible
  | .block ss | .rounds ss _ => Stmt.AllLegible ss

namespace Task

variable {budget : Budget} {n : Nat} {task task' : Task} {m m' k : Machine} {f : Function}

open Exec

/-- A part of a legible task on a legible machine is a legible task on a legible machine. -/
theorem Part.legible (h : Part budget n task m task' m') (ht : task.Legible) (hm : m.Legible) :
    task'.Legible ∧ m'.Legible := by
  have tick {span : Span} {k : Machine} (hk : tick budget span m = .ok () k) : k.Legible :=
    ((legibly_tick budget span).of_ok hm hk).2
  have ih := legibleAt budget n
  cases h with
  | vecItems | negOperand => exact ⟨ht, hm⟩
  | leftOperand | indexTarget | firstItem | firstArg | firstStmt => exact ⟨ht.1, hm⟩
  | callExpr => exact ⟨ht.2, hm⟩
  | rightOperand hl => exact ⟨ht.2, ((ih.eval none _ ht.1).of_ok hm hl).2⟩
  | indexPlace htarget => exact ⟨ht.2, ((ih.eval none _ ht.1).of_ok hm htarget).2⟩
  | otherItems he htype => exact ⟨ht.2, ((ih.eval _ _ ht.1).of_ok hm he).2⟩
  | otherArgs he => exact ⟨ht.2, ((ih.eval _ _ ht.1).of_ok hm he).2⟩
  | builtinArgs hb => exact ⟨ht, hm⟩
  | functionArgs hb hf => exact ⟨ht, hm⟩
  | letValue hk => exact ⟨ht.2, tick hk⟩
  | assignValue hk hs => exact ⟨ht.2, tick hk⟩
  | assignPlace hk hs => exact ⟨ht.2.1, tick hk⟩
  | assignItem hk hs hp => exact ⟨ht.2.2, ((ih.eval none _ ht.2.1).of_ok (tick hk) hp).2⟩
  | callStmt hk => exact ⟨ht.2, tick hk⟩
  | whenCond hk | ifCond hk => exact ⟨ht.1, tick hk⟩
  | retValue hk | exitValue hk | loopRounds hk => exact ⟨ht, tick hk⟩
  | whenBody hk hc => exact ⟨ht.2, ((ih.eval none _ ht.1).of_ok (tick hk) hc).2⟩
  | ifBody hk hc => exact ⟨ht.2.1, ((ih.eval none _ ht.1).of_ok (tick hk) hc).2⟩
  | ifOther hk hc => exact ⟨ht.2.2, ((ih.eval none _ ht.1).of_ok (tick hk) hc).2⟩
  | otherStmts hs => exact ⟨ht.2, ((ih.stmt _ ht.1).of_ok hm hs).2⟩
  | roundBody => exact ⟨ht, hm⟩
  | nextRound hb hl =>
    have hk := ((ih.block _ ht).of_ok hm hb).2
    exact ⟨ht, ((legibly_tick budget _).of_ok hk hl).2⟩

/-- A call on a legible machine opens a legible body on a legible machine. -/
theorem Opens.legible (h : Opens budget n task m f k) (ht : task.Legible) (hm : m.Legible) :
    Stmt.AllLegible f.body ∧ k.Legible := by
  cases h with
  | call hb hf ha ho hd =>
    obtain ⟨hbody, -⟩ := (legibly_callee _ _ _ _ _).of_ok hm hf
    obtain ⟨hvalues, hk⟩ := ((legibleAt budget n).args _ _ ht).of_ok hm ha
    obtain ⟨hown, -⟩ := (legibly_bindParams _ _ _ [] hvalues Scope.legible_nil).of_ok hk ho
    exact ⟨hbody, hk.enter hown _⟩

/-- However a legible task ends, the machine is legible and the values that it gives are. -/
theorem legibly_run (budget : Budget) (fuel : Nat) (ht : task.Legible) :
    Legibly (fun vs => ∀ v ∈ vs, Value.Legible v) (task.run budget fuel) := by
  have ih := legibleAt budget fuel
  have hoption {α : Type} {x : Exec α} (carried : α → Option Value)
      (hx : Legibly (fun a => ∀ v ∈ carried a, Value.Legible v) x) :
      Legibly (fun vs => ∀ v ∈ vs, Value.Legible v) (do return (carried (← x)).toList) :=
    Legibly.bind hx fun a ha => Legibly.pure fun v hv => ha v (Option.mem_toList.1 hv)
  cases task with
  | eval hint e =>
    exact Legibly.bind (ih.eval hint e ht) fun v hv => Legibly.pure (List.forall_mem_singleton.2 hv)
  | items hint es => exact Legibly.bind (ih.items hint es ht) fun r hr => Legibly.pure hr
  | args hints es => exact ih.args hints es ht
  | call wanted name nameSpan args span =>
    exact hoption id (ih.call wanted name nameSpan args span ht)
  | stmt s => exact hoption _ (ih.stmt s ht)
  | block ss => exact hoption _ (ih.block ss ht)
  | rounds body span => exact hoption _ (ih.rounds body span ht)

end Task

namespace Moment

/-- The machine and its task are legible, and so are the callers' variables. -/
structure Legible (mo : Moment) : Prop where
  machine : mo.machine.Legible
  task : mo.task.Legible
  callers : ∀ own, some own ∈ mo.callers → own.Legible

theorem Legible.next {budget : Budget} {mo mo' : Moment} (h : mo.Legible)
    (hn : Next budget mo mo') : mo'.Legible := by
  cases hn with
  | part hp =>
    obtain ⟨htask, hmachine⟩ := hp.legible h.task h.machine
    exact ⟨hmachine, htask, h.callers⟩
  | body hb =>
    obtain ⟨hbody, hk⟩ := hb.legible h.task h.machine
    refine ⟨hk, hbody, fun own hown => ?_⟩
    rcases List.mem_cons.1 hown with hlocals | hown
    · exact h.machine.locals own hlocals.symm
    · exact h.callers own hown

/-- Every moment of a run that starts legibly is legible. -/
theorem Legible.leadsTo {budget : Budget} {mo mo' : Moment} (h : mo.Legible)
    (hl : LeadsTo budget mo mo') : mo'.Legible := by
  induction hl with
  | refl => exact h
  | tail _ hn ih => exact ih.next hn

end Moment

/-! ## Sessions on text -/

/-- Machines as parsed programs leave them that were run on well-formed input, however their runs
end. Between two programs the streams may be exchanged. -/
inductive Machine.OnText : Machine → Prop
  | new {input : Input} {output : Sink} (hin : input.Legible)
    (hout : ∀ c ∈ output.chunks, isUtf8 c = true) : OnText { input, output }
  | streams {m : Machine} (h : OnText m) {input : Input} {output : Sink} (hin : input.Legible)
    (hout : ∀ c ∈ output.chunks, isUtf8 c = true) : OnText { m with input, output }
  | ended {m n : Machine} {source : Bytes} {p : Program} {budget : Budget} {fuel : Nat}
    (h : OnText m) (hp : Program.ofSource source = .ok p)
    (hr : Machine.run budget fuel p m = .ok () n) : OnText n
  | halted {m n : Machine} {source : Bytes} {p : Program} {budget : Budget} {fuel : Nat}
    {halt : Halt} (h : OnText m) (hp : Program.ofSource source = .ok p)
    (hr : Machine.run budget fuel p m = .error halt n) : OnText n

open Exec in
theorem Machine.legibly_run (budget : Budget) (fuel : Nat) {p : Program}
    (hp : Stmt.AllLegible p) : Legibly (fun _ => True) (Machine.run budget fuel p) := by
  refine Legibly.bind Legibly.get fun m _ => ?_
  split
  · exact Legibly.fail _ _
  · exact Legibly.bind ((legibleAt budget fuel).block p hp) fun _ _ => Legibly.pure trivial

theorem Machine.OnText.legible {m : Machine} (h : m.OnText) : m.Legible := by
  induction h with
  | new hin hout => exact ⟨nofun, nofun, nofun, hin, hout⟩
  | streams h hin hout ih => exact ⟨ih.globals, ih.locals, ih.functions, hin, hout⟩
  | ended h hp hr ih =>
    exact ((legibly_run _ _ (Program.allLegible_of_ofSource hp)).of_ok ih hr).2
  | halted h hp hr ih =>
    exact (legibly_run _ _ (Program.allLegible_of_ofSource hp) _ ih).of_error hr

/-! ## The strings of a state -/

/-- Called with the one value, `len` gives the other. -/
def Value.Measures (v w : Value) : Prop :=
  ∀ (span argSpan : Span) (m : Machine), Builtin.len.apply span argSpan [v] m = .ok (some w) m

/-- The sum of the strings has the sum of their lengths. -/
def LengthsAdd (a b : Bytes) : Prop :=
  ∃ k l s n : Value, (Value.str a).Measures k ∧ (Value.str b).Measures l ∧
    BinOp.add.apply (.str a) (.str b) = .ok s ∧ BinOp.add.apply k l = .ok n ∧ s.Measures n

theorem lengthsAdd_of_isUtf8 {a b : Bytes} (ha : isUtf8 a = true) (hb : isUtf8 b = true) :
    LengthsAdd a b := by
  refine ⟨.int (.ofNat (glyphCount a)), .int (.ofNat (glyphCount b)), .str (a ++ b),
    .int (.ofNat (glyphCount a) + .ofNat (glyphCount b)), fun _ _ _ => rfl, fun _ _ _ => rfl, rfl,
    rfl, fun _ _ m => ?_⟩
  rw [← Int64.ofNat_add, ← glyphCount_append ha hb]
  rfl

/-- The strings that the variables hold. -/
def Scope.texts (s : Scope) : List Bytes := s.flatMap fun b => b.2.value.texts

/-- The strings in the variables of a machine and of the callers, and in some values. -/
def Machine.texts (m : Machine) (callers : List (Option Scope)) (values : List Value) :
    List Bytes :=
  m.globals.texts ++ (m.locals :: callers).flatMap (fun own => (own.getD []).texts) ++
    Value.allTexts values

/-- The strings of the state are well formed and add up, and what was written is well formed. -/
structure Machine.Readable (m : Machine) (callers : List (Option Scope)) (values : List Value) :
    Prop where
  strings : ∀ s ∈ m.texts callers values, isUtf8 s = true
  written : ∀ c ∈ m.output.chunks, isUtf8 c = true
  lengths : ∀ a ∈ m.texts callers values, ∀ b ∈ m.texts callers values, LengthsAdd a b

theorem Scope.Legible.texts {s : Scope} (h : s.Legible) : ∀ t ∈ s.texts, isUtf8 t = true := by
  intro t ht
  obtain ⟨b, hb, hmem⟩ := List.mem_flatMap.1 ht
  exact h b hb t hmem

theorem Machine.Legible.readable {m : Machine} (h : m.Legible) {callers : List (Option Scope)}
    (hcallers : ∀ own, some own ∈ callers → own.Legible) {values : List Value}
    (hvalues : ∀ v ∈ values, v.Legible) : m.Readable callers values := by
  have hscope : ∀ own ∈ m.locals :: callers, ∀ t ∈ (own.getD []).texts, isUtf8 t = true := by
    intro own hown
    cases own with
    | none => exact nofun
    | some s =>
      rcases List.mem_cons.1 hown with hlocals | hown
      · exact (h.locals s hlocals.symm).texts
      · exact (hcallers s hown).texts
  have hstrings : ∀ s ∈ m.texts callers values, isUtf8 s = true := by
    intro s hs
    rcases List.mem_append.1 hs with hs | hs
    · rcases List.mem_append.1 hs with hs | hs
      · exact h.globals.texts s hs
      · obtain ⟨own, hown, hmem⟩ := List.mem_flatMap.1 hs
        exact hscope own hown s hmem
    · obtain ⟨v, hv, hmem⟩ := Value.mem_allTexts.1 hs
      exact hvalues v hv s hmem
  exact ⟨hstrings, h.output, fun a ha b hb => lengthsAdd_of_isUtf8 (hstrings a ha) (hstrings b hb)⟩

/-- Over every session of parsed programs on well-formed input, and at every moment of each run, the
strings in the variables are well formed, and so is all that was written; and so it is when the task
of the moment has ended, also for the values that it gives. The lengths of any two of these strings
add up to that of their sum. -/
theorem strings_stay_well_formed {m : Machine} (hm : m.OnText) {source : Bytes} {p : Program}
    (hp : Program.ofSource source = .ok p) {budget : Budget} {fuel : Nat} {mo : Moment}
    (hmo : Moment.LeadsTo budget (.start fuel p m) mo) :
    mo.machine.Readable mo.callers [] ∧
      Ends (mo.outcome budget) (fun values n => n.Readable mo.callers values)
        (fun _ n => n.Readable mo.callers []) := by
  have hstart : (Moment.start fuel p m).Legible :=
    ⟨hm.legible, Program.allLegible_of_ofSource hp, nofun⟩
  have hmoment : mo.Legible := hstart.leadsTo hmo
  have houtcome := Task.legibly_run budget mo.fuel hmoment.task mo.machine hmoment.machine
  exact ⟨hmoment.machine.readable hmoment.callers nofun,
    houtcome.mono (fun values n h => h.2.readable hmoment.callers h.1)
      (fun _ n h => h.readable hmoment.callers nofun)⟩

/-- A malformed byte in a string of the source is written as U+FFFD, before a line that ends in a
carriage return. -/
theorem malformed_byte_is_written_as_a_character :
    let m : Machine := { input := .ofSource { rest := utf8 "\u00FC\r\n" } }
    let source := utf8 "let s = \"" ++ [0xFF] ++ utf8 "\"; print(s + read());"
    m.OnText ∧ ∃ p, Program.ofSource source = .ok p ∧
      (m.Readable [] [] ∧
        Ends ((Moment.start 100 p m).outcome {}) (fun values n => n.Readable [] values)
          (fun _ n => n.Readable [] [])) ∧
      Ends (Machine.run {} 100 p m) (fun _ n => n.output.text = utf8 "\uFFFD\u00FC")
        (fun _ _ => False) := by
  intro m source
  have hin : m.input.Legible := by
    unfold Input.Legible
    decide
  have hm : m.OnText := .new hin nofun
  have hrun : (match Program.ofSource source with
      | .error _ => false
      | .ok p =>
        match Machine.run {} 100 p m with
        | .ok _ n => decide (n.output.text = utf8 "\uFFFD\u00FC")
        | .error _ _ => false) = true := by decide +kernel
  cases hp : Program.ofSource source with
  | error d =>
    rw [hp] at hrun
    cases hrun
  | ok p =>
    rw [hp] at hrun
    refine ⟨hm, p, rfl, strings_stay_well_formed hm hp .refl, ?_⟩
    cases hr : Machine.run {} 100 p m with
    | ok _ n =>
      simp only [hr] at hrun
      show n.output.text = _
      exact of_decide_eq_true hrun
    | error halt n =>
      simp only [hr] at hrun
      cases hrun

end Scriptlet
