import Scriptlet.Proofs.Machine.Lifetime
import Scriptlet.Proofs.Runner.Session

/-!
# Verdict: what the parser accepts, runs

Programs that parse never get stuck, on whatever machine earlier programs left and under whatever
budget. So the errors of ill-formed texts come from reading only, and a run reports one exactly if a
dry run of the same source does.
-/

namespace Scriptlet

/-- The key of the error that a run reports, if it reports one. -/
def RunEnd.key? : RunEnd → Option Bytes
  | .failed _ d => some d.code.key
  | .refused _ | .finished _ | .stuck _ | .unfinished _ => none

/-- The run ended before its program was executed, because the output refused a write of the
runner. -/
def RunEnd.Unshown : RunEnd → Prop
  | .failed r d => r.executed = false ∧ d.Refusal
  | .refused _ | .finished _ | .stuck _ | .unfinished _ => False

theorem Code.key_eq_malformed_iff (c : Code) : c.key = utf8 "E0001" ↔ c = .malformed := by
  cases c with
  | malformed => decide
  | mismatchedTypes | invalidConversion | function | undeclared => decide
  | index | arithmetic | limit | io | incorrectType => decide

theorem Diagnostic.Refusal.code_eq {d : Diagnostic} (h : d.Refusal) : d.code = .io := by
  obtain ⟨reason, rfl⟩ := h
  rfl

/-- A write that was refused is reported as such. -/
theorem RunEnd.Unshown.key?_eq {r : RunEnd} (h : r.Unshown) : r.key? = some (utf8 "E0009") := by
  cases r with
  | failed report d => rw [RunEnd.key?, h.2.code_eq]; rfl
  | refused | finished | stuck | unfinished => exact h.elim

theorem Loaded.program_ofSource {source : Bytes} {loaded : Loaded}
    (h : Loaded.ofSource source = .ok loaded) : Program.ofSource source = .ok loaded.program := by
  unfold Loaded.ofSource at h
  unfold Program.ofSource
  cases hlex : Token.lex source with
  | error d => rw [hlex] at h; cases h
  | ok tokens =>
    rw [hlex] at h
    cases hparse : Program.parse tokens with
    | error d => simp only [hparse] at h; cases h
    | ok program =>
      simp only [hparse] at h
      cases h
      exact hparse

/-- The run did not get stuck and does not call its text ill-formed. -/
def RunEnd.Executed (r : RunEnd) : Prop := (∀ report, r ≠ .stuck report) ∧ r.key? ≠ some (utf8 "E0001")

namespace Runner

variable {source : Bytes} {loaded : Loaded}

theorem executed_failed {report : Report} {d : Diagnostic} (h : d.code ≠ .malformed) :
    RunEnd.Executed (.failed report d) := by
  refine ⟨fun _ => RunEnd.noConfusion, fun hkey => h ?_⟩
  exact (Code.key_eq_malformed_iff d.code).1 (Option.some.inj hkey)

theorem executed_finished {report : Report} : RunEnd.Executed (.finished report) :=
  ⟨fun _ => RunEnd.noConfusion, fun h => by cases h⟩

theorem exists_run_of_execute {e : Runner} {p : Program} {w : Surface} {halt : Halt}
    (h : (e.execute p w).1 = some halt) :
    ∃ m, Machine.run e.budget e.fuel p { input := .ofSource w.source, output := w.out } =
      .error halt m := by
  unfold execute at h
  dsimp only at h
  split at h
  · cases h
  · rename_i halt' m hrun
    cases h
    exact ⟨m, hrun⟩

/-- A program that was read halts properly. -/
theorem proper_of_execute (hl : Loaded.ofSource source = .ok loaded) {e : Runner} {w : Surface}
    {halt : Halt} (h : (e.execute loaded.program w).1 = some halt) : halt.Proper := by
  obtain ⟨m, hrun⟩ := exists_run_of_execute h
  have hstart : Machine.Reached { input := .ofSource w.source, output := w.out } := .new _ _
  exact (Program.runsOn (Loaded.program_ofSource hl) hstart e.budget e.fuel).ending.of_error hrun

/-- A program that was read is executed without getting stuck. -/
theorem executed_perform (h : Loaded.ofSource source = .ok loaded) (e : Runner) (mode : RunMode)
    (name text : Bytes) (report : Report) (w : Surface) :
    (e.perform mode name text loaded report w).1.Executed := by
  have hhalt : ∀ halt ∈ (e.execute loaded.program w).1, halt.Proper :=
    fun halt hmem => proper_of_execute h hmem
  -- From here on only how the execution halted matters.
  unfold perform conclude
  generalize e.execute loaded.program w = ran at hhalt
  obtain ⟨halt, steps, u⟩ := ran
  cases halt with
  | some halt =>
    have hproper := hhalt halt rfl
    cases halt with
    | fault d => exact executed_failed ((Code.key_mem_runningKeys_iff d.code).1 hproper)
    | exit code => exact executed_finished
    | stuck => exact hproper.elim
    | outOfFuel => exact ⟨fun _ => RunEnd.noConfusion, fun h => by cases h⟩
  | none =>
    dsimp only
    split
    · exact executed_finished
    · rename_i d v htrailer
      have hrefusal := (refusal.trailer e mode _).of_error htrailer
      exact executed_failed (by rw [hrefusal.code_eq]; exact Code.noConfusion)

theorem executed_proceed (h : Loaded.ofSource source = .ok loaded) (e : Runner) (mode : RunMode)
    (name text : Bytes) (cached : Bool) (w : Surface) :
    (e.proceed mode name text loaded cached w).1.Executed := by
  unfold proceed
  dsimp only
  split
  · exact executed_finished
  · exact executed_perform h ..

/-- On an honest store, a run whose stages could be shown reports an ill-formed text exactly if
reading the source does, and never gets stuck. -/
theorem run_verdict {sources : List Bytes} (hd : Store.Distinct sources) (hs : source ∈ sources)
    {w : Surface} (hw : w.Honest sources) (e : Runner) {mode : Option RunMode} {used : RunMode}
    (hm : RunMode.usable mode = .ok used) (name : Bytes) :
    (∀ report, (e.run mode name source w).1 ≠ .stuck report) ∧
      (¬ (e.run mode name source w).1.Unshown →
        ((e.run mode name source w).1.key? = some (utf8 "E0001") ↔
          ∃ d, Loaded.ofSource source = .error d ∧ d.code = .malformed)) := by
  have hread := ends_read e used source w
  obtain ⟨cached, store, -, ⟨loaded, u, hr, hrun⟩ | ⟨d, u, hr, hrun⟩⟩ :=
    run_cases hd hs hw e hm name
  · have hl := hread.of_ok hr
    have hexecuted := executed_proceed hl e used name source cached (u.backed store w.log)
    rw [hrun]
    refine ⟨hexecuted.1, fun _ => ⟨fun hkey => absurd hkey hexecuted.2, ?_⟩⟩
    rintro ⟨d, hd, -⟩
    rw [hl] at hd
    cases hd
  · rw [hrun]
    refine ⟨fun _ => RunEnd.noConfusion, fun hshown => ?_⟩
    rcases hread.of_error hr with hfault | hrefusal
    · rw [hfault]
      constructor
      · intro hkey
        exact ⟨d, rfl, (Code.key_eq_malformed_iff d.code).1 (Option.some.inj hkey)⟩
      · rintro ⟨d', hd', hcode⟩
        cases hd'
        exact congrArg some ((Code.key_eq_malformed_iff d.code).2 hcode)
    · -- The other way to fail is a write that was refused, which is excluded.
      exact absurd ⟨rfl, hrefusal⟩ hshown

end Runner

/-- A program that parses never gets stuck, whatever parsed programs ran before it and whatever it
may use up. So a run reports an ill-formed text exactly if a dry run of the same source does, on
surfaces with or without a store after any sessions, as long as the runner's writes are taken. -/
theorem parsed_programs_never_get_stuck (source : Bytes) :
    (∀ p, Program.ofSource source = .ok p → ∀ m : Machine, m.Reached →
      ∀ budget fuel, p.RunsOn budget fuel m) ∧
    (∀ a b : Value, (Value.order? a b).isSome ↔ a.type = b.type) ∧
    ∀ (w w' : Surface) (capacity capacity' : Int) (uses uses' : List Use),
      Store.Distinct (source :: Use.sources uses) → Store.Distinct (source :: Use.sources uses') →
      ∀ (e e' : Runner) (name name' : Bytes) (debug debug' time time' : Bool),
        let live := (e.run (some { debug, time }) name source
          (Use.after { w with store := Store.create? capacity } uses)).1
        let dry := (e'.run (some { debug := debug', dryRun := true, time := time' }) name' source
          (Use.after { w' with store := Store.create? capacity' } uses')).1
        (∀ report, live ≠ .stuck report) ∧
          (¬ live.Unshown → ¬ dry.Unshown →
            (live.key? = some (utf8 "E0001") ↔ dry.key? = some (utf8 "E0001"))) := by
  refine ⟨fun p hp m hm budget fuel => Program.runsOn hp hm budget fuel,
    Value.order?_isSome_iff, ?_⟩
  intro w w' capacity capacity' uses uses' hd hd' e e' name name' debug debug' time time' live dry
  have hhonest (v : Surface) (capacity : Int) (uses : List Use)
      (hd : Store.Distinct (source :: Use.sources uses)) :
      (Use.after { v with store := Store.create? capacity } uses).Honest
        (source :: Use.sources uses) :=
    Use.honest_after hd uses (fun s hs => List.mem_cons_of_mem _ hs)
      fun s hs => Store.Honest.create? hs
  have hmem (uses : List Use) : source ∈ source :: Use.sources uses := List.mem_cons_self ..
  have hm : RunMode.usable (some { debug, time }) = .ok { debug, time } := rfl
  have hm' : RunMode.usable (some { debug := debug', dryRun := true, time := time' }) =
      .ok { debug := debug', dryRun := true, time := time' } := rfl
  obtain ⟨hstuck, hlive⟩ := Runner.run_verdict hd (hmem uses) (hhonest w capacity uses hd) e hm name
  obtain ⟨-, hdry⟩ :=
    Runner.run_verdict hd' (hmem uses') (hhonest w' capacity' uses' hd') e' hm' name'
  exact ⟨hstuck, fun hshown hshown' => (hlive hshown).trans (hdry hshown').symm⟩

/-- A call runs on the machine that the program with the function left, and a text that breaks off
is reported by the run in which its tokens are shown as by a dry run. -/
theorem call_runs_and_broken_text_is_reported :
    (∃ p q n, Program.ofSource (utf8 "fn f() -> int \x7b loop \x7b return 1; \x7d \x7d") = .ok p ∧
      Machine.run {} 100 p {} = .ok () n ∧
      Program.ofSource (utf8 "let x = f();") = .ok q ∧ q.RunsOn { depth := 1 } 100 n) ∧
    let live := (Runner.run {} (some { debug := true, time := false }) (utf8 "a") (utf8 "let")
      (Use.after { out := .empty (some 80), store := Store.create? 0 } [])).1
    let dry := (Runner.run {} (some { debug := false, dryRun := true, time := true }) (utf8 "b")
      (utf8 "let") (Use.after { store := Store.create? 0 } [])).1
    ¬ live.Unshown ∧ ¬ dry.Unshown ∧ live.key? = some (utf8 "E0001") ∧
      dry.key? = some (utf8 "E0001") := by
  have hfirst : ((Program.ofSource
      (utf8 "fn f() -> int \x7b loop \x7b return 1; \x7d \x7d")).toOption.map
      fun p => stops (Machine.run {} 100 p {})) = some false := by decide +kernel
  have hsecond : (Program.ofSource (utf8 "let x = f();")).toOption.isSome = true := by
    decide +kernel
  constructor
  · cases hp : Program.ofSource (utf8 "fn f() -> int \x7b loop \x7b return 1; \x7d \x7d") with
    | error d => rw [hp] at hfirst; cases hfirst
    | ok p =>
      rw [hp] at hfirst
      obtain ⟨u, n, hr⟩ := exists_of_not_stops (Option.some.inj hfirst)
      cases hq : Program.ofSource (utf8 "let x = f();") with
      | error d => rw [hq] at hsecond; cases hsecond
      | ok q =>
        have hn : n.Reached := .ended (.new {} (.empty none)) hp hr
        exact ⟨p, q, n, rfl, hr, rfl, (parsed_programs_never_get_stuck _).1 q hq n hn _ _⟩
  · intro live dry
    have hlive : live.key? = some (utf8 "E0001") := by decide +kernel
    have hdry : dry.key? = some (utf8 "E0001") := by decide +kernel
    have hshown {r : RunEnd} (h : r.key? = some (utf8 "E0001")) : ¬ r.Unshown := by
      intro hr
      rw [hr.key?_eq] at h
      exact absurd (Option.some.inj h) (by decide)
    have hd : Store.Distinct (utf8 "let" :: Use.sources []) := by
      intro a ha b hb _
      rw [List.mem_singleton.1 ha, List.mem_singleton.1 hb]
    have hiff := ((parsed_programs_never_get_stuck (utf8 "let")).2.2 { out := .empty (some 80) } {}
      0 0 [] [] hd hd {} {} (utf8 "a") (utf8 "b") true false false true).2 (hshown hlive)
      (hshown hdry)
    exact ⟨hshown hlive, hshown hdry, hiff.2 hdry, hdry⟩

end Scriptlet
