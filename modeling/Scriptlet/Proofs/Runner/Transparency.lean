import Scriptlet.Proofs.Runner.Session

/-!
# Transparency: a store changes nothing that a run shows

Whatever is run, in whatever order, and whatever the store is asked for or drops in between, each
run shows with a store what it shows without one: the same writes up to the same failure, the same
error and the same report but for whether the program came from the store.
-/

namespace Scriptlet

/-- A session on a new store shows, run by run, what it shows without a store. At each point of it
the store holds only what reading gives; so only sources that can be read are served, and a run that
read its source itself and failed before executing it stored nothing. -/
theorem showings_eq_showings_without_store (uses : List Use)
    (hd : Store.Distinct (Use.sources uses)) (w : Surface) (capacity : Int) :
    let stored : Surface := { w with store := Store.create? capacity }
    Use.showings stored uses = Use.showings { w with store := none } uses ∧
      ∀ before rest, uses = before ++ rest →
        let now := Use.after stored before
        now.Honest (Use.sources uses) ∧
          ∀ e mode name source, Use.run e mode name source ∈ rest.head? →
            let r := e.run mode name source now
            (∀ report, r.1.report? = some report → report.cached = true →
              ∃ loaded, Loaded.ofSource source = .ok loaded) ∧
            (∀ report d, r.1 = .failed report d → report.cached = false →
              report.executed = false →
              r.2.store.map (fun s => s.programs) = now.store.map (fun s => s.programs)) := by
  intro stored
  have hnew : stored.Honest (Use.sources uses) := fun s hs => Store.Honest.create? hs
  have hnone : Surface.Honest (Use.sources uses) { w with store := none } := fun s hs => by cases hs
  refine ⟨?_, fun before rest huses => ?_⟩
  · exact Use.showings_alike hd uses (fun _ h => h) hnone hnew ⟨rfl, rfl, rfl⟩
  intro now
  have hmem : ∀ source, source ∈ Use.sources before ∨ source ∈ Use.sources rest →
      source ∈ Use.sources uses := by
    intro source h
    rw [huses, Use.sources_append]
    exact List.mem_append.2 h
  have hnow : now.Honest (Use.sources uses) :=
    Use.honest_after hd before (fun source h => hmem source (.inl h)) hnew
  refine ⟨hnow, fun e mode name source hrun => ?_⟩
  have hs : source ∈ Use.sources uses := by
    cases rest with
    | nil => cases hrun
    | cons u rest =>
      cases hrun
      exact hmem source (.inr (List.mem_cons_self ..))
  exact ⟨fun _ => Runner.run_served hd hs hnow e mode name,
    fun _ _ => Runner.run_kept hd hs hnow e mode name⟩

/-- A program and a text that is none take turns on a store for one program, while the output takes
no more than forty bytes. -/
theorem showings_taking_turns :
    let program := utf8 "let v: vec<int>= [1]; println(v);"
    let broken := utf8 "let v = ;"
    let uses : List Use :=
      [.run {} (some { debug := true }) (utf8 "a") program, .run {} (some {}) (utf8 "b") broken,
        .run {} (some {}) (utf8 "c") program, .get (Store.key broken),
        .run {} (some { time := true }) (utf8 "d") program, .purge, .stats,
        .run {} (some { dryRun := true }) (utf8 "e") program]
    let w : Surface := { out := .empty (some 40) }
    Store.Distinct (Use.sources uses) ∧
      Use.showings { w with store := Store.create? 1 } uses = Use.showings w uses := by
  intro program broken uses w
  have hd : Store.Distinct (Use.sources uses) := by decide +kernel
  exact ⟨hd, (showings_eq_showings_without_store uses hd w 1).1⟩

end Scriptlet
