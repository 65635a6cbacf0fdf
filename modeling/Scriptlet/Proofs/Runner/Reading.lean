import Scriptlet.Proofs.Ends
import Scriptlet.Runner

/-!
# Reading: what a store may hold

A store is honest if it holds, under the key of a source, only what reading that source gives. A
program found in an honest store is shown exactly as one that is read afresh, write for write, and
fails at the same write; so loading from an honest store is reading, whatever was kept or dropped
before.
-/

namespace Scriptlet

/-- What reading a source gives: its tokens and its program, or its first fault. -/
def Loaded.ofSource (source : Bytes) : Except Diagnostic Loaded :=
  match Token.lex source with
  | .error d => .error d
  | .ok tokens =>
    match Program.parse tokens with
    | .error d => .error d
    | .ok program => .ok ⟨tokens, program⟩

/-- The output refused what the runner had to write. -/
def Diagnostic.Refusal (d : Diagnostic) : Prop := ∃ reason, d = ⟨.writeFailed reason, .origin⟩

/-! ## What stays in a store -/

namespace Recent

variable {κ α : Type} [BEq κ] [LawfulBEq κ] {r : Recent κ α} {k : κ} {a : α} {b : κ × α}

theorem mem_of_peek? (h : r.peek? k = some a) : (k, a) ∈ r.entries := by
  obtain ⟨l, l', hl, -⟩ := List.lookup_eq_some_iff.1 h
  rw [hl]
  simp

/-- Using an entry adds none. -/
theorem mem_of_mem_get? (h : b ∈ (r.get? k).2.entries) : b ∈ r.entries := by
  unfold get? at h
  split at h
  · exact h
  · rename_i a ha
    rcases List.mem_cons.1 h with rfl | h
    · exact mem_of_peek? ha
    · exact (List.mem_filter.1 h).1

omit [LawfulBEq κ] in
theorem mem_of_mem_add (h : b ∈ (r.add k a).entries) : b = (k, a) ∨ b ∈ r.entries := by
  rcases List.mem_cons.1 (List.mem_of_mem_take h) with rfl | h
  · exact .inl rfl
  · exact .inr (List.mem_filter.1 h).1

end Recent

namespace Store

/-- Everything in the store satisfies `Q`, together with its key. -/
def Holds {α : Type} (Q : Bytes → α → Prop) (s : Store α) : Prop :=
  ∀ b ∈ s.programs.entries, Q b.1 b.2

/-- The store without the program under a key. -/
def drop {α : Type} (k : Bytes) (s : Store α) : Store α :=
  { s with programs := { s.programs with entries := Recent.without k s.programs.entries } }

/-- A look-up that finds nothing leaves the programs as they are. -/
theorem programs_get_of_none {α : Type} {s : Store α} {k : Bytes} (h : (s.get k).1 = none) :
    (s.get k).2.programs = s.programs := by
  unfold Store.get Recent.get? at *
  cases hp : s.programs.peek? k with
  | none => rfl
  | some a => rw [hp] at h; cases h

namespace Holds

variable {α : Type} {Q : Bytes → α → Prop} {s : Store α} {k : Bytes} {a : α}

theorem create? {capacity : Int} (h : Store.create? capacity = some s) : s.Holds Q := by
  unfold Store.create? at h
  split at h
  · cases h
  · cases h
    intro b hb
    cases hb

theorem get (h : s.Holds Q) (k : Bytes) : (s.get k).2.Holds Q := by
  have hentries : (s.get k).2.programs = (s.programs.get? k).2 := by
    unfold Store.get
    split <;> rename_i hget <;> rw [hget]
  intro b hb
  rw [hentries] at hb
  exact h b (Recent.mem_of_mem_get? hb)

theorem purge (_h : s.Holds Q) : s.purge.Holds Q := fun b hb => by cases hb

theorem drop (h : s.Holds Q) (k : Bytes) : (s.drop k).Holds Q :=
  fun b hb => h b (List.mem_filter.1 hb).1

theorem add (h : s.Holds Q) (ha : Q k a) : (s.add k a).Holds Q := by
  intro b hb
  rcases Recent.mem_of_mem_add hb with rfl | hb
  · exact ha
  · exact h b hb

theorem of_get (h : s.Holds Q) (hg : (s.get k).1 = some a) : Q k a := by
  have hpeek : s.programs.peek? k = some a := by
    unfold Store.get Recent.get? at hg
    cases hp : s.programs.peek? k with
    | none => rw [hp] at hg; cases hg
    | some a => rw [hp] at hg; cases hg; rfl
  exact h _ (Recent.mem_of_peek? hpeek)

end Holds

/-- No two of the sources have one key. -/
def Distinct (sources : List Bytes) : Prop :=
  ∀ a ∈ sources, ∀ b ∈ sources, key a = key b → a = b

instance (sources : List Bytes) : Decidable (Distinct sources) :=
  inferInstanceAs (Decidable (∀ a ∈ sources, ∀ b ∈ sources, key a = key b → a = b))

/-- Under the key of any of the sources, the store holds only what reading that source gives. -/
def Honest (sources : List Bytes) (s : Store Loaded) : Prop :=
  ∀ b ∈ s.programs.entries, ∀ source ∈ sources, key source = b.1 →
    Loaded.ofSource source = .ok b.2

namespace Honest

variable {sources : List Bytes} {s : Store Loaded} {source : Bytes} {loaded : Loaded}

theorem iff_holds : s.Honest sources ↔
    s.Holds fun k l => ∀ source ∈ sources, key source = k → Loaded.ofSource source = .ok l := Iff.rfl

theorem create? {capacity : Int} (h : Store.create? capacity = some s) : s.Honest sources :=
  iff_holds.2 (Holds.create? h)

theorem get (h : s.Honest sources) (k : Bytes) : (s.get k).2.Honest sources :=
  iff_holds.2 ((iff_holds.1 h).get k)

/-- What is kept after reading is what reading gives, also for a source that has the same key. -/
theorem add (h : s.Honest sources) (hd : Distinct sources) (hs : source ∈ sources)
    (hl : Loaded.ofSource source = .ok loaded) : (s.add (key source) loaded).Honest sources := by
  apply iff_holds.2
  apply (iff_holds.1 h).add
  intro other hother hkey
  rw [hd other hother source hs hkey]
  exact hl

/-- A program that is found is what reading gives. -/
theorem of_get (h : s.Honest sources) (hs : source ∈ sources)
    (hg : (s.get (key source)).1 = some loaded) : Loaded.ofSource source = .ok loaded :=
  (iff_holds.1 h).of_get hg source hs rfl

end Honest
end Store

/-! ## Actions that leave the store alone -/

namespace Surface

/-- The surface with another store and another log. -/
def backed (w : Surface) (store : Option (Store Loaded)) (log : List LogEntry) : Surface :=
  { w with store, log }

@[simp] theorem backed_out (w : Surface) (store log) : (w.backed store log).out = w.out := rfl

/-- The store, if there is one, is honest. -/
def Honest (sources : List Bytes) (w : Surface) : Prop := ∀ s ∈ w.store, s.Honest sources

end Surface

namespace Runner

variable {α β : Type}

/-- A property of actions that every write has, and every action put together from such that have
it. -/
structure Invariant where
  Holds : ∀ {α : Type}, Action α → Prop
  pure : ∀ {α : Type} (a : α), Holds (pure a)
  bind : ∀ {α β : Type} {x : Action α} {f : α → Action β}, Holds x → (∀ a, Holds (f a)) →
    Holds (x >>= f)
  emit : ∀ text, Holds (emit text)

namespace Invariant

variable (c : Invariant) (e : Runner) (mode : RunMode)

theorem dumpTokens (tokens : List Token) : c.Holds (e.dumpTokens mode tokens) := by
  unfold Runner.dumpTokens
  split
  · exact c.emit _
  · exact c.pure _

theorem dumpProgram (p : Program) : c.Holds (e.dumpProgram mode p) := by
  unfold Runner.dumpProgram
  split
  · exact c.emit _
  · exact c.pure _

theorem trailer : c.Holds (e.trailer mode) := by
  unfold Runner.trailer
  split
  · exact c.bind (c.emit _) fun _ => c.emit _
  · exact c.emit _

/-- Reading has the property if failing has it. -/
theorem read (hthrow : ∀ {α : Type} (d : Diagnostic), c.Holds (throw d : Action α))
    (source : Bytes) : c.Holds (e.read mode source) := by
  have hstage {α : Type} (x : Except Diagnostic α) : c.Holds (stage x) := by
    cases x with
    | ok a => exact c.pure a
    | error d => exact hthrow d
  apply c.bind (hstage _)
  intro tokens
  apply c.bind (c.dumpTokens e mode tokens)
  intro _
  apply c.bind (hstage _)
  intro program
  exact c.bind (c.dumpProgram e mode program) fun _ => c.pure _

end Invariant

/-- The outcome with another store and another log behind it. -/
def backed (store : Option (Store Loaded)) (log : List LogEntry) :
    EStateM.Result Diagnostic Surface α → EStateM.Result Diagnostic Surface α
  | .ok a w => .ok a (w.backed store log)
  | .error d w => .error d (w.backed store log)

/-- The action neither looks at the store and the log nor changes them. -/
def Blind (x : Action α) : Prop :=
  ∀ w store log, x (w.backed store log) = backed store log (x w)

namespace Blind

theorem pure (a : α) : Blind (pure a : Action α) := fun _ _ _ => rfl

theorem throw (d : Diagnostic) : Blind (throw d : Action α) := fun _ _ _ => rfl

theorem bind {x : Action α} {f : α → Action β} (hx : Blind x) (hf : ∀ a, Blind (f a)) :
    Blind (x >>= f) := by
  intro w store log
  have hw := hx w store log
  cases h : x w with
  | ok a v =>
    rw [h] at hw
    rw [bind_eq_of_ok hw, bind_eq_of_ok h]
    exact hf a v store log
  | error d v =>
    rw [h] at hw
    rw [bind_eq_of_error hw, bind_eq_of_error h]
    rfl

/-- However the action ends, the store is the one there was. -/
theorem ends_store {x : Action α} (hx : Blind x) (w : Surface) :
    Ends (x w) (fun _ v => v.store = w.store) (fun _ v => v.store = w.store) := by
  have hw : x w = backed w.store w.log (x w) := hx w w.store w.log
  rw [hw]
  cases x w with
  | ok a v => rfl
  | error d v => rfl

end Blind

/-- Showing a text is one write. -/
theorem emit_eq (text : Bytes) (w : Surface) :
    emit text w = match w.out.write text with
      | (.ok _, out) => .ok () { w with out }
      | (.error reason, out) => .error ⟨.writeFailed reason, .origin⟩ { w with out } := by
  unfold emit
  rw [bind_eq_of_ok (show (get : Action Surface) w = .ok w w from rfl)]
  cases w.out.write text with
  | mk taken out =>
    cases taken with
    | ok u => rfl
    | error reason => rfl

theorem blind_emit (text : Bytes) : Blind (emit text) := by
  intro w store log
  rw [emit_eq, emit_eq, Surface.backed_out]
  split <;> rfl

/-- Whatever a runner shows, it does not look at the store and the log. -/
def blindness : Invariant where
  Holds := Blind
  pure := Blind.pure
  bind := Blind.bind
  emit := blind_emit

theorem blind_read (e : Runner) (mode : RunMode) (source : Bytes) :
    Blind (e.read mode source) := blindness.read e mode (fun d => Blind.throw d) source

/-! ## Reading -/

theorem ends_emit (text : Bytes) (w : Surface) :
    Ends (emit text w) (fun _ _ => True) (fun d _ => d.Refusal) := by
  rw [emit_eq]
  split
  · trivial
  · exact ⟨_, rfl⟩

/-- Showing something fails only if the output refuses it. -/
def refusal : Invariant where
  Holds x := ∀ w, Ends (x w) (fun _ _ => True) (fun d _ => d.Refusal)
  pure _ _ := trivial
  bind hx hf w := Ends.bind_iff.2 ((hx w).mono (fun a v _ => hf a v) (fun _ _ h => h))
  emit := ends_emit

/-- Reading ends with what the source holds, or with its fault, unless the output refuses to show
a stage. -/
theorem ends_read (e : Runner) (mode : RunMode) (source : Bytes) (w : Surface) :
    Ends (e.read mode source w) (fun loaded _ => Loaded.ofSource source = .ok loaded)
      (fun d _ => Loaded.ofSource source = .error d ∨ d.Refusal) := by
  unfold Runner.read
  rw [Ends.bind_iff]
  cases hlex : Token.lex source with
  | error d => exact .inl (by simp only [Loaded.ofSource, hlex])
  | ok tokens =>
    change Ends ((e.dumpTokens mode tokens >>= _) w) _ _
    rw [Ends.bind_iff]
    refine (refusal.dumpTokens e mode tokens w).mono (fun _ v _ => ?_) (fun d _ h => .inr h)
    rw [Ends.bind_iff]
    cases hparse : Program.parse tokens with
    | error d => exact .inl (by simp only [Loaded.ofSource, hlex, hparse])
    | ok program =>
      change Ends ((e.dumpProgram mode program >>= _) v) _ _
      rw [Ends.bind_iff]
      refine (refusal.dumpProgram e mode program v).mono (fun _ _ _ => ?_) (fun d _ h => .inr h)
      change Loaded.ofSource source = .ok ⟨tokens, program⟩
      simp only [Loaded.ofSource, hlex, hparse]

/-- Once a source is known to be a program, reading it does no more than show its stages. -/
theorem read_eq_dumps {source : Bytes} {loaded : Loaded} (h : Loaded.ofSource source = .ok loaded)
    (e : Runner) (mode : RunMode) :
    e.read mode source =
      (do e.dumpTokens mode loaded.tokens; e.dumpProgram mode loaded.program; return loaded) := by
  unfold Loaded.ofSource at h
  unfold Runner.read
  cases hlex : Token.lex source with
  | error d => rw [hlex] at h; cases h
  | ok tokens =>
    rw [hlex] at h
    cases hparse : Program.parse tokens with
    | error d => simp only [hparse] at h; cases h
    | ok program =>
      simp only [hparse] at h
      cases h
      simp only [stage, hparse, pure_bind]

/-- What loading did to the store `before`: what it holds afterwards is honest again, a program
served from it can be read, and a reading that failed added nothing. -/
structure LoadedFrom (sources : List Bytes) (source : Bytes) (before after : Option (Store Loaded))
    (cached failed : Bool) : Prop where
  honest : ∀ s ∈ after, s.Honest sources
  served : cached = true → ∃ loaded, Loaded.ofSource source = .ok loaded
  kept : cached = false → failed = true →
    after.map (fun s => s.programs) = before.map (fun s => s.programs)

/-- Looking a source up touches nothing but the store, and nothing at all if there is none. -/
theorem lookUp_eq (source : Bytes) (w : Surface) :
    lookUp source w = .ok (w.store.bind fun s => (s.get (Store.key source)).1)
      (w.backed (w.store.map fun s => (s.get (Store.key source)).2) w.log) := by
  unfold lookUp
  refine (bind_eq_of_ok (x := (get : Action Surface)) (s := w) (a := w) (t := w) rfl).trans ?_
  cases h : w.store with
  | none =>
    change EStateM.Result.ok none w = .ok none (w.backed none w.log)
    rw [← h]
    rfl
  | some s => rfl

/-- Loading with an honest store is reading, but for the store. -/
theorem load_eq_read (e : Runner) (mode : RunMode) {sources : List Bytes}
    (hd : Store.Distinct sources) {source : Bytes} (hs : source ∈ sources) {w : Surface}
    (hw : w.Honest sources) :
    ∃ cached store, e.load mode source w = (cached, backed store w.log (e.read mode source w)) ∧
      LoadedFrom sources source w.store store cached (stops (e.read mode source w)) := by
  have hread := ends_read e mode source w
  -- The store after the look-up, in which no program is new.
  let looked := w.store.map fun s => (s.get (Store.key source)).2
  have hlooked : ∀ s ∈ looked, s.Honest sources := by
    intro s hmem
    obtain ⟨t, ht, rfl⟩ := Option.map_eq_some_iff.1 hmem
    exact (hw t ht).get _
  have hblind := blind_read e mode source w looked w.log
  unfold load
  rw [lookUp_eq]
  cases hfound : w.store.bind fun s => (s.get (Store.key source)).1 with
  | some loaded =>
    obtain ⟨s, hstore, hget⟩ := Option.bind_eq_some_iff.1 hfound
    have hl := (hw s hstore).of_get hs hget
    refine ⟨true, looked, ?_, hlooked, fun _ => ⟨loaded, hl⟩, fun h => by cases h⟩
    rw [← hblind, read_eq_dumps hl]
  | none =>
    cases hr : e.read mode source w with
    | error d v =>
      rw [hr] at hblind
      refine ⟨false, looked, ?_, hlooked, fun h => (by cases h), fun _ _ => ?_⟩
      · exact congrArg (Prod.mk false) (bind_eq_of_error hblind)
      · rw [Option.map_map]
        refine Option.map_congr fun t ht => Store.programs_get_of_none ?_
        rw [ht] at hfound
        exact hfound
    | ok loaded v =>
      rw [hr] at hblind hread
      refine ⟨false, looked.map (·.add (Store.key source) loaded), ?_, fun s hmem => ?_,
        fun h => (by cases h), fun _ h => (by cases h)⟩
      · exact congrArg (Prod.mk false) (bind_eq_of_ok hblind)
      · obtain ⟨t, ht, rfl⟩ := Option.map_eq_some_iff.1 hmem
        exact (hlooked t ht).add hd hs hread

end Runner
end Scriptlet
