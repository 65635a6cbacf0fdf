import Scriptlet.Proofs.Lexing.Spacing
import Scriptlet.Proofs.Machine.Naturality
import Scriptlet.Proofs.Parallel.Parsing

/-!
# Insignificance: layout means nothing

Layout changes the places of tokens and nothing else, the parser only carries places along, and so
does a run. With all places erased, the spaced text is the same program as the text.
-/

namespace Scriptlet

/-- Forgets a place. -/
def Span.erase : Span → Span := fun _ => .origin

/-- All places correspond. -/
def Alignment.erasing : Alignment := ⟨Span.erase, Span.erase, fun _ _ => rfl⟩

/-- Moving keeps what a diagnostic shows, but for its place. -/
theorem Diagnostic.notice_respan (f : Span → Span) (d : Diagnostic) :
    (d.respan f).notice = { d.notice with span := f d.span } := by
  unfold notice code respan
  rw [Fault.message_respan, Fault.note_respan, Fault.code_respan]
  rfl

/-- Where nothing but the place differs, the same is shown. -/
theorem Diagnostic.notice_of_erased {d d' : Diagnostic}
    (h : d.respan Span.erase = d'.respan Span.erase) :
    d'.notice = { d.notice with span := d'.span } := by
  have hshown : { d.notice with span := Span.origin } = { d'.notice with span := Span.origin } := by
    have hnotice := congrArg notice h
    rw [notice_respan, notice_respan] at hnotice
    exact hnotice
  exact (congrArg (fun n : Notice => { n with span := d'.span }) hshown).symm

/-- Programs that differ in places only run the same but for places. -/
theorem Machine.run_of_bare_eq {p p' : Program} (h : Stmt.allBare p' = Stmt.allBare p) {b : Budget}
    (hb : b.Blind) (n : Nat) (m : Machine) :
    movedBy Span.erase (run b n p' m) = movedBy Span.erase (run b n p m) := by
  rw [Stmt.allBare_eq_allRespan, Stmt.allBare_eq_allRespan] at h
  have herase : Span.erase .origin = .origin := rfl
  rw [← run_respan hb herase, ← run_respan hb herase]
  unfold Span.erase
  rw [h]

namespace Token

open Lexer

variable {t t' : Token} {ts ts' : List Token}

theorem Moved.kind {ρ : Nat → Nat → Prop} (h : t.Moved ρ t') : t'.kind = t.kind := by
  cases h; rfl

theorem Moved.literal {ρ : Nat → Nat → Prop} (h : t.Moved ρ t') : t'.literal = t.literal := by
  cases h; rfl

theorem Moved.same {ρ : Nat → Nat → Prop} (h : t.Moved ρ t') : t.Same .erasing t' :=
  ⟨h.kind, h.literal, rfl⟩

theorem Moved.alike {ρ : Nat → Nat → Prop} (h : t.Moved ρ t') (hk : t.kind ≠ .eof) :
    t.Alike .erasing t' :=
  ⟨h.same, hk, fun _ => rfl⟩

theorem Moved.map_eq {ρ : Nat → Nat → Prop} (h : List.Forall₂ (Moved ρ) ts ts') :
    ts'.map (fun t => (t.kind, t.literal)) = ts.map fun t => (t.kind, t.literal) := by
  induction h with
  | nil => rfl
  | cons ht _ ih => rw [List.map_cons, List.map_cons, ih, ht.kind, ht.literal]

/-- Moved tokens are parsed the same but for places. -/
theorem parse_moved {ρ : Nat → Nat → Prop} {src : Bytes} (h : lex src = .ok ts)
    (hmoved : List.Forall₂ (Moved ρ) ts ts') :
    (∃ p p', Program.parse ts = .ok p ∧ Program.parse ts' = .ok p' ∧
      Stmt.allBare p' = Stmt.allBare p) ∨
    ∃ d d', Program.parse ts = .error d ∧ Program.parse ts' = .error d' ∧
      d.respan Span.erase = d'.respan Span.erase := by
  obtain ⟨-, w, -, -, hsound, -, rfl⟩ := exists_of_lex h
  -- What is like the end stands last, so it can be split off on the right as on the left.
  have hlast : ∃ found eof', ts' = found.reverse ++ [eof'] ∧ List.Forall₂ (Moved ρ) w.rev found ∧
      Moved ρ ⟨.eof, [], .between w.pos w.pos⟩ eof' := by
    have hrev := List.forall₂_reverse_iff.2 hmoved
    rw [List.reverse_append, List.reverse_reverse] at hrev
    cases hts' : ts'.reverse with
    | nil => rw [hts'] at hrev; cases hrev
    | cons eof' found =>
      rw [hts'] at hrev
      cases hrev with
      | cons heof hfound =>
        refine ⟨found, eof', ?_, hfound, heof⟩
        rw [← List.reverse_cons, ← hts', List.reverse_reverse]
  obtain ⟨found, eof', rfl, hfound, heof⟩ := hlast
  have halike : List.Forall₂ (Token.Alike .erasing) w.rev found :=
    (List.forall₂_and_left _ _).2 ⟨fun t ht => (hsound.tokens t ht).1, hfound⟩ |>.imp
      fun _ _ ht => ht.2.alike ht.1
  have hparse := Program.parse_alike (List.forall₂_reverse_iff.2 halike) rfl heof.same
  cases hp : Program.parse (w.rev.reverse ++ [⟨.eof, [], .between w.pos w.pos⟩]) with
  | ok p =>
    obtain ⟨p', hp', hpp'⟩ := hparse.1 p hp
    refine .inl ⟨p, p', rfl, hp', ?_⟩
    rw [Stmt.allBare_eq_allRespan, Stmt.allBare_eq_allRespan]
    exact hpp'.symm
  | error d =>
    obtain ⟨d', hd', hdd'⟩ := hparse.2 d hp
    exact .inr ⟨d, d', rfl, hd', hdd'⟩

end Token

/-- Layout is insignificant. Put in where tokens of a text begin or end, it leaves the kinds and
literals of the tokens. Either both texts are programs, which are equal up to places and whose runs
under the same budget are equal up to places, or neither is and the same is said about both. -/
theorem layout_is_insignificant {src : Bytes} {ts : List Token} (h : Token.lex src = .ok ts)
    {pad : Nat → Bytes} (hlayout : ∀ i, Layout (pad i))
    (hpad : ∀ i, pad i ≠ [] → ∃ t ∈ ts, t.Touches i) :
    (∃ ts', Token.lex (Bytes.spaced pad 0 src) = .ok ts' ∧
      ts'.map (fun t => (t.kind, t.literal)) = ts.map fun t => (t.kind, t.literal)) ∧
    ((∃ p p', Program.ofSource src = .ok p ∧ Program.ofSource (Bytes.spaced pad 0 src) = .ok p' ∧
        Stmt.allBare p' = Stmt.allBare p ∧
        ∀ b : Budget, b.Blind → ∀ n m, movedBy Span.erase (Machine.run b n p' m) =
          movedBy Span.erase (Machine.run b n p m)) ∨
      ∃ d d', Program.ofSource src = .error d ∧
        Program.ofSource (Bytes.spaced pad 0 src) = .error d' ∧
        d'.notice = { d.notice with span := d'.span }) := by
  obtain ⟨ts', hlex, hmoved⟩ := Token.lex_spaced hlayout hpad h
  refine ⟨⟨ts', hlex, Token.Moved.map_eq hmoved⟩, ?_⟩
  rw [Program.ofSource_of_lex h, Program.ofSource_of_lex hlex]
  rcases Token.parse_moved h hmoved with ⟨p, p', hp, hp', hbare⟩ | ⟨d, d', hd, hd', herased⟩
  · exact .inl ⟨p, p', hp, hp', hbare, fun b hb n m => Machine.run_of_bare_eq hbare hb n m⟩
  · exact .inr ⟨d, d', hd, hd', Diagnostic.notice_of_erased herased⟩

/-- A wide blank in front of a sign, a comment behind it, and one at the end of the text. -/
theorem spaced_power_is_the_power :
    let src := utf8 "print(2**3);"
    let pad : Nat → Bytes
      | 7 => encodeChar (Char.ofNat 0x2003) ++ []
      | 9 => 35 :: (utf8 "*" ++ 10 :: [])
      | 12 => encodeChar ' ' ++ 35 :: (utf8 " end" ++ 10 :: [])
      | _ => []
    (∀ i, Layout (pad i)) ∧
      Bytes.spaced pad 0 src = utf8 "print(2" ++ [0xE2, 0x80, 0x83] ++ utf8 "**#*\n3); # end\n" ∧
      ∃ ts p p', Token.lex src = .ok ts ∧ (∀ i, pad i ≠ [] → ∃ t ∈ ts, t.Touches i) ∧
        Program.ofSource src = .ok p ∧ Program.ofSource (Bytes.spaced pad 0 src) = .ok p' ∧
        Stmt.allBare p' = Stmt.allBare p ∧
        (stateOf (Machine.run {} 9 p' {})).output.text = utf8 "8" := by
  intro src pad
  have hlayout : ∀ i, Layout (pad i) := by
    intro i
    unfold pad
    split
    · exact .blank (by decide) .nil
    · exact .comment (by decide +kernel) .nil
    · exact .blank (by decide) (.comment (by decide +kernel) .nil)
    · exact .nil
  have hlex : ((Token.lex src).toOption.map fun ts =>
      decide (∀ i ∈ ([7, 9, 12] : List Nat), ∃ t ∈ ts, t.Touches i)) = some true := by
    decide +kernel
  have hrun : ((Program.ofSource src).toOption.map fun p =>
      (stateOf (Machine.run {} 9 p {})).output.text) = some (utf8 "8") := by decide +kernel
  cases hts : Token.lex src with
  | error d => rw [hts] at hlex; cases hlex
  | ok ts =>
    rw [hts] at hlex
    have htouches : ∀ i ∈ [7, 9, 12], ∃ t ∈ ts, t.Touches i :=
      of_decide_eq_true (Option.some.inj hlex)
    have hpad : ∀ i, pad i ≠ [] → ∃ t ∈ ts, t.Touches i := by
      intro i hne
      apply htouches
      by_contra hmem
      simp only [List.mem_cons, List.not_mem_nil, or_false, not_or] at hmem
      unfold pad at hne
      split at hne
      · exact hmem.1 rfl
      · exact hmem.2.1 rfl
      · exact hmem.2.2 rfl
      · exact hne rfl
    rcases (layout_is_insignificant hts hlayout hpad).2 with
      ⟨p, p', hp, hp', hbare, hruns⟩ | ⟨d, d', hd, -⟩
    · refine ⟨hlayout, by decide +kernel, ts, p, p', rfl, hpad, hp, hp', hbare, ?_⟩
      have hsame := congrArg stateOf (hruns {} (fun _ _ => rfl) 9 {})
      rw [stateOf_movedBy, stateOf_movedBy] at hsame
      have htext := congrArg (fun m : Machine => m.output.text) hsame
      rw [hp] at hrun
      exact htext.trans (Option.some.inj hrun)
    · rw [hd] at hrun
      cases hrun

end Scriptlet
