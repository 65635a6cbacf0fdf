import Scriptlet.Proofs.Lexing.Layout
import Scriptlet.Proofs.Machine.Lifetime
import Scriptlet.Proofs.Machine.Sequence
import Scriptlet.Proofs.Parallel.Parsing

/-!
# Concatenation: texts on consecutive lines

Two programs, one on the lines behind the other's, are one program: its statements are those of the
first and then those of the second, at places further on. Running it is running the two in turn on
one machine.
-/

namespace Scriptlet

/-! ## Places in the longer text -/

namespace Span

/-- The place `k` bytes further on. -/
def shift (k : Nat) (s : Span) : Span := ⟨s.start + k, s.stop + k⟩

/-- A place that begins `k` bytes into a text, seen from there; places before are left. -/
def back (k : Nat) (s : Span) : Span :=
  if (k : Int) ≤ s.start then ⟨s.start - k, s.stop - k⟩ else s

/-- The place with its beginning moved into a text of `k` bytes. -/
def clamp (k : Nat) (s : Span) : Span := ⟨max 0 (min s.start k), s.stop⟩

theorem shift_join (k : Nat) (a b : Span) : (a.join b).shift k = (a.shift k).join (b.shift k) := by
  unfold shift join
  dsimp only
  congr 1
  · split <;> split <;> omega
  · split <;> split <;> omega

theorem clamp_of_inside {k : Nat} {s : Span} (hlow : 0 ≤ s.start) (hhigh : s.start ≤ k) :
    s.clamp k = s := by
  unfold clamp
  rw [Int.min_eq_left hhigh, Int.max_eq_right hlow]

theorem clamp_inside (k : Nat) (s : Span) : 0 ≤ (s.clamp k).start ∧ (s.clamp k).start ≤ k := by
  unfold clamp
  dsimp only
  omega

theorem clamp_join (k : Nat) (a b : Span) : (a.join b).clamp k = (a.clamp k).join (b.clamp k) := by
  unfold clamp join
  dsimp only
  congr 1
  split <;> split <;> omega

end Span

/-- Places on the right are places on the left, `k` bytes further on. -/
def Alignment.shifting (k : Nat) : Alignment :=
  ⟨Span.shift k, id, fun {a b _ _} ha hb => (Span.shift_join k a b).trans (by rw [ha, hb]; rfl)⟩

/-- Places begin in a text of `k` bytes. -/
def Alignment.clamping (k : Nat) : Alignment :=
  ⟨Span.clamp k, id, fun {a b _ _} ha hb => (Span.clamp_join k a b).trans (by rw [ha, hb]; rfl)⟩

namespace Token

open Lexer

/-- A token inside a text begins in it, also when it is cut in two. -/
theorem alike_clamping {t : Token} {k a b : Nat} (hk : t.kind ≠ .eof)
    (hspan : t.span = .between a b) (hab : a < b) (hb : b ≤ k) : t.Alike (.clamping k) t := by
  have hinside {i j : Nat} (hi : i ≤ k) : (Span.between i j).clamp k = .between i j :=
    Span.clamp_of_inside (Int.natCast_nonneg i) (Int.ofNat_le.2 hi)
  refine ⟨⟨rfl, rfl, hspan ▸ hinside (by omega)⟩, hk, fun _ => ?_⟩
  rw [hspan, Span.tail_between hab]
  exact hinside (by omega)

end Token

namespace Program

/-- The places of a program that was read begin inside its text. -/
theorem allRespan_clamp {src : Bytes} {p : Program} (h : ofSource src = .ok p) :
    Stmt.allRespan (Span.clamp src.length) p = p := by
  obtain ⟨ts, hlex, hparse⟩ := exists_of_ofSource h
  obtain ⟨-, w, -, -, hsound, hpos, rfl⟩ := Token.exists_of_lex hlex
  have hbody : List.Forall₂ (Token.Alike (.clamping src.length)) w.rev w.rev := by
    rw [List.forall₂_same]
    intro t ht
    obtain ⟨hk, a, b, hspan, hab, hb, -⟩ := hsound.tokens t ht
    exact Token.alike_clamping hk hspan hab (hpos ▸ hb)
  have heof : (⟨.eof, [], .between w.pos w.pos⟩ : Token).Same (.clamping src.length)
      ⟨.eof, [], .between w.pos w.pos⟩ :=
    ⟨rfl, rfl, Span.clamp_of_inside (Int.natCast_nonneg w.pos) (hpos ▸ Int.le_refl _)⟩
  obtain ⟨p', hp', hpp'⟩ :=
    (parse_alike (List.forall₂_reverse_iff.2 hbody) rfl heof).1 p hparse
  cases hparse.symm.trans hp'
  exact hpp'.trans (Stmt.allRespan_id p)

/-- Moving only places outside the text leaves a program. -/
theorem allRespan_of_fixed {src : Bytes} {p : Program} (h : ofSource src = .ok p) {f : Span → Span}
    (hf : ∀ s : Span, 0 ≤ s.start → s.start ≤ src.length → f s = s) : Stmt.allRespan f p = p := by
  have hclamp : f ∘ Span.clamp src.length = Span.clamp src.length := by
    funext s
    obtain ⟨hlow, hhigh⟩ := Span.clamp_inside src.length s
    exact hf (s.clamp src.length) hlow hhigh
  calc Stmt.allRespan f p = Stmt.allRespan f (Stmt.allRespan (Span.clamp src.length) p) := by
        rw [allRespan_clamp h]
    _ = Stmt.allRespan (f ∘ Span.clamp src.length) p := Stmt.allRespan_allRespan ..
    _ = p := by rw [hclamp, allRespan_clamp h]

end Program

/-! ## One text behind another -/

namespace Token

open Lexer

/-- A token `k` bytes further on is like the token, also when it is cut in two. -/
theorem alike_shifting {t t' : Token} {k : Nat} (h : t.Moved (fun i i' => i' = i + k) t')
    (hk : t.kind ≠ .eof) (hspan : t.span.start < t.span.stop) : t.Alike (.shifting k) t' := by
  cases h with
  | @mk a a' b b' kind literal ha hb =>
    subst ha hb
    have hab : a < b := Int.ofNat_lt.1 hspan
    refine ⟨⟨rfl, rfl, rfl⟩, hk, fun _ => ?_⟩
    change (Span.between a b).tail.shift k = (Span.between (a + k) (b + k)).tail
    rw [Span.tail_between hab, Span.tail_between (Nat.add_lt_add_right hab k)]
    change (⟨((a + 1 : Nat) : Int) + k, b + k⟩ : Span) = ⟨((a + k + 1 : Nat) : Int), (b + k : Nat)⟩
    congr 1
    omega

/-- The tokens of a text and of one on the lines behind it. -/
theorem lex_append {a b : Bytes} {u w u' w' : State}
    (hu : (glyphs a).foldlM step .initial = .ok u) (hw : close u = .ok w)
    (hu' : (glyphs b).foldlM step .initial = .ok u') (hw' : close u' = .ok w') :
    ∃ found eof, lex (a ++ 10 :: b) = .ok (w.rev.reverse ++ found.reverse ++ [eof]) ∧
      eof.kind = .eof ∧
      List.Forall₂ (Moved fun i i' => i' = i + (u.pos + 1)) w'.rev found := by
  have hmove : ∀ {i i' : Nat} (n : Nat), i' = i + (u.pos + 1) → i' + n = i + n + (u.pos + 1) := by
    intro i i' n h
    omega
  have hbegin : State.initial.Alike (fun i i' => i' = i + (u.pos + 1)) w.rev
      ⟨.gap, u.pos + 1, w.rev⟩ :=
    ⟨.gap, (Nat.zero_add _).symm, [], rfl, .nil⟩
  obtain ⟨v, hv, halike⟩ := hbegin.foldlM hmove hu'
  obtain ⟨x, hx, -, -, found, hrev, hfound⟩ := halike.close hw'
  refine ⟨found, ⟨.eof, [], .between x.pos x.pos⟩, ?_, rfl, hfound⟩
  have hread : (glyphs (a ++ 10 :: b)).foldlM step .initial = .ok v := by
    rw [glyphs_append_newline, foldlM_append_of_ok hu, foldlM_cons_of_ok (step_newline hw)]
    exact hv
  unfold lex
  rw [lexFrom_of_close hread hx, hrev, List.reverse_append]

end Token

/-- Two programs, one on the lines behind the other's, are one program. -/
theorem Program.ofSource_append {a b : Bytes} {p q : Program} (hp : ofSource a = .ok p)
    (hq : ofSource b = .ok q) :
    ofSource (a ++ 10 :: b) = .ok (p ++ Stmt.allRespan (Span.shift (a.length + 1)) q) := by
  obtain ⟨ts, hlex, hparse⟩ := exists_of_ofSource hp
  obtain ⟨us, hlex', hparse'⟩ := exists_of_ofSource hq
  obtain ⟨u, w, hu, hw, hsound, hpos, rfl⟩ := Token.exists_of_lex hlex
  obtain ⟨u', w', hu', hw', hsound', -, rfl⟩ := Token.exists_of_lex hlex'
  obtain ⟨found, eof, hwhole, heof, hfound⟩ := Token.lex_append hu hw hu' hw'
  -- The second text begins one byte behind the first, after the line end.
  have hlength : u.pos = a.length := by rw [← (Lexer.close_cases hw).2.1, hpos]
  rw [hlength] at hfound
  -- What a token begins with and what is left behind it are moved alike, since it holds a byte.
  have hinside : ∀ t ∈ w'.rev, t.kind ≠ .eof ∧ t.span.start < t.span.stop := by
    intro t ht
    obtain ⟨hk, i, j, hspan, hij, -⟩ := hsound'.tokens t ht
    exact ⟨hk, hspan ▸ Int.ofNat_lt.2 hij⟩
  have halike : List.Forall₂ (Token.Alike (.shifting (a.length + 1))) w'.rev found :=
    (List.forall₂_and_left _ _).2 ⟨hinside, hfound⟩ |>.imp
      fun _ _ ht => Token.alike_shifting ht.2 ht.1.1 ht.1.2
  have hfront : ∀ t ∈ w.rev.reverse, t.kind ≠ .eof := fun t ht =>
    (hsound.tokens t (List.mem_reverse.1 ht)).1
  obtain ⟨q', hq', hqq'⟩ := parse_append hfront rfl (List.forall₂_reverse_iff.2 halike) rfl heof
    hparse hparse'
  have hshift : Stmt.allRespan (Span.shift (a.length + 1)) q = q' :=
    hqq'.trans (Stmt.allRespan_id q')
  rw [hshift, ofSource_of_lex hwhole]
  exact hq'

/-! ## Running the two -/

/-- Seen from where the second text begins, the places of both programs are their own. -/
theorem Program.allRespan_back {a b : Bytes} {p q : Program} (hp : ofSource a = .ok p)
    (hq : ofSource b = .ok q) :
    Stmt.allRespan (Span.back (a.length + 1))
      (p ++ Stmt.allRespan (Span.shift (a.length + 1)) q) = p ++ q := by
  rw [Stmt.allRespan_append, Stmt.allRespan_allRespan]
  congr 1
  · refine allRespan_of_fixed hp fun s hlow hhigh => ?_
    unfold Span.back
    rw [if_neg (by omega)]
  · refine allRespan_of_fixed hq fun s hlow hhigh => ?_
    have hle : ((a.length + 1 : Nat) : Int) ≤ s.start + (a.length + 1 : Nat) := by omega
    unfold Function.comp Span.back Span.shift
    rw [if_pos hle]
    dsimp only
    rw [Int.add_sub_cancel, Int.add_sub_cancel]

/-- Sessions compose. A program on the lines behind another's is read as the statements of both,
the second at places further on. On a new machine without cancellation, where the first ends
without an error, running the second on the machine that the first leaves ends as running both as
one program does, in every respect but for the shift of places. -/
theorem sessions_compose {a b : Bytes} {p q : Program} (hp : Program.ofSource a = .ok p)
    (hq : Program.ofSource b = .ok q) :
    let both := p ++ Stmt.allRespan (Span.shift (a.length + 1)) q
    Program.ofSource (a ++ utf8 "\n" ++ b) = .ok both ∧
    ∀ (steps : Int64) (depth : Nat) (input : Input) (output : Sink) (m : Machine),
      Machine.EndsIn { steps, depth } p { input, output } (.ok () m) →
      ∀ r, Machine.EndsIn { steps, depth } q m r ↔
        ∃ r', Machine.EndsIn { steps, depth } both { input, output } r' ∧
          r = movedBy (Span.back (a.length + 1)) r' := by
  intro both
  have hnewline : a ++ utf8 "\n" ++ b = a ++ 10 :: b := by
    rw [List.append_assoc]
    rfl
  refine ⟨hnewline ▸ Program.ofSource_append hp hq, fun steps depth input output m hm r => ?_⟩
  have htop : ∀ n flow l, Exec.block { steps, depth } n p { input, output } = .ok flow l →
      flow = .next :=
    fun n => (Program.runsOn hp (.new input output) _ n).top
  have horigin : Span.back (a.length + 1) .origin = .origin := by
    unfold Span.back Span.origin
    rw [if_neg (by dsimp only; omega)]
  -- Both programs as one are compared with the two in a row, seen from the second text.
  have hmoved := Machine.endsIn_respan_iff (b := { steps, depth }) (fun _ _ => rfl) horigin both
    { input, output } r
  rw [Program.allRespan_back hp hq] at hmoved
  exact (Machine.endsIn_append_iff (fun _ => rfl) htop hm r).symm.trans hmoved

/-- A function divides by zero when it is called from the line behind it, and it does so in the one
program as well. A comment without a line end is no obstacle. -/
theorem call_from_the_next_line :
    let a := utf8 "fn f(n: int) -> int \x7b return 6 / n; \x7d # six"
    let b := utf8 "print(f(2)); print(f(0));"
    let budget : Budget := { steps := 0, depth := 1 }
    ∃ p q both m r r', Program.ofSource a = .ok p ∧ Program.ofSource b = .ok q ∧
      Program.ofSource (a ++ utf8 "\n" ++ b) = .ok both ∧
      Machine.EndsIn budget p {} (.ok () m) ∧ Machine.EndsIn budget q m r ∧
      Machine.EndsIn budget both {} r' ∧ r = movedBy (Span.back (a.length + 1)) r' ∧
      stops r = true ∧ (stateOf r).output.text = utf8 "3" := by
  intro a b budget
  -- Both texts are read, the first run completes, and the second halts after a write.
  have hruns : (do
      let p ← (Program.ofSource a).toOption
      let q ← (Program.ofSource b).toOption
      let first := Machine.run budget 9 p {}
      let second := Machine.run budget 20 q (stateOf first)
      return (stops first, finished second, stops second, (stateOf second).output.text)) =
      some (false, true, true, utf8 "3") := by decide +kernel
  cases hp : Program.ofSource a with
  | error d => rw [hp] at hruns; cases hruns
  | ok p =>
    cases hq : Program.ofSource b with
    | error d => rw [hp, hq] at hruns; cases hruns
    | ok q =>
      rw [hp, hq] at hruns
      have hparts := Option.some.inj hruns
      simp only [Prod.mk.injEq] at hparts
      obtain ⟨hfirst, hfinished, hstops, htext⟩ := hparts
      obtain ⟨u, m, hm⟩ := exists_of_not_stops hfirst
      rw [hm] at hfinished hstops htext
      have hends : Machine.EndsIn budget p {} (.ok () m) := by
        rw [← hm]
        exact Machine.endsIn_run (by rw [hm]; rfl)
      obtain ⟨hboth, hcompose⟩ := sessions_compose hp hq
      obtain ⟨r', hr', hr⟩ := (hcompose 0 1 {} (.empty none) m hends _).1
        (Machine.endsIn_run hfinished)
      exact ⟨p, q, _, m, _, r', rfl, rfl, hboth, hends, Machine.endsIn_run hfinished, hr', hr,
        hstops, htext⟩

end Scriptlet
