import Scriptlet.Proofs.Lexing.Pointing
import Scriptlet.Proofs.Parallel.Parsing
import Scriptlet.Proofs.Program.Spans

/-!
# Places: parsers point where the scanner did

A parser makes places out of those of tokens: it takes them over, and it joins them. Both lead from
spans between some offsets to spans between the same offsets. To see that without going through the
parser once more, a list of tokens is read beside itself under a correspondence in which a span is
like itself only if it lies between the offsets: like tokens have like programs and like faults.
-/

namespace Scriptlet

namespace Span

open Classical in
/-- The span if it lies between the offsets, and otherwise the other one. -/
noncomputable def keep (offsets : Nat → Prop) (other s : Span) : Span :=
  if s.On offsets then s else other

variable {offsets : Nat → Prop} {other s t : Span}

theorem keep_of_on (h : s.On offsets) : keep offsets other s = s := if_pos h

theorem keep_of_not_on (h : ¬ s.On offsets) : keep offsets other s = other := if_neg h

theorem on_keep (h : other.On offsets) (s : Span) : (keep offsets other s).On offsets := by
  by_cases hs : s.On offsets
  · rw [keep_of_on hs]
    exact hs
  · rw [keep_of_not_on hs]
    exact h

/-- A span that lies between no offsets at all. -/
def backward (k : Nat) : Span := ⟨k + 1, k⟩

theorem not_on_backward (k : Nat) : ¬ (backward k).On offsets := by
  rintro ⟨a, b, h, hab, -, -⟩
  have hstart : ((k : Int) + 1) = a := congrArg Span.start h
  have hstop : (k : Int) = b := congrArg Span.stop h
  omega

/-- With different spans in place of those that are not kept, only those that are kept agree. -/
theorem keep_eq_keep_iff :
    keep offsets (backward 0) s = keep offsets (backward 1) t ↔ s = t ∧ s.On offsets := by
  by_cases hs : s.On offsets
  · rw [keep_of_on hs]
    by_cases ht : t.On offsets
    · rw [keep_of_on ht]
      exact ⟨fun h => ⟨h, hs⟩, And.left⟩
    · rw [keep_of_not_on ht]
      constructor
      · intro h
        exact absurd (h ▸ hs) (not_on_backward 1)
      · rintro ⟨rfl, -⟩
        exact absurd hs ht
  · rw [keep_of_not_on hs]
    refine ⟨fun h => ?_, fun h => absurd h.2 hs⟩
    by_cases ht : t.On offsets
    · rw [keep_of_on ht] at h
      exact absurd (h ▸ ht) (not_on_backward 0)
    · rw [keep_of_not_on ht] at h
      cases h

end Span

/-- Spans correspond to themselves, those that lie between the offsets. -/
noncomputable def Alignment.on (offsets : Nat → Prop) : Alignment where
  left := .keep offsets (.backward 0)
  right := .keep offsets (.backward 1)
  join ha hb := by
    rw [Span.keep_eq_keep_iff] at ha hb ⊢
    obtain ⟨rfl, ha⟩ := ha
    obtain ⟨rfl, hb⟩ := hb
    exact ⟨rfl, ha.join hb⟩

variable {offsets : Nat → Prop}

theorem Alignment.on_self_iff {s : Span} :
    (Alignment.on offsets).left s = (Alignment.on offsets).right s ↔ s.On offsets := by
  rw [show (Alignment.on offsets).left s = Span.keep offsets (.backward 0) s from rfl,
    show (Alignment.on offsets).right s = Span.keep offsets (.backward 1) s from rfl,
    Span.keep_eq_keep_iff]
  exact ⟨And.right, fun h => ⟨rfl, h⟩⟩

theorem Token.On.same {t : Token} (h : t.On offsets) : t.Same (.on offsets) t :=
  ⟨rfl, rfl, Alignment.on_self_iff.2 h.whole⟩

theorem Token.On.alike {t : Token} (h : t.On offsets) (hk : t.kind ≠ .eof) :
    t.Alike (.on offsets) t :=
  ⟨h.same, hk, fun hhalf => Alignment.on_self_iff.2 (h.half hhalf)⟩

namespace Program

/-- Tokens between the offsets have a program whose nodes lie between them, or a fault that
does. -/
theorem on_of_parse {body : List Token} {eof : Token} (hbody : ∀ t ∈ body, t.kind ≠ .eof)
    (heof : eof.kind = .eof) (hon : ∀ t ∈ body ++ [eof], t.On offsets) :
    (∀ p, parse (body ++ [eof]) = .ok p → ∀ n ∈ Stmt.allNodes p, n.2.On offsets) ∧
      ∀ d, parse (body ++ [eof]) = .error d → d.span.On offsets := by
  have halike : List.Forall₂ (Token.Alike (.on offsets)) body body :=
    List.forall₂_same.2 fun t ht => (hon t (List.mem_append_left _ ht)).alike (hbody t ht)
  have hend : eof.Same (.on offsets) eof := (hon eof (by simp)).same
  obtain ⟨hok, herror⟩ := parse_alike halike heof hend
  constructor
  · intro p hp n hn
    obtain ⟨p', hp', hpp'⟩ := hok p hp
    cases hp.symm.trans hp'
    exact Alignment.on_self_iff.1 ((Stmt.allRespan_eq_iff p).1 hpp' n hn)
  · intro d hd
    obtain ⟨d', hd', hdd'⟩ := herror d hd
    cases hd.symm.trans hd'
    exact Alignment.on_self_iff.1 (congrArg Diagnostic.span hdd')

/-- A text has a program whose nodes lie between its characters, or a fault that does. -/
theorem on_boundary_of_ofSource (src : Bytes) :
    (∀ p, ofSource src = .ok p → ∀ n ∈ Stmt.allNodes p, n.2.On src.Boundary) ∧
      ∀ d, ofSource src = .error d → d.span.On src.Boundary := by
  obtain ⟨htokens, hfault⟩ := Token.on_boundary_of_lex src
  cases hlex : Token.lex src with
  | error d =>
    have hsource : ofSource src = .error d := by
      unfold ofSource
      rw [hlex]
      rfl
    rw [hsource]
    exact ⟨nofun, fun _ hd => by cases hd; exact hfault d hlex⟩
  | ok ts =>
    rw [ofSource_of_lex hlex]
    obtain ⟨-, w, -, -, hsound, -, rfl⟩ := Token.exists_of_lex hlex
    refine on_of_parse (fun t ht => ?_) rfl (htokens _ hlex)
    exact (hsound.tokens t (List.mem_reverse.1 ht)).1

end Program
end Scriptlet
