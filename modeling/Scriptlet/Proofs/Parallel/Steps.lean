import Mathlib.Data.List.Forall2
import Scriptlet.Proofs.Grammar.Completeness.Statement
import Scriptlet.Proofs.Program.Respan

/-!
# Steps: two readings side by side

Two lists of tokens are alike if they differ only in places, and the places correspond. Reading
them goes the same way and gives the same up to places. The second list may also go on after the
first has ended, with tokens that begin another statement: whatever is read from the first without
a fault is then read from the second, and the tokens behind it are left alone.

What corresponds is given by two ways of moving places: a place on the left and a place on the
right correspond if they are moved to the same one.
-/

namespace Scriptlet

open Grammar

/-- Two ways of moving places, under which covers of corresponding places correspond. -/
structure Alignment where
  left : Span → Span
  right : Span → Span
  join : ∀ {a b a' b' : Span}, left a = right a' → left b = right b' →
    left (a.join b) = right (a'.join b')

/-- The tokens say the same at corresponding places. -/
structure Token.Same (v : Alignment) (t t' : Token) : Prop where
  kind : t'.kind = t.kind
  literal : t'.literal = t.literal
  span : v.left t.span = v.right t'.span

/-- The tokens say the same and do not stand for the end. A `>=` may be cut in two, and then its
second half stands at corresponding places as well. -/
structure Token.Alike (v : Alignment) (t t' : Token) : Prop extends Token.Same v t t' where
  inside : t.kind ≠ .eof
  half : t.kind = .gtEq → v.left t.span.tail = v.right t'.span.tail

/-- The expressions are the same up to corresponding places. -/
def Expr.Alike (v : Alignment) (e e' : Expr) : Prop := e.respan v.left = e'.respan v.right

/-- The expressions are the same, one by one, up to corresponding places. -/
def Expr.AllAlike (v : Alignment) (es es' : List Expr) : Prop :=
  Expr.allRespan v.left es = Expr.allRespan v.right es'

theorem Expr.Alike.span {v : Alignment} {e e' : Expr} (h : e.Alike v e') :
    v.left e.span = v.right e'.span := by
  have hspan := congrArg Expr.span h
  rw [Expr.span_respan, Expr.span_respan] at hspan
  exact hspan

/-- Finding the one token where something else was wanted is the same fault as finding the other. -/
theorem Token.Same.expected {v : Alignment} {t t' : Token} (h : t.Same v t') (want : Bytes) :
    (⟨.expected want t, t.span⟩ : Diagnostic).respan v.left =
      (⟨.expected want t', t'.span⟩ : Diagnostic).respan v.right := by
  have hrespan : t.respan v.left = t'.respan v.right := by
    unfold Token.respan
    rw [h.kind, h.literal, h.span]
  change (⟨.expected want (t.respan v.left), v.left t.span⟩ : Diagnostic) =
    ⟨.expected want (t'.respan v.right), v.right t'.span⟩
  rw [hrespan, h.span]

namespace Parser

/-- A kind that may follow what was read whole: of another statement, or of the end. -/
def Opens (k : Kind) : Prop := k = .eof ∨ k = .semicolon ∨ Begins k

instance (k : Kind) : Decidable (Opens k) := inferInstanceAs (Decidable (_ ∨ _))

theorem Opens.ne {k l : Kind} (h : Opens k) (hl : ¬ Opens l) : k ≠ l := fun hkl => hl (hkl ▸ h)

/-- The two surroundings are the same up to places, and `more` begins another statement, if
anything. If the readings are compared as a `whole`, nothing is behind and they end alike. -/
structure Seam (v : Alignment) (more : List Token) (whole : Prop) (s s' : Surroundings) :
    Prop where
  eof : s.eof.kind = .eof
  eof' : s'.eof.kind = .eof
  ends : whole → more = [] ∧ s.eof.Same v s'.eof
  opens : ∀ t ∈ more.head?, Opens t.kind
  inLoop : s'.inLoop = s.inLoop
  function : s'.function = s.function

variable {α β : Type} {v : Alignment} {more : List Token} {whole : Prop} {s s' : Surroundings}

/-- The first outcome is the second, up to places, with `more` still behind and at most `o` tokens
before it. Of faults this is said only if the readings are compared as a whole. -/
def Follows (v : Alignment) (more : List Token) (whole : Prop) (o : Nat) (P : α → α → Prop)
    (r r' : EStateM.Result ParseStop (List Token) α) : Prop :=
  match r with
  | .ok a rest => ∃ a' rest', r' = .ok a' (rest' ++ more) ∧ P a a' ∧
      List.Forall₂ (Token.Alike v) rest rest' ∧ rest.length ≤ o
  | .error (.fault d) _ => whole → ∃ d' left, r' = .error (.fault d') left ∧
      d.respan v.left = d'.respan v.right
  | .error .outOfFuel _ => True

/-- Read on like tokens, the two actions go alike. -/
def Match (v : Alignment) (more : List Token) (whole : Prop) (P : α → α → Prop)
    (x x' : Parser α) : Prop :=
  ∀ ts ts', List.Forall₂ (Token.Alike v) ts ts' →
    Follows v more whole ts.length P (x ts) (x' (ts' ++ more))

/-! ## Putting readings together -/

section Composition

variable {P : α → α → Prop} {Q : β → β → Prop} {ts us : List Token} {o o' : Nat}

theorem Follows.mono {r r' : EStateM.Result ParseStop (List Token) α}
    (h : Follows v more whole o P r r') (ho : o ≤ o') : Follows v more whole o' P r r' := by
  cases r with
  | ok a rest =>
    obtain ⟨a', rest', hr', hP, halike, hlen⟩ := h
    exact ⟨a', rest', hr', hP, halike, Nat.le_trans hlen ho⟩
  | error e rest =>
    cases e with
    | fault d => exact h
    | outOfFuel => trivial

theorem Follows.bind {x x' : Parser α} {f f' : α → Parser β}
    (hx : Follows v more whole o P (x ts) (x' us))
    (hf : ∀ a a' rest rest', x ts = .ok a rest → P a a' →
      List.Forall₂ (Token.Alike v) rest rest' → rest.length ≤ o →
      Follows v more whole o' Q (f a rest) (f' a' (rest' ++ more))) :
    Follows v more whole o' Q ((x >>= f) ts) ((x' >>= f') us) := by
  cases hr : x ts with
  | ok a rest =>
    rw [hr] at hx
    obtain ⟨a', rest', hr', hP, halike, hlen⟩ := hx
    rw [bind_eq_of_ok hr, bind_eq_of_ok hr']
    exact hf a a' rest rest' hr hP halike hlen
  | error e rest =>
    rw [hr] at hx
    rw [bind_eq_of_error hr]
    cases e with
    | outOfFuel => trivial
    | fault d =>
      intro hwhole
      obtain ⟨d', left, hr', hd⟩ := hx hwhole
      exact ⟨d', left, bind_eq_of_error hr', hd⟩

theorem stops_bind {x : Parser α} {f : α → Parser β} (h : stops (x ts) = true) :
    stops ((x >>= f) ts) = true := by
  obtain ⟨e, rest, hx⟩ := exists_of_stops h
  rw [bind_eq_of_error hx]
  rfl

/-- What stops on the left is of no account unless the readings are compared as a whole. -/
theorem Follows.of_stops {r r' : EStateM.Result ParseStop (List Token) α} (h : stops r = true)
    (hpart : ¬ whole) : Follows v more whole o P r r' := by
  obtain ⟨e, rest, rfl⟩ := exists_of_stops h
  cases e with
  | fault d => exact fun hwhole => absurd hwhole hpart
  | outOfFuel => trivial

namespace Match

theorem bind {x x' : Parser α} {f f' : α → Parser β} (hx : Match v more whole P x x')
    (hf : ∀ a a', P a a' → Match v more whole Q (f a) (f' a')) :
    Match v more whole Q (x >>= f) (x' >>= f') := by
  intro ts ts' hts
  refine (hx ts ts' hts).bind fun a a' rest rest' _ hP hrest hlen => ?_
  exact (hf a a' hP rest rest' hrest).mono hlen

theorem pure {a a' : α} (h : P a a') : Match v more whole P (pure a) (pure a') :=
  fun _ ts' hts => ⟨a', ts', rfl, h, hts, Nat.le_refl _⟩

theorem branch {p : Prop} [Decidable p] {x y x' y' : Parser α} (hx : Match v more whole P x x')
    (hy : Match v more whole P y y') :
    Match v more whole P (if p then x else y) (if p then x' else y') := by
  by_cases hp : p
  · rw [if_pos hp, if_pos hp]
    exact hx
  · rw [if_neg hp, if_neg hp]
    exact hy

theorem outOfFuel (y : Parser α) : Match v more whole P (throw .outOfFuel) y := fun _ _ _ => trivial

theorem fail {fault fault' : Fault} {span span' : Span}
    (hfault : fault.respan v.left = fault'.respan v.right) (hspan : v.left span = v.right span') :
    Match v more whole P (fail fault span) (fail fault' span') := by
  intro ts ts' _ _
  refine ⟨⟨fault', span'⟩, ts' ++ more, rfl, ?_⟩
  unfold Diagnostic.respan
  rw [hfault, hspan]

end Match
end Composition

/-! ## The next token -/

namespace Seam

variable {ts ts' : List Token} (hs : Seam v more whole s s')
include hs

/-- The next tokens are the same, unless the first list has ended at the seam. -/
theorem next_same (h : List.Forall₂ (Token.Alike v) ts ts') :
    (next s ts).Same v (next s' (ts' ++ more)) ∨
      ts = [] ∧ ¬ whole ∧ Opens (next s' (ts' ++ more)).kind := by
  by_cases hwhole : whole
  · obtain ⟨rfl, hsame⟩ := hs.ends hwhole
    cases h with
    | nil => exact .inl hsame
    | cons ht hrest => exact .inl ht.toSame
  · cases h with
    | cons ht hrest => exact .inl ht.toSame
    | nil =>
      refine .inr ⟨rfl, hwhole, ?_⟩
      cases hmore : more with
      | nil => exact .inl hs.eof'
      | cons t more' => exact hs.opens t (by rw [hmore]; rfl)

theorem next_same_of_whole (hwhole : whole) (h : List.Forall₂ (Token.Alike v) ts ts') :
    (next s ts).Same v (next s' (ts' ++ more)) := by
  rcases hs.next_same h with hsame | ⟨-, hpart, -⟩
  · exact hsame
  · exact absurd hwhole hpart

/-- Where the first list has ended the second has as well, or goes on behind the seam. -/
theorem next_nil : (next s' ([] ++ more)).kind = .eof ∨ ¬ whole := by
  rcases hs.next_same .nil with hsame | ⟨-, hpart, -⟩
  · exact .inl (hsame.kind.trans hs.eof)
  · exact .inr hpart

/-- No operator continues across the seam. -/
theorem binOp?_next (h : List.Forall₂ (Token.Alike v) ts ts') :
    binOp? (next s' (ts' ++ more)).kind = binOp? (next s ts).kind := by
  rcases hs.next_same h with hsame | ⟨rfl, -, hopens⟩
  · rw [hsame.kind]
  · have hend : binOp? (next s []).kind = none := by
      rw [show (next s []).kind = .eof from hs.eof]
      rfl
    rw [hend]
    revert hopens
    generalize (next s' (ts' ++ more)).kind = k
    cases k with
    | plus | minus | star | slash | caret => decide
    | eq | notEq | gt | lt | gtEq | ltEq => decide
    | _ => exact fun _ => rfl

end Seam

/-! ## The smallest parsers -/

theorem stops_expect_nil {k : Kind} (heof : s.eof.kind = .eof) (hk : k ≠ .eof) :
    stops (expect s k []) = true := by
  rw [expect_eq_of_ne (show (next s []).kind ≠ k from heof ▸ hk.symm)]
  rfl

section Smallest

variable {P : α → α → Prop} {k : Kind} (hs : Seam v more whole s s')
include hs

theorem follows_unexpected {ts ts' : List Token} {o : Nat}
    (hts : List.Forall₂ (Token.Alike v) ts ts') (want : Bytes) :
    Follows v more whole o P (unexpected s want ts) (unexpected s' want (ts' ++ more)) := by
  intro hwhole
  exact ⟨_, _, rfl, (hs.next_same_of_whole hwhole hts).expected want⟩

theorem match_expect (hk : k ≠ .eof) :
    Match v more whole (fun t t' => t.Alike v t' ∧ t.kind = k) (expect s k) (expect s' k) := by
  intro ts ts' hts
  by_cases hkind : (next s ts).kind = k
  · cases hts with
    | nil => exact absurd (hkind.symm.trans hs.eof) hk
    | @cons t t' rest rest' ht hrest =>
      have htk : t.kind = k := hkind
      rw [expect_cons htk, List.cons_append, expect_cons (ht.kind.trans htk)]
      exact ⟨t', rest', rfl, ⟨ht, htk⟩, hrest, Nat.le_succ _⟩
  · rw [expect_eq_of_ne hkind]
    intro hwhole
    have hsame := hs.next_same_of_whole hwhole hts
    have hkind' : (next s' (ts' ++ more)).kind ≠ k := by
      rw [hsame.kind]
      exact hkind
    rw [expect_eq_of_ne hkind']
    exact ⟨_, _, rfl, hsame.expected k.name⟩

theorem match_endStatement {start start' : Span} (hstart : v.left start = v.right start') :
    Match v more whole (fun a a' => v.left a = v.right a') (endStatement s start)
      (endStatement s' start') := by
  refine (match_expect hs Kind.noConfusion).bind fun t t' ht => ?_
  exact .pure (v.join hstart ht.1.span)

/-- A choice by the kind of the next token. Where the first list has ended and the second goes on
with a token of that kind, the first reading must not get through. -/
theorem match_ifNext {x y x' y' : Parser α} (hk : k ≠ .eof)
    (hx : ∀ t t' rest rest', t.Alike v t' → t.kind = k →
      List.Forall₂ (Token.Alike v) rest rest' →
      Follows v more whole (rest.length + 1) P (x (t :: rest)) (x' (t' :: (rest' ++ more))))
    (hy : Match v more whole P y y') (hend : Opens k → stops (y []) = true) :
    Match v more whole P (do if ← isAt s k then x else y) (do if ← isAt s' k then x' else y') := by
  intro ts ts' hts
  rw [bind_eq_of_ok isAt_eq, bind_eq_of_ok isAt_eq]
  rcases hs.next_same hts with hsame | ⟨rfl, hpart, hopens⟩
  · rw [hsame.kind]
    by_cases hkind : (next s ts).kind = k
    · cases hts with
      | nil => exact absurd (hkind.symm.trans hs.eof) hk
      | cons ht hrest =>
        rw [hkind, beq_self_eq_true]
        exact hx _ _ _ _ ht hkind hrest
    · rw [beq_false_of_ne hkind]
      exact hy ts ts' hts
  · -- The first list has ended. If the second goes on with `k`, the two part here.
    rw [beq_false_of_ne (show (next s []).kind ≠ k from hs.eof ▸ hk.symm)]
    by_cases hkind : (next s' (ts' ++ more)).kind = k
    · exact .of_stops (hend (hkind ▸ hopens)) hpart
    · rw [beq_false_of_ne hkind]
      exact hy [] ts' hts

theorem match_takeIf {x x' : Token → Parser α} {y y' : Parser α} (hk : k ≠ .eof)
    (hopens : ¬ Opens k)
    (hx : ∀ t t', t.Alike v t' → t.kind = k → Match v more whole P (x t) (x' t'))
    (hy : Match v more whole P y y') :
    Match v more whole P (do if ← isAt s k then advance s >>= x else y)
      (do if ← isAt s' k then advance s' >>= x' else y') := by
  refine match_ifNext hs hk (fun t t' rest rest' ht htk hrest => ?_) hy (absurd · hopens)
  rw [bind_eq_of_ok advance_cons, bind_eq_of_ok advance_cons]
  exact (hx t t' ht htk rest rest' hrest).mono (Nat.le_succ _)

end Smallest

/-! ## Types -/

/-- Reading a type, with no less fuel on the right. -/
theorem match_typeRef (hs : Seam v more whole s s') (n d : Nat) :
    Match v more whole Eq (typeRef s n) (typeRef s' (n + d)) := by
  induction n with
  | zero => rw [typeRef]; exact .outOfFuel _
  | succ n ih =>
    rw [Nat.succ_add, typeRef, typeRef]
    refine (match_expect hs Kind.noConfusion).bind fun w w' hw => ?_
    rw [hw.1.literal]
    cases Ty.ofName? w.literal with
    | some t => exact .pure rfl
    | none =>
      refine .branch (.fail rfl hw.1.span) ?_
      refine (match_expect hs Kind.noConfusion).bind fun _ _ _ => ?_
      refine ih.bind fun elem elem' helem => ?_
      subst helem
      intro ts ts' hts
      rw [bind_eq_of_ok peek_eq, bind_eq_of_ok peek_eq]
      by_cases hjoined : (next s ts).kind = .gtEq
      · rw [if_pos hjoined]
        cases hts with
        | nil => exact absurd (hjoined.symm.trans hs.eof) Kind.noConfusion
        | @cons t t' rest rest' ht hrest =>
          -- The `=` that is left stands at corresponding places.
          rw [if_pos (show (next s' (t' :: rest' ++ more)).kind = .gtEq from
            ht.kind.trans hjoined)]
          refine ⟨elem.vecOf, ⟨.assign, [], t'.span.tail⟩ :: rest', rfl,
            rfl, .cons ⟨⟨rfl, rfl, ht.half hjoined⟩, Kind.noConfusion, Kind.noConfusion⟩ hrest,
            Nat.le_refl _⟩
      · have hjoined' : (next s' (ts' ++ more)).kind ≠ .gtEq := by
          rcases hs.next_same hts with hsame | ⟨-, -, hopens⟩
          · exact hsame.kind ▸ hjoined
          · exact hopens.ne (by decide)
        rw [if_neg hjoined, if_neg hjoined']
        exact (match_expect hs Kind.noConfusion).bind (fun _ _ _ => .pure rfl) ts ts' hts

end Parser
end Scriptlet
