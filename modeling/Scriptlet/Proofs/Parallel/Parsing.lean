import Scriptlet.Proofs.Grammar.Recognition
import Scriptlet.Proofs.Parallel.Statement

/-!
# Parsing: like lists of tokens have like programs

A parse is compared with the parse of a list of like tokens, and with that of two lists put one
behind the other.
-/

namespace Scriptlet

namespace Alignment

/-- Places as they are. -/
def refl : Alignment := ⟨id, id, fun {_ _ _ _} ha hb => by simp only [id] at *; rw [ha, hb]⟩

/-- The same correspondence seen from the other side. -/
def flip (v : Alignment) : Alignment :=
  ⟨v.right, v.left, fun {_ _ _ _} ha hb => (v.join ha.symm hb.symm).symm⟩

end Alignment

theorem Token.Same.flip {v : Alignment} {t t' : Token} (h : t.Same v t') : t'.Same v.flip t :=
  ⟨h.kind.symm, h.literal.symm, h.span.symm⟩

theorem Token.Alike.flip {v : Alignment} {t t' : Token} (h : t.Alike v t') : t'.Alike v.flip t :=
  ⟨h.toSame.flip, h.kind ▸ h.inside, fun hk => (h.half (h.kind ▸ hk)).symm⟩

theorem Token.Alike.refl {t : Token} (h : t.kind ≠ .eof) : t.Alike .refl t :=
  ⟨⟨rfl, rfl, rfl⟩, h, fun _ => rfl⟩

variable {v : Alignment} {body body' front : List Token} {eof eof' : Token}

theorem inside_left (h : List.Forall₂ (Token.Alike v) body body') :
    ∀ t ∈ body, t.kind ≠ .eof := by
  induction h with
  | nil => intro t ht; cases ht
  | cons ht _ ih =>
    intro u hu
    rcases List.mem_cons.1 hu with rfl | hu
    · exact ht.inside
    · exact ih u hu

theorem inside_right (h : List.Forall₂ (Token.Alike v) body body') :
    ∀ t ∈ body', t.kind ≠ .eof :=
  inside_left (List.Forall₂.flip (h.imp fun _ _ ht => ht.flip))

theorem forall₂_alike_refl (h : ∀ t ∈ body, t.kind ≠ .eof) :
    List.Forall₂ (Token.Alike .refl) body body :=
  List.forall₂_same.2 fun t ht => .refl (h t ht)

/-- With places as they are, like statements are the same. -/
theorem Stmt.AllAlike.eq_of_refl {ss ss' : List Stmt} (h : Stmt.AllAlike .refl ss ss') :
    ss = ss' := by
  have hid : Stmt.allRespan id ss = Stmt.allRespan id ss' := h
  rw [Stmt.allRespan_id, Stmt.allRespan_id] at hid
  exact hid

namespace Program

theorem ofSource_of_lex {src : Bytes} {ts : List Token} (h : Token.lex src = .ok ts) :
    ofSource src = parse ts := by
  unfold ofSource
  rw [h]
  rfl

theorem exists_of_ofSource {src : Bytes} {p : Program} (h : ofSource src = .ok p) :
    ∃ ts, Token.lex src = .ok ts ∧ parse ts = .ok p := by
  cases hts : Token.lex src with
  | error d => unfold ofSource at h; rw [hts] at h; cases h
  | ok ts => exact ⟨ts, rfl, ofSource_of_lex hts ▸ h⟩

/-- What a parse of tokens before an end of file comes to. -/
theorem parse_append_eof (hbody : ∀ t ∈ body, t.kind ≠ .eof) (heof : eof.kind = .eof) :
    parse (body ++ [eof]) =
      match Parser.statements ⟨eof, false, none⟩ (fuelFor body.length) body with
      | .ok program _ => .ok program
      | .error (.fault d) _ => .error d
      | .error .outOfFuel _ => .error ⟨.unclosedBlock, eof.span⟩ := by
  have hrest : Program.body (body ++ [eof]) = body := body_append_eof hbody heof
  have hend : endToken (body ++ [eof]) = eof := endToken_append_eof hbody heof
  change (match Parser.statements ⟨endToken (body ++ [eof]), false, none⟩
      (fuelFor (Program.body (body ++ [eof])).length) (Program.body (body ++ [eof])) with
    | .ok program _ => Except.ok program
    | .error (.fault d) _ => .error d
    | .error .outOfFuel _ => .error ⟨.unclosedBlock, (endToken (body ++ [eof])).span⟩) = _
  rw [hrest, hend]

theorem follows_statements (hbody : List.Forall₂ (Token.Alike v) body body')
    (heof : eof.kind = .eof) (hend : eof.Same v eof') (n d : Nat) :
    Parser.Follows v [] True body.length (Stmt.AllAlike v)
      (Parser.statements ⟨eof, false, none⟩ n body)
      (Parser.statements ⟨eof', false, none⟩ (n + d) body') := by
  have hs : Parser.Seam v [] True ⟨eof, false, none⟩ ⟨eof', false, none⟩ :=
    ⟨heof, hend.kind.trans heof, fun _ => ⟨rfl, hend⟩, fun _ ht => (nomatch ht), rfl, rfl⟩
  have hmatch := Parser.match_statements hs n d body body' hbody
  rw [List.append_nil] at hmatch
  exact hmatch

/-- Like tokens have like programs, or like faults. -/
theorem parse_alike (hbody : List.Forall₂ (Token.Alike v) body body') (heof : eof.kind = .eof)
    (hend : eof.Same v eof') :
    (∀ p, parse (body ++ [eof]) = .ok p →
      ∃ p', parse (body' ++ [eof']) = .ok p' ∧ Stmt.AllAlike v p p') ∧
    ∀ d, parse (body ++ [eof]) = .error d →
      ∃ d', parse (body' ++ [eof']) = .error d' ∧ d.respan v.left = d'.respan v.right := by
  have heof' : eof'.kind = .eof := hend.kind.trans heof
  have hlength : body'.length = body.length := hbody.length_eq.symm
  have hmatch := follows_statements hbody heof hend (fuelFor body.length) 0
  rw [Nat.add_zero] at hmatch
  rw [parse_append_eof (inside_left hbody) heof, parse_append_eof (inside_right hbody) heof',
    hlength]
  cases hx : Parser.statements ⟨eof, false, none⟩ (fuelFor body.length) body with
  | ok p rest =>
    rw [hx] at hmatch
    obtain ⟨p', rest', hy, hp, -, -⟩ := hmatch
    rw [hy]
    exact ⟨fun q hq => ⟨p', rfl, by cases hq; exact hp⟩, nofun⟩
  | error e rest =>
    rw [hx] at hmatch
    cases e with
    | fault d =>
      obtain ⟨d', left, hy, hd⟩ := hmatch trivial
      rw [hy]
      exact ⟨nofun, fun _ hq => ⟨d', rfl, by cases hq; exact hd⟩⟩
    | outOfFuel =>
      -- The second reading runs out as well, since the first would do as it does.
      have hback := follows_statements (List.Forall₂.flip (hbody.imp fun _ _ ht => ht.flip)) heof'
        hend.flip (fuelFor body.length) 0
      rw [Nat.add_zero, hx] at hback
      cases hy : Parser.statements ⟨eof', false, none⟩ (fuelFor body.length) body' with
      | ok p' rest' =>
        rw [hy] at hback
        obtain ⟨p, left, h, -⟩ := hback
        cases h
      | error e' rest' =>
        rw [hy] at hback
        cases e' with
        | fault d' =>
          obtain ⟨d, left, h, -⟩ := hback trivial
          cases h
        | outOfFuel =>
          refine ⟨nofun, fun d hd => ⟨⟨.unclosedBlock, eof'.span⟩, rfl, ?_⟩⟩
          cases hd
          unfold Diagnostic.respan
          rw [hend.span]
          rfl

/-- Two lists of tokens that can be parsed can be parsed one behind the other. The second gives a
like program where its tokens are replaced by like tokens. -/
theorem parse_append (hfront : ∀ t ∈ front, t.kind ≠ .eof) (heof : eof.kind = .eof)
    {last last' : Token} (hbody : List.Forall₂ (Token.Alike v) body body')
    (hlast : last.kind = .eof) (hlast' : last'.kind = .eof) {p q : Program}
    (hp : parse (front ++ [eof]) = .ok p) (hq : parse (body ++ [last]) = .ok q) :
    ∃ q', parse (front ++ body' ++ [last']) = .ok (p ++ q') ∧ Stmt.AllAlike v q q' := by
  obtain ⟨left, hx⟩ := (parse_eq_ok_iff hfront heof).1 hp
  obtain ⟨end_, hy⟩ := (parse_eq_ok_iff (inside_left hbody) hlast).1 hq
  have hopens : ∀ t ∈ body'.head?, Parser.Opens t.kind := by
    intro u hu
    cases hbody with
    | nil => cases hu
    | cons ht hrest =>
      cases hu
      rw [ht.kind]
      exact Parser.opens_of_statements ht.inside hy
  have hseam : Parser.Seam .refl body' False ⟨eof, false, none⟩ ⟨last', false, none⟩ :=
    ⟨heof, hlast', False.elim, hopens, rfl, rfl⟩
  obtain ⟨p', k, hpp', hk, happend⟩ :=
    Parser.statements_append hseam (8 * body.length) (forall₂_alike_refl hfront) hx
  -- The first list is compared with itself, with places as they are.
  obtain rfl : p = p' := hpp'.eq_of_refl
  -- There is at least the fuel left that the second list alone is given.
  have hfuel : fuelFor body.length ≤ fuelFor front.length + 8 * body.length - k := by
    unfold fuelFor
    omega
  obtain ⟨d, hd⟩ := Nat.exists_eq_add_of_le hfuel
  have hseam' : Parser.Seam v [] False ⟨last, false, none⟩ ⟨last', false, none⟩ :=
    ⟨hlast, hlast', False.elim, fun _ ht => (nomatch ht), rfl, rfl⟩
  have hmatch := Parser.match_statements hseam' (fuelFor body.length) d body body' hbody
  rw [hy, ← hd, List.append_nil] at hmatch
  obtain ⟨q', end', hq', hqq', -⟩ := hmatch
  refine ⟨q', ?_, hqq'⟩
  have hinside : ∀ t ∈ front ++ body', t.kind ≠ .eof := by
    intro t ht
    rcases List.mem_append.1 ht with ht | ht
    · exact hfront t ht
    · exact inside_right hbody t ht
  refine (parse_eq_ok_iff hinside hlast').2 ⟨end' ++ [], ?_⟩
  have hlength : fuelFor (front ++ body').length = fuelFor front.length + 8 * body.length := by
    rw [List.length_append, ← hbody.length_eq]
    unfold fuelFor
    omega
  rw [hlength]
  exact happend q' _ hq'

end Program
end Scriptlet
