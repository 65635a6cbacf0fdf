import Scriptlet.Proofs.Grammar.Recognition
import Scriptlet.Proofs.Machine.Truncation
import Scriptlet.Proofs.Parallel.Parsing
import Scriptlet.Proofs.Value.Literal

/-!
# Echo: printed values and types read back

A value that is printed with its type is source text again. The program that declares a variable
of the printed type with the printed value, and prints it, gives the variable just that value and
prints the same text.
-/

namespace Scriptlet

open Grammar Lexer

/-- The program that declares a variable with a value and prints it, as source text. -/
def Value.echo (v : Value) : Bytes :=
  utf8 "let x: " ++ (v.type.render ++ (utf8 " = " ++ (v.render ++ utf8 "; print(x);")))

/-- The same program as a tree without places. -/
def Value.echoed (v : Value) : Program :=
  [.letVar (utf8 "x") .origin (some v.type) v.expr .origin,
    .call (utf8 "print") .origin [.ident (utf8 "x") .origin] .origin .origin]

/-! ## Reading the program -/

theorem spells_let :
    Spells (fun _ => True) (utf8 "let x: ") fun ts => ∃ k x c : Token, ts = [k, x, c] ∧
      k.kind = .kLet ∧ x.kind = .ident ∧ x.literal = utf8 "x" ∧ c.kind = .colon := by
  refine ⟨by decide, fun pos rev => ?_⟩
  exact ⟨_, _, [⟨.kLet, [], .between pos (pos + 3)⟩, ⟨.ident, utf8 "x", .between (pos + 4) (pos + 5)⟩,
    ⟨.colon, [], .between (pos + 5) (pos + 6)⟩], rfl, rfl, rfl, ⟨_, _, _, rfl, rfl, rfl, rfl, rfl⟩,
    fun _ _ => rfl⟩

theorem spells_assign :
    Spells (fun _ => True) (utf8 " = ") fun ts => ∃ q : Token, ts = [q] ∧ q.kind = .assign := by
  refine ⟨by decide, fun pos rev => ?_⟩
  exact ⟨_, _, [⟨.assign, [], .between (pos + 1) (pos + 2)⟩], rfl, rfl, rfl, ⟨_, rfl, rfl⟩,
    fun _ _ => rfl⟩

/-- The tokens that end the first statement and are the second. -/
def PrintsNext (ts : List Token) : Prop :=
  ∃ z us, ts = z :: us ∧ z.kind = .semicolon ∧ Forms .top us
    (.body [.call (utf8 "print") .origin [.ident (utf8 "x") .origin] .origin .origin])

theorem spells_print : Spells (fun _ => True) (utf8 "; print(x);") PrintsNext := by
  refine ⟨by decide, fun pos rev => ?_⟩
  let name : Token := ⟨.ident, utf8 "print", .between (pos + 2) (pos + 7)⟩
  let opening : Token := ⟨.lparen, [], .between (pos + 7) (pos + 8)⟩
  let arg : Token := ⟨.ident, utf8 "x", .between (pos + 8) (pos + 9)⟩
  let closing : Token := ⟨.rparen, [], .between (pos + 9) (pos + 10)⟩
  let stop : Token := ⟨.semicolon, [], .between (pos + 10) (pos + 11)⟩
  have harg : Derives [arg] (.items [.ident (utf8 "x") .origin]) :=
    .lastItem ((Derives.ident rfl).loosen_le (by omega) (by omega))
  have hcall : Forms .top (name :: opening :: ([arg] ++ [closing, stop]))
      (.stmt (.call (utf8 "print") .origin [.ident (utf8 "x") .origin] .origin .origin)) :=
    .call rfl rfl harg rfl rfl
  exact ⟨_, _, [⟨.semicolon, [], .between pos (pos + 1)⟩, name, opening, arg, closing, stop], rfl,
    rfl, rfl, ⟨_, _, rfl, rfl, .moreStmts hcall .noStmts⟩, fun _ _ => rfl⟩

namespace Value

variable {v : Value}

theorem ended_type (h : v.type.Known) (text : Bytes) :
    Ended (fun _ => True) (v.type.render ++ text) := by
  obtain ⟨b, rest, hb, hascii, -⟩ := Ty.ended_render h
  exact Ended.append ⟨b, rest, hb, hascii, trivial⟩ text

theorem spells_echo (hv : v.Typed) (hs : v.Stringless) (hmin : .int Int64.minValue ∉ v.scalars) :
    Spells (fun _ => True) v.echo fun ts => Programs ts v.echoed := by
  -- From the end of the text to its beginning, each part is read in front of the parts behind it.
  have hvalue : Spells (fun _ => True) (v.render ++ utf8 "; print(x);")
      fun ts => ∃ us ws, ts = us ++ ws ∧ Derives us (.expr 1 v.expr) ∧ PrintsNext ws := by
    apply (spells_render hv hs hmin).append spells_print ⟨_, _, rfl, by decide, by decide⟩
    intro us ws hus hws
    exact ⟨us, ws, rfl, hus.loosen_le (by omega) (by omega), hws⟩
  have hassign : Spells (fun _ => True) (utf8 " = " ++ (v.render ++ utf8 "; print(x);"))
      fun ts => ∃ q us ws, ts = q :: (us ++ ws) ∧ q.kind = .assign ∧
        Derives us (.expr 1 v.expr) ∧ PrintsNext ws := by
    apply spells_assign.append hvalue ((ended_render hs).append _)
    rintro _ _ ⟨q, rfl, hq⟩ ⟨us, ws, rfl, hus, hws⟩
    exact ⟨q, us, ws, rfl, hq, hus, hws⟩
  have htype : Spells (fun _ => True)
      (v.type.render ++ (utf8 " = " ++ (v.render ++ utf8 "; print(x);")))
      fun ts => ∃ ss q us ws, ts = ss ++ q :: (us ++ ws) ∧ TypeForm ss v.type ∧
        q.kind = .assign ∧ Derives us (.expr 1 v.expr) ∧ PrintsNext ws := by
    apply (Ty.spells_render hv.known).append hassign ⟨_, _, rfl, by decide, by decide⟩
    rintro ss _ hss ⟨q, us, ws, rfl, hq, hus, hws⟩
    exact ⟨ss, q, us, ws, rfl, hss, hq, hus, hws⟩
  apply spells_let.append htype (ended_type hv.known _)
  rintro _ _ ⟨k, x, c, rfl, hk, hx, hname, hc⟩
    ⟨ss, q, us, _, rfl, hss, hq, hus, z, ws, rfl, hz, hws⟩
  have hlet := Forms.letVar (c := .top) hk hx (.typed hc hss hq) hus hz
  rw [hname] at hlet
  have hprogram := Forms.moreStmts hlet hws
  simp only [List.cons_append, List.append_assoc, List.nil_append] at hprogram ⊢
  exact hprogram

theorem exists_of_echo (hv : v.Typed) (hs : v.Stringless)
    (hmin : .int Int64.minValue ∉ v.scalars) :
    ∃ p, Program.ofSource v.echo = .ok p ∧ Stmt.allBare p = v.echoed := by
  obtain ⟨ts, stop, hprogram, hts, hlex⟩ := (spells_echo hv hs hmin).lex_eq
  have heof : (⟨.eof, [], .between stop stop⟩ : Token).kind = .eof := rfl
  obtain ⟨p, hbare, hstatements⟩ := hprogram.statements_eq heof
  refine ⟨p, ?_, hbare⟩
  rw [Program.ofSource_of_lex hlex]
  exact (Program.parse_eq_ok_iff hts heof).2 ⟨[], hstatements⟩

theorem refuses_echo (hv : v.Typed) (hs : v.Stringless)
    (hmin : .int Int64.minValue ∈ v.scalars) :
    ∃ span, Token.lex v.echo = .error ⟨.literalTooLarge, span⟩ := by
  have hassign : Refuses Separator (utf8 " = " ++ v.render) :=
    (refuses_render hv hs hmin).behind spells_assign (ended_render hs)
  have htype : Refuses Separator (v.type.render ++ (utf8 " = " ++ v.render)) :=
    hassign.behind (Ty.spells_render hv.known) ⟨_, _, rfl, by decide, by decide⟩
  have hall : Refuses Separator (utf8 "let x: " ++ (v.type.render ++ (utf8 " = " ++ v.render))) :=
    htype.behind spells_let (ended_type hv.known _)
  have hend : Ended Separator (utf8 "; print(x);") := ⟨_, _, rfl, by decide, by decide⟩
  have hlex := hall.lex_eq hend
  unfold echo
  simp only [List.append_assoc] at hlex ⊢
  exact hlex

end Value

/-! ## Running the program -/

namespace Exec

variable {b : Budget} {m : Machine} {v : Value}

theorem tick_of_free {span : Span} (hsteps : b.steps ≤ 0 ∨ .ofNat (m.steps + 1) ≤ b.steps)
    (hinterval : .ofNat (m.steps + 1) % cancelInterval ≠ 0) :
    tick b span m = .ok () { m with steps := m.steps + 1 } := by
  have hwithin : ¬ (0 < b.steps ∧ b.steps < .ofNat (m.steps + 1)) := by
    rintro ⟨hpos, hbeyond⟩
    rcases hsteps with hnone | hle
    · exact Int64.not_lt.2 hnone hpos
    · exact Int64.not_lt.2 hle hbeyond
  rw [tick_eq, if_neg hwithin, if_neg hinterval]

theorem stmt_letVar {fuel : Nat} {name : Bytes} {nameSpan span : Span} {value : Expr}
    {m' : Machine} (htick : tick b span m = .ok () m')
    (hvalue : eval b fuel (some v.type) value m' = .ok v m') :
    stmt b (fuel + 1) (.letVar name nameSpan (some v.type) value span) m =
      .ok .next (m'.declare name v) := by
  have hspan : (Stmt.letVar name nameSpan (some v.type) value span).span = span := rfl
  rw [stmt, hspan, bind_eq_of_ok htick]
  dsimp only
  rw [bind_eq_of_ok hvalue, if_neg (not_not_intro rfl)]
  rfl

theorem eval_ident {fuel : Nat} {hint : Option Ty} {name : Bytes} {span : Span} {slot : Slot}
    (h : m.slot? name = some slot) :
    eval b (fuel + 1) hint (.ident name span) m = .ok slot.value m := by
  have hget : (get : Exec Machine) m = .ok m m := rfl
  rw [eval, bind_eq_of_ok hget, h]
  rfl

theorem write_of_taken {span : Span} {text : Bytes} {out : Sink}
    (h : m.output.write text = (.ok (), out)) :
    write span text m = .ok () { m with output := out } := by
  have hget : (get : Exec Machine) m = .ok m m := rfl
  unfold write
  rw [bind_eq_of_ok hget, h]
  rfl

theorem stmt_print {fuel : Nat} {name : Bytes} {nameSpan argSpan callSpan span : Span}
    {m' : Machine} {slot : Slot} {out : Sink} (htick : tick b span m = .ok () m')
    (hslot : m'.slot? name = some slot)
    (hwrite : m'.output.write slot.value.render = (.ok (), out)) :
    stmt b (fuel + 4) (.call (utf8 "print") nameSpan [.ident name argSpan] callSpan span) m =
      .ok .next { m' with output := out } := by
  have hargs : evalArgs b (fuel + 2) [] [.ident name argSpan] m' = .ok [slot.value] m' := by
    rw [evalArgs, bind_eq_of_ok (eval_ident hslot), evalArgs]
    rfl
  have hprinted : Builtin.printed [slot.value] = slot.value.render :=
    List.flatMap_singleton _ _
  have happly : Builtin.apply .print callSpan argSpan [slot.value] m' =
      .ok none { m' with output := out } := by
    show (do write callSpan (Builtin.printed [slot.value]); return none : Exec (Option Value)) m' = _
    rw [hprinted, bind_eq_of_ok (write_of_taken hwrite)]
    rfl
  have hbuiltin : callBuiltin false .print (utf8 "print") callSpan [.ident name argSpan]
      [slot.value] m' = .ok none { m' with output := out } := by
    show (do
      let v ← Builtin.apply .print callSpan argSpan [slot.value]
      if false && v.isNone then fail (.noValue (utf8 "print")) callSpan
      else return v : Exec (Option Value)) m' = _
    rw [bind_eq_of_ok happly]
    rfl
  have hcall : call b (fuel + 3) false (utf8 "print") nameSpan [.ident name argSpan] callSpan m' =
      .ok none { m' with output := out } := by
    have hname : Builtin.ofName? (utf8 "print") = some .print := rfl
    rw [call, hname]
    exact (bind_eq_of_ok hargs).trans hbuiltin
  have hspan : (Stmt.call (utf8 "print") nameSpan [.ident name argSpan] callSpan span).span =
      span := rfl
  rw [stmt, hspan, bind_eq_of_ok htick]
  exact bind_eq_of_ok hcall

end Exec

namespace Value

variable {v : Value} {p : Program}

theorem exists_of_allBare_cons {ss rest : List Stmt} {s : Stmt}
    (h : Stmt.allBare ss = s :: rest) :
    ∃ s' rest', ss = s' :: rest' ∧ s'.bare = s ∧ Stmt.allBare rest' = rest := by
  cases ss with
  | nil => rw [Stmt.allBare] at h; cases h
  | cons s' rest' =>
    rw [Stmt.allBare, List.cons.injEq] at h
    exact ⟨s', rest', rfl, h⟩

theorem exists_of_allBare_cons' {es rest : List Expr} {e : Expr}
    (h : Expr.allBare es = e :: rest) :
    ∃ e' rest', es = e' :: rest' ∧ e'.bare = e ∧ Expr.allBare rest' = rest := by
  cases es with
  | nil => rw [Expr.allBare] at h; cases h
  | cons e' rest' =>
    rw [Expr.allBare, List.cons.injEq] at h
    exact ⟨e', rest', rfl, h⟩

theorem exists_of_bare_ident {e : Expr} {name : Bytes} {span : Span}
    (h : e.bare = .ident name span) : ∃ span', e = .ident name span' := by
  cases e <;> simp only [Expr.bare, Expr.ident.injEq, reduceCtorEq] at h
  exact ⟨_, by rw [h.1]⟩

theorem exists_of_bare_letVar {s : Stmt} {name : Bytes} {nameSpan span : Span} {type : Option Ty}
    {value : Expr} (h : s.bare = .letVar name nameSpan type value span) :
    ∃ nameSpan' e span', s = .letVar name nameSpan' type e span' ∧ e.bare = value := by
  cases s <;> simp only [Stmt.bare, Stmt.letVar.injEq, reduceCtorEq] at h
  obtain ⟨rfl, -, rfl, hvalue, -⟩ := h
  exact ⟨_, _, _, rfl, hvalue⟩

theorem exists_of_bare_call {s : Stmt} {name : Bytes} {nameSpan callSpan span : Span}
    {args : List Expr} (h : s.bare = .call name nameSpan args callSpan span) :
    ∃ nameSpan' es callSpan' span', s = .call name nameSpan' es callSpan' span' ∧
      Expr.allBare es = args := by
  cases s <;> simp only [Stmt.bare, Stmt.call.injEq, reduceCtorEq] at h
  obtain ⟨rfl, -, hargs, -, -⟩ := h
  exact ⟨_, _, _, _, rfl, hargs⟩

theorem exists_of_allBare (h : Stmt.allBare p = v.echoed) :
    ∃ e nameSpan span nameSpan' argSpan callSpan span', e.bare = v.expr ∧
      p = [.letVar (utf8 "x") nameSpan (some v.type) e span,
        .call (utf8 "print") nameSpan' [.ident (utf8 "x") argSpan] callSpan span'] := by
  unfold echoed at h
  obtain ⟨s, rest, rfl, hs, hrest⟩ := exists_of_allBare_cons h
  obtain ⟨s', rest', rfl, hs', hrest'⟩ := exists_of_allBare_cons hrest
  obtain ⟨nameSpan, e, span, rfl, he⟩ := exists_of_bare_letVar hs
  obtain ⟨nameSpan', args, callSpan, span', rfl, hargs⟩ := exists_of_bare_call hs'
  obtain ⟨arg, args', rfl, harg, hargs'⟩ := exists_of_allBare_cons' hargs
  obtain ⟨argSpan, rfl⟩ := exists_of_bare_ident harg
  cases rest' with
  | cons s'' rest' => simp [Stmt.allBare] at hrest'
  | nil =>
    cases args' with
    | cons arg' args' => simp [Expr.allBare] at hargs'
    | nil => exact ⟨e, nameSpan, span, nameSpan', argSpan, callSpan, span', he, rfl⟩

/-- The program gives the variable the value and writes it once, in two steps. -/
theorem endsIn_echoed (hv : v.Typed) (hs : v.Stringless) (hp : Stmt.allBare p = v.echoed)
    {b : Budget} (hb : b.steps ≤ 0 ∨ 2 ≤ b.steps) {input : Input} {output out : Sink}
    (hcancelled : b.cancelled { input, output } = none)
    (hwrite : output.write v.render = (.ok (), out)) :
    Machine.EndsIn b p { input, output }
      (.ok () { globals := [(utf8 "x", ⟨v.type, v⟩)], steps := 2, input, output := out }) := by
  obtain ⟨e, nameSpan, span, nameSpan', argSpan, callSpan, span', he, rfl⟩ := exists_of_allBare hp
  obtain ⟨n, hn⟩ := Exec.evaluates_of_bare hv hs he
  refine ⟨rfl, n + 7, fun fuel hfuel => ?_⟩
  obtain ⟨f, rfl⟩ := Nat.exists_eq_add_of_le' (show 7 ≤ fuel by omega)
  let m₁ : Machine := { input, output, steps := 1 }
  let m₂ : Machine := m₁.declare (utf8 "x") v
  let m₃ : Machine := { m₂ with steps := 2 }
  have hfirst : Exec.tick b span { input, output } = .ok () m₁ :=
    Exec.tick_of_free (hb.imp_right (Int64.le_trans (show Int64.ofNat 1 ≤ 2 by decide)))
      (show .ofNat (0 + 1) % cancelInterval ≠ 0 by decide)
  have hsecond : Exec.tick b span' m₂ = .ok () m₃ :=
    Exec.tick_of_free hb (show .ofNat (1 + 1) % cancelInterval ≠ 0 by decide)
  have hlet : Exec.stmt b (f + 6) (.letVar (utf8 "x") nameSpan (some v.type) e span)
      { input, output } = .ok .next m₂ :=
    Exec.stmt_letVar hfirst (hn (f + 5) (by omega) b m₁)
  have hslot : m₃.slot? (utf8 "x") = some ⟨v.type, v⟩ := rfl
  have hprint : Exec.stmt b (f + 5)
      (.call (utf8 "print") nameSpan' [.ident (utf8 "x") argSpan] callSpan span') m₂ =
      .ok .next { m₃ with output := out } := Exec.stmt_print hsecond hslot hwrite
  have hblock : Exec.block b (f + 7) [.letVar (utf8 "x") nameSpan (some v.type) e span,
      .call (utf8 "print") nameSpan' [.ident (utf8 "x") argSpan] callSpan span']
      { input, output } = .ok .next { m₃ with output := out } := by
    rw [Exec.block, bind_eq_of_ok hlet]
    show Exec.block b (f + 6) _ m₂ = _
    rw [Exec.block, bind_eq_of_ok hprint]
    show Exec.block b (f + 5) _ _ = _
    rw [Exec.block]
    rfl
  rw [Machine.run_of_not_cancelled hcancelled, hblock]
  rfl

/-- Printed values and types read back. For a value made of integers, truth values and vectors of
any nesting, the program made of its type and its printing is accepted, gives the variable just that
value and writes just that text, unless the least integer is in it: then the text has no tokens,
because that integer has no literal. -/
theorem printed_values_read_back (hv : v.Typed) (hs : v.Stringless) :
    (.int Int64.minValue ∉ v.scalars ↔ ∃ p, Program.ofSource v.echo = .ok p ∧
      ∀ (b : Budget) (input : Input) (output out : Sink), b.steps ≤ 0 ∨ 2 ≤ b.steps →
        b.cancelled { input, output } = none → output.write v.render = (.ok (), out) →
        out.text = output.text ++ v.render ∧ Machine.EndsIn b p { input, output }
          (.ok () { globals := [(utf8 "x", ⟨v.type, v⟩)], steps := 2, input, output := out })) ∧
    (.int Int64.minValue ∈ v.scalars ↔ ∃ d, Program.ofSource v.echo = .error d ∧
      Token.lex v.echo = .error d ∧ d.notice.key = utf8 "E0001" ∧
      d.notice.message = utf8 "integer literal is too large") := by
  by_cases hmin : .int Int64.minValue ∈ v.scalars
  · obtain ⟨span, hlex⟩ := refuses_echo hv hs hmin
    have hparse : Program.ofSource v.echo = .error ⟨.literalTooLarge, span⟩ := by
      unfold Program.ofSource
      rw [hlex]
      rfl
    refine ⟨⟨absurd hmin, ?_⟩, ⟨fun _ => ⟨_, hparse, hlex, rfl, rfl⟩, fun _ => hmin⟩⟩
    rintro ⟨p, hp, -⟩
    rw [hparse] at hp
    cases hp
  · obtain ⟨p, hp, hbare⟩ := exists_of_echo hv hs hmin
    refine ⟨⟨fun _ => ⟨p, hp, ?_⟩, fun _ => hmin⟩, ⟨(absurd · hmin), ?_⟩⟩
    · intro b input output out hb hcancelled hwrite
      exact ⟨Sink.text_write hwrite, endsIn_echoed hv hs hbare hb hcancelled hwrite⟩
    · rintro ⟨d, hparse, -⟩
      rw [hp] at hparse
      cases hparse

/-- Nested vectors, one of them empty, read back; the least integer does not. -/
theorem nested_vectors_read_back :
    let nested : Value := .vec Ty.int.vecOf [.vec .int [.int (-5), .int 3], .vec .int []]
    let least : Value := .vec .int [.int Int64.minValue]
    nested.echo = utf8 "let x: vec<vec<int>> = [[-5, 3], []]; print(x);" ∧
    (∃ p, Program.ofSource nested.echo = .ok p ∧ Machine.EndsIn {} p {} (.ok () {
      globals := [(utf8 "x", ⟨nested.type, nested⟩)], steps := 2,
      output := ((Sink.empty none).write (utf8 "[[-5, 3], []]")).2 })) ∧
    ∃ d, Program.ofSource least.echo = .error d := by
  intro nested least
  have hknown : Ty.int.Known := Scalar.noConfusion
  have hempty : (Value.vec .int []).Typed := .empty hknown
  have hpair : (Value.vec .int [.int (-5), .int 3]).Typed :=
    (hempty.cons (.int 3) rfl).cons (.int _) rfl
  have hnone : (Value.vec Ty.int.vecOf []).Typed := .empty hknown
  have hnested : nested.Typed := (hnone.cons hempty rfl).cons hpair rfl
  have hleast : least.Typed := hempty.cons (.int _) rfl
  have hstrings : nested.Stringless := fun s hin => by simp [nested, scalars, allScalars] at hin
  have hstrings' : least.Stringless := fun s hin => by simp [least, scalars, allScalars] at hin
  have hmin : Value.int Int64.minValue ∉ nested.scalars := by
    simp only [nested, scalars, allScalars, List.append_nil, List.mem_cons, Value.int.injEq,
      List.cons_append, List.nil_append, List.not_mem_nil, or_false]
    decide
  obtain ⟨p, hp, hends⟩ := (printed_values_read_back hnested hstrings).1.1 hmin
  obtain ⟨d, hd, -⟩ := (printed_values_read_back hleast hstrings').2.1 List.mem_cons_self
  refine ⟨by decide +kernel, ⟨p, hp, ?_⟩, d, hd⟩
  exact (hends {} {} (.empty none) _ (.inl (Int64.le_refl 0)) rfl rfl).2

end Value

end Scriptlet
