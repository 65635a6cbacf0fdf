import Scriptlet.Proofs.Machine.Evaluation
import Scriptlet.Proofs.Machine.Lifetime

/-!
# Element: assignments to an item of a vector

An element assignment takes the items of its variable first, evaluates the index and the value next,
and then stores the items it took with one of them set, or with one added. What the index and the
value may have done to the variable in between is overwritten: the assignment is an update of what
the variable holds then exactly if all other items are still those that were taken.
-/

namespace Scriptlet

/-- The second list is the first with `w` at index `i`: in the place of the item there, or added
where the list ends. -/
inductive Updated : List Value → Nat → Value → List Value → Prop
  | set {items : List Value} {i : Nat} (h : i < items.length) (w : Value) :
    Updated items i w (items.set i w)
  | push (items : List Value) (w : Value) : Updated items items.length w (items ++ [w])

namespace Updated

variable {items items' stored : List Value} {i : Nat} {w : Value}

theorem iff_take_drop : Updated items i w stored ↔
    i ≤ items.length ∧ stored = items.take i ++ w :: items.drop (i + 1) := by
  constructor
  · intro h
    cases h with
    | set h w => exact ⟨Nat.le_of_lt h, List.set_eq_take_append_cons_drop.trans (if_pos h)⟩
    | push =>
      exact ⟨Nat.le_refl _, by rw [List.take_length, List.drop_eq_nil_of_le (Nat.le_succ _)]⟩
  · rintro ⟨hle, rfl⟩
    rcases Nat.lt_or_eq_of_le hle with h | rfl
    · have hset := Updated.set h w
      rw [List.set_eq_take_append_cons_drop, if_pos h] at hset
      exact hset
    · have hpush := Updated.push items w
      rw [List.take_length, List.drop_eq_nil_of_le (Nat.le_succ _)]
      exact hpush

/-- An update of one list is an update of another exactly if they have the same other items. -/
theorem iff_eraseIdx (h : Updated items i w stored) :
    Updated items' i w stored ↔ i ≤ items'.length ∧ items'.eraseIdx i = items.eraseIdx i := by
  obtain ⟨hle, rfl⟩ := iff_take_drop.1 h
  rw [iff_take_drop, List.eraseIdx_eq_take_drop_succ, List.eraseIdx_eq_take_drop_succ]
  refine and_congr_right fun hle' => ?_
  have hlength : (items.take i).length = (items'.take i).length := by
    rw [List.length_take_of_le hle, List.length_take_of_le hle']
  constructor
  · intro heq
    obtain ⟨htake, hdrop⟩ := List.append_inj heq hlength
    rw [htake, (List.cons.inj hdrop).2]
  · intro heq
    obtain ⟨htake, hdrop⟩ := List.append_inj heq hlength.symm
    rw [htake, hdrop]

end Updated

/-! ## What an assignment does to the slots -/

namespace Scope

theorem find?_assign_self {name : Bytes} {slot : Slot} {s : Scope} (h : s.find? name = some slot)
    (v : Value) : (s.assign name v).find? name = some { slot with value := v } := by
  induction s with
  | nil => cases h
  | cons b rest ih =>
    obtain ⟨n, old⟩ := b
    rw [find?] at h
    rw [assign]
    by_cases hn : n = name
    · rw [if_pos hn] at h ⊢
      cases h
      rw [find?, if_pos hn]
    · rw [if_neg hn] at h ⊢
      rw [find?, if_neg hn]
      exact ih h

theorem find?_assign_of_ne {name other : Bytes} (h : other ≠ name) (v : Value) (s : Scope) :
    (s.assign name v).find? other = s.find? other := by
  induction s with
  | nil => rfl
  | cons b rest ih =>
    obtain ⟨n, old⟩ := b
    rw [assign, find?]
    by_cases hn : n = name
    · have hother : n ≠ other := fun he => h (he.symm.trans hn)
      rw [if_pos hn, if_neg hother, find?, if_neg hother]
    · rw [if_neg hn, find?, ih]

end Scope

namespace Machine

variable {m : Machine} {name : Bytes}

theorem slot?_assign_self {slot : Slot} (h : m.slot? name = some slot) (v : Value) :
    (m.assign name v).slot? name = some { slot with value := v } := by
  cases hm : m.locals with
  | none =>
    simp only [slot?, hm] at h
    simp only [assign, slot?, hm]
    exact Scope.find?_assign_self h v
  | some own =>
    cases hown : own.find? name with
    | none =>
      simp only [slot?, hm, hown] at h
      simp only [assign, slot?, hm, hown]
      exact Scope.find?_assign_self h v
    | some held =>
      simp only [slot?, hm, hown] at h
      cases h
      simp only [assign, slot?, hm, hown, Scope.find?_assign_self hown v]

theorem slot?_assign_of_ne {other : Bytes} (h : other ≠ name) (v : Value) (m : Machine) :
    (m.assign name v).slot? other = m.slot? other := by
  have hfind (s : Scope) := Scope.find?_assign_of_ne h v s
  cases hm : m.locals with
  | none => simp only [assign, slot?, hm, hfind]
  | some own =>
    cases hown : own.find? name with
    | none => simp only [assign, slot?, hm, hown, hfind]
    | some held => simp only [assign, slot?, hm, hown, hfind]

end Machine

/-! ## The stages of an element assignment -/

/-- What an element assignment looks at on its way. -/
structure ElementWrite where
  /-- The machine once the step of the statement was counted. -/
  begun : Machine
  /-- The items of the variable on that machine. -/
  captured : List Value
  /-- The machine once the index and the value were evaluated, the index first. -/
  ready : Machine
  /-- The items of the variable on that machine. -/
  present : List Value
  elem : Ty
  index : Nat
  item : Value
  /-- The items that are stored. -/
  stored : List Value

/-- The assignment, begun on `m`, completes on `n` through these stages. -/
structure ElementWrite.Takes (x : ElementWrite) (budget : Budget) (name : Bytes)
    (place value : Expr) (span : Span) (m n : Machine) : Prop where
  tick : Exec.tick budget span m = .ok () x.begun
  captured : x.begun.slot? name = some ⟨x.elem.vecOf, .vec x.elem x.captured⟩
  operands : ∃ (i : Int64) (k : Machine), i.toInt = x.index ∧
    place.EndsIn budget none x.begun (.ok (.int i) k) ∧
    value.EndsIn budget (some x.elem) k (.ok x.item x.ready)
  type : x.item.type = x.elem
  present : x.ready.slot? name = some ⟨x.elem.vecOf, .vec x.elem x.present⟩
  updated : Updated x.captured x.index x.item x.stored
  assigned : n = x.ready.assign name (.vec x.elem x.stored)
  stored : n.slot? name = some ⟨x.elem.vecOf, .vec x.elem x.stored⟩
  others : ∀ y, y ≠ name → n.slot? y = x.ready.slot? y

namespace Exec

variable {b : Budget} {name : Bytes} {place value : Expr} {span : Span} {m k n : Machine}
  {elem : Ty} {items : List Value} {i : Int64} {w changed : Value}

theorem of_setItem_ok (h : setItem place value elem items i w m = .ok changed k) :
    k = m ∧ w.type = elem ∧ ∃ j : Nat, i.toInt = j ∧
      ∃ stored, changed = .vec elem stored ∧ Updated items j w stored := by
  unfold setItem at h
  split at h
  · cases h
  · rename_i hbounds
    have hneg : 0 ≤ i.toInt := by
      have hnot : ¬ i < 0 := fun h => hbounds (.inl h)
      rw [Int64.lt_iff_toInt_lt, Int64.toInt_zero] at hnot
      omega
    split at h
    · cases h
    · rename_i htype
      have hindex : i.toInt = (i.toInt.toNat : Int) := by omega
      split at h
      · rename_i hend
        cases h
        refine ⟨rfl, Decidable.not_not.1 htype, _, hindex, _, rfl, ?_⟩
        rw [hend]
        exact .push items w
      · rename_i hend
        have hlt : i.toInt.toNat < items.length := by omega
        simp only [Value.with?, hlt, ↓reduceIte] at h
        cases h
        exact ⟨rfl, Decidable.not_not.1 htype, _, hindex, _, rfl, .set hlt w⟩

/-- On a sound machine, an element assignment that completes went through all of its stages. -/
theorem exists_elementWrite {fuel : Nat} {flow : Flow} (hm : m.Sound)
    (h : stmt b fuel (.assignAt name place value span) m = .ok flow n) :
    ∃ x : ElementWrite, x.Takes b name place value span m n := by
  cases fuel with
  | zero => rw [stmt_zero] at h; cases h
  | succ fuel =>
    rw [stmt] at h
    obtain ⟨⟨⟩, begun, htick, h⟩ := exists_of_bind_ok h
    rw [bind_eq_of_ok (rfl : (get : Exec Machine) begun = .ok begun begun)] at h
    have hbegun : begun.Sound := ((safe_tick b span).of_ok hm htick).2
    cases hslot : begun.slot? name with
    | none => rw [hslot] at h; cases h
    | some slot =>
      rw [hslot] at h
      obtain ⟨type, held⟩ := slot
      have htyped := hbegun.slot? hslot
      cases held with
      | int _ | str _ | bool _ => cases h
      | vec elem captured =>
        obtain rfl : elem.vecOf = type := htyped.agrees
        obtain ⟨v, k, hplace, h⟩ := exists_of_bind_ok h
        obtain ⟨-, hk⟩ := ((soundAt b fuel).eval none place known_of_mem_none).of_ok hbegun hplace
        have hframe := ((frameAt b fuel).eval none place begun).of_ok hplace
        cases v with
        | str _ | bool _ | vec _ _ => cases h
        | int i =>
          obtain ⟨w, ready, hvalue, h⟩ := exists_of_bind_ok h
          have hhint := known_of_mem_some htyped.value.elem_known
          obtain ⟨-, hready⟩ := ((soundAt b fuel).eval _ value hhint).of_ok hk hvalue
          have hframe' := ((frameAt b fuel).eval (some elem) value k).of_ok hvalue
          obtain ⟨changed, l, hset, h⟩ := exists_of_bind_ok h
          cases h
          obtain ⟨rfl, htype, j, hj, stored, rfl, hupdated⟩ := of_setItem_ok hset
          -- The variable still holds a vector of this type, whatever its items are by now.
          obtain ⟨present, hpresent⟩ :
              ∃ present, l.slot? name = some ⟨elem.vecOf, .vec elem present⟩ := by
            have hrecorded := (hframe.trans hframe').typeOf_slot? name
            rw [hslot] at hrecorded
            obtain ⟨⟨type, held⟩, hnow, rfl⟩ := Option.map_eq_some_iff.1 hrecorded
            obtain ⟨present, rfl⟩ := Value.type_eq_vecOf_iff.1 (hready.slot? hnow).agrees
            exact ⟨present, hnow⟩
          exact ⟨⟨begun, captured, l, present, elem, j, w, stored⟩, htick, hslot,
            ⟨i, k, hj, Expr.endsIn_of_eq hplace rfl, Expr.endsIn_of_eq hvalue rfl⟩, htype,
            hpresent, hupdated, rfl, Machine.slot?_assign_self hpresent _,
            fun y hy => Machine.slot?_assign_of_ne hy _ _⟩

end Exec

/-! ## Updates and lost updates -/

/-- The moment is one of a run of a parsed program, in a session of such programs. -/
def Moment.Reached (budget : Budget) (mo : Moment) : Prop :=
  ∃ m source p fuel, Machine.Reached m ∧ Program.ofSource source = .ok p ∧
    Moment.LeadsTo budget (.start fuel p m) mo

theorem Moment.Reached.sound {budget : Budget} {mo : Moment} (h : mo.Reached budget) :
    mo.Sound := by
  obtain ⟨m, source, p, fuel, hm, hp, hlead⟩ := h
  have hstart : (Moment.start fuel p m).Sound :=
    ⟨hm.sound, ⟨_, Program.allPlaced_of_ofSource hp⟩, fun own hown => by cases hown⟩
  exact hstart.leadsTo hlead

/-- At every moment of every session, an element assignment that completes stores the items that the
variable held when it began, with the item at the index set or added, and leaves all other variables
as the index and the value left them. This is an update of what the variable held by then exactly if
the index is still within its length and all other items are still the same. -/
theorem element_assignment_updates_captured {budget : Budget} {mo : Moment}
    (hmo : mo.Reached budget) {fuel : Nat} {name : Bytes} {place value : Expr} {span : Span}
    {flow : Flow} {n : Machine}
    (hstmt : Exec.stmt budget fuel (.assignAt name place value span) mo.machine = .ok flow n) :
    ∃ x : ElementWrite, x.Takes budget name place value span mo.machine n ∧
      (Updated x.present x.index x.item x.stored ↔
        x.index ≤ x.present.length ∧ x.present.eraseIdx x.index = x.captured.eraseIdx x.index) := by
  obtain ⟨x, hx⟩ := Exec.exists_elementWrite hmo.sound.machine hstmt
  exact ⟨x, hx, hx.updated.iff_eraseIdx⟩

/-! ## A value that overwrites the variable

In `let v=[1]; fn f()->int{ v=[2]; return 3; } v[1]=f();` the items of `v` are taken before the call
replaces them. -/

namespace Overwriting

def tokens : List Token :=
  [⟨.kLet, [], ⟨0, 3⟩⟩, ⟨.ident, [118], ⟨4, 5⟩⟩, ⟨.assign, [], ⟨5, 6⟩⟩, ⟨.lbracket, [], ⟨6, 7⟩⟩,
    ⟨.int, [49], ⟨7, 8⟩⟩, ⟨.rbracket, [], ⟨8, 9⟩⟩, ⟨.semicolon, [], ⟨9, 10⟩⟩,
    ⟨.kFn, [], ⟨11, 13⟩⟩, ⟨.ident, [102], ⟨14, 15⟩⟩, ⟨.lparen, [], ⟨15, 16⟩⟩,
    ⟨.rparen, [], ⟨16, 17⟩⟩, ⟨.arrow, [], ⟨17, 19⟩⟩, ⟨.ident, [105, 110, 116], ⟨19, 22⟩⟩,
    ⟨.lcurly, [], ⟨22, 23⟩⟩, ⟨.ident, [118], ⟨24, 25⟩⟩, ⟨.assign, [], ⟨25, 26⟩⟩,
    ⟨.lbracket, [], ⟨26, 27⟩⟩, ⟨.int, [50], ⟨27, 28⟩⟩, ⟨.rbracket, [], ⟨28, 29⟩⟩,
    ⟨.semicolon, [], ⟨29, 30⟩⟩, ⟨.kReturn, [], ⟨31, 37⟩⟩, ⟨.int, [51], ⟨38, 39⟩⟩,
    ⟨.semicolon, [], ⟨39, 40⟩⟩, ⟨.rcurly, [], ⟨41, 42⟩⟩, ⟨.ident, [118], ⟨43, 44⟩⟩,
    ⟨.lbracket, [], ⟨44, 45⟩⟩, ⟨.int, [49], ⟨45, 46⟩⟩, ⟨.rbracket, [], ⟨46, 47⟩⟩,
    ⟨.assign, [], ⟨47, 48⟩⟩, ⟨.ident, [102], ⟨48, 49⟩⟩, ⟨.lparen, [], ⟨49, 50⟩⟩,
    ⟨.rparen, [], ⟨50, 51⟩⟩, ⟨.semicolon, [], ⟨51, 52⟩⟩, ⟨.eof, [], ⟨52, 52⟩⟩]

def body : List Stmt :=
  [.assign [118] (.vec [.int 2 ⟨27, 28⟩] ⟨26, 29⟩) ⟨24, 30⟩,
    .ret (some (.int 3 ⟨38, 39⟩)) ⟨31, 40⟩]

def declaration : Stmt := .letVar [118] ⟨4, 5⟩ none (.vec [.int 1 ⟨7, 8⟩] ⟨6, 9⟩) ⟨0, 10⟩

def function : Stmt := .fn [102] [] (some .int) body ⟨22, 42⟩ ⟨11, 42⟩

def place : Expr := .int 1 ⟨45, 46⟩

def value : Expr := .call [102] ⟨48, 49⟩ [] ⟨48, 51⟩

def assignment : Stmt := .assignAt [118] place value ⟨43, 52⟩

def f : Bytes × Function := ([102], ⟨[], some .int, body⟩)

/-- The machine with the given items, with and without the function, after some steps. -/
def machine (functions : List (Bytes × Function)) (items : List Value) (steps : Nat) : Machine :=
  { globals := [([118], ⟨Ty.int.vecOf, .vec .int items⟩)], functions, steps }

end Overwriting

open Overwriting in
/-- The last statement of the program. -/
theorem exists_overwriting_moment :
    ∃ (mo : Moment) (place value : Expr) (span : Span) (x : ElementWrite) (n : Machine),
      mo.Reached {} ∧
        Exec.stmt {} mo.fuel (.assignAt (utf8 "v") place value span) mo.machine = .ok .next n ∧
        x.Takes {} (utf8 "v") place value span mo.machine n ∧ x.index = 1 ∧ x.item = .int 3 ∧
        x.captured = [.int 1] ∧ x.present = [.int 2] := by
  have hlex : Token.lex (utf8 "let v=[1]; fn f()->int{ v=[2]; return 3; } v[1]=f();") =
      .ok tokens := rfl
  have hparse : Program.parse tokens = .ok [declaration, function, assignment] := rfl
  have hp : Program.ofSource (utf8 "let v=[1]; fn f()->int{ v=[2]; return 3; } v[1]=f();") =
      .ok [declaration, function, assignment] := by
    unfold Program.ofSource
    rw [hlex]
    exact hparse
  have hdeclared : Exec.stmt {} 29 declaration {} = .ok .next (machine [] [.int 1] 1) := rfl
  have hdefined :
      Exec.stmt {} 28 function (machine [] [.int 1] 1) = .ok .next (machine [f] [.int 1] 2) := rfl
  have hassigned : Exec.stmt {} 27 assignment (machine [f] [.int 1] 2) =
      .ok .next (machine [f] [.int 1, .int 3] 5) := rfl
  have hlead : Moment.LeadsTo {} (.start 30 [declaration, function, assignment] {})
      ⟨28, .block [assignment], machine [f] [.int 1] 2, []⟩ :=
    .tail (.tail .refl (.part (.otherStmts hdeclared))) (.part (.otherStmts hdefined))
  have hreached : Moment.Reached {} ⟨27, .stmt assignment, machine [f] [.int 1] 2, []⟩ :=
    ⟨{}, _, _, 30, .new {} (.empty none), hp, hlead.tail (.part .firstStmt)⟩
  refine ⟨_, place, value, ⟨43, 52⟩, ⟨machine [f] [.int 1] 3, [.int 1], machine [f] [.int 2] 5,
    [.int 2], .int, 1, .int 3, [.int 1, .int 3]⟩, _, hreached, hassigned, ?_, rfl, rfl, rfl, rfl⟩
  constructor
  case tick => rfl
  case captured => rfl
  case operands =>
    have hplace : Exec.eval {} 9 none place (machine [f] [.int 1] 3) =
        .ok (.int 1) (machine [f] [.int 1] 3) := rfl
    have hvalue : Exec.eval {} 9 (some .int) value (machine [f] [.int 1] 3) =
        .ok (.int 3) (machine [f] [.int 2] 5) := rfl
    exact ⟨1, _, rfl, Expr.endsIn_of_eq hplace rfl, Expr.endsIn_of_eq hvalue rfl⟩
  case type => rfl
  case present => rfl
  case updated => exact .push [.int 1] (.int 3)
  case assigned => rfl
  case stored => rfl
  case others =>
    exact fun y hy =>
      Machine.slot?_assign_of_ne hy (.vec .int [.int 1, .int 3]) (machine [f] [.int 2] 5)

theorem overwriting_updates_captured :
    ∃ (mo : Moment) (place value : Expr) (span : Span) (n : Machine) (x : ElementWrite),
      mo.Reached {} ∧ x.Takes {} (utf8 "v") place value span mo.machine n ∧
        (Updated x.present x.index x.item x.stored ↔ x.index ≤ x.present.length ∧
          x.present.eraseIdx x.index = x.captured.eraseIdx x.index) := by
  obtain ⟨mo, place, value, span, -, n, hmo, hstmt, -⟩ := exists_overwriting_moment
  obtain ⟨x, hx⟩ := element_assignment_updates_captured hmo hstmt
  exact ⟨mo, place, value, span, n, x, hmo, hx⟩

/-- What is stored need not be an update of what the variable held when the index and the value had
been evaluated. -/
theorem update_by_the_value_is_lost :
    ∃ (mo : Moment) (place value : Expr) (span : Span) (n : Machine) (x : ElementWrite),
      mo.Reached {} ∧
        Exec.stmt {} mo.fuel (.assignAt (utf8 "v") place value span) mo.machine = .ok .next n ∧
        x.Takes {} (utf8 "v") place value span mo.machine n ∧
        ¬ Updated x.present x.index x.item x.stored := by
  obtain ⟨mo, place, value, span, x, n, hmo, hstmt, hx, hindex, -, hcaptured, hpresent⟩ :=
    exists_overwriting_moment
  refine ⟨mo, place, value, span, n, x, hmo, hstmt, hx, fun hupdated => ?_⟩
  have hothers := (hx.updated.iff_eraseIdx.1 hupdated).2
  rw [hindex, hcaptured, hpresent] at hothers
  -- The first item is 2 by then, and 1 was stored.
  cases hothers

end Scriptlet
