import Scriptlet.Proofs.Value.Typed

/-!
# Order: the values of a type are totally ordered

Integers are ordered as integers, strings by their bytes, false comes before true, and vectors are
ordered by their first differing items, a proper beginning coming first. On the values of one type
this is a total order, in which equal values are the same; between types there is none. For that the
items of a vector must really have the type it carries: items of different types would count as
equal.

The induction is on the levels of the type: a scalar type is ordered as its words, strings or truth
values are, and a vector type as the lists over the type one level down.
-/

namespace Scriptlet

theorem Bytes.order_eq_compare (s t : Bytes) : order s t = compare s t := by
  induction s generalizing t with
  | nil => cases t <;> rfl
  | cons b s ih =>
    cases t with
    | nil => rfl
    | cons c t =>
      rw [order, List.compare_cons_cons, ih]
      change _ = Ordering.then (compareOfLessAndEq b c) _
      unfold compareOfLessAndEq
      by_cases hlt : b < c
      · simp [hlt]
      · by_cases heq : b = c
        · simp [heq]
        · have hgt : c < b := by grind
          simp [hlt, heq, hgt]

namespace Value

theorem orderInt_eq_compare (a b : Int64) : orderInt a b = compare a b := by
  change _ = compareOfLessAndEq a b
  unfold orderInt compareOfLessAndEq
  grind

theorem orderBool_eq_compare (a b : Bool) : orderBool a b = compare a b := by
  cases a <;> cases b <;> rfl

/-- The value has the type, and so have its items, and theirs, the types one level further down. -/
inductive HasType : Value → Ty → Prop
  | int (n : Int64) : HasType (.int n) .int
  | str (s : Bytes) : HasType (.str s) .str
  | bool (b : Bool) : HasType (.bool b) .bool
  | vec {t : Ty} {items : List Value} (h : ∀ v ∈ items, HasType v t) :
    HasType (.vec t items) t.vecOf

theorem HasType.type_eq {v : Value} {t : Ty} (h : v.HasType t) : v.type = t := by
  cases h <;> rfl

theorem HasType.of_mem {elem t : Ty} {items : List Value} (h : HasType (.vec elem items) t) :
    ∀ v ∈ items, v.HasType elem := by
  cases h with
  | vec h => exact h

theorem not_hasType_invalid (v : Value) : ¬ v.HasType .invalid := by
  intro h
  have htype := h.type_eq
  cases v with
  | int | str | bool => cases htype
  | vec => exact Nat.noConfusion (congrArg Ty.dims htype)

/-- The values of a type. -/
abbrev Of (t : Ty) := { v : Value // v.HasType t }

/-- The order of the values of a type, of which any two can be compared. -/
def Of.order {t : Ty} (a b : Of t) : Ordering := (order? a.1 b.1).getD .eq

theorem Of.order?_eq {t : Ty} (a b : Of t) : order? a.1 b.1 = some (a.order b) := by
  have htype : a.1.type = b.1.type := a.2.type_eq.trans b.2.type_eq.symm
  obtain ⟨o, ho⟩ := Option.isSome_iff_exists.1 ((order?_isSome_iff a.1 b.1).2 htype)
  rw [Of.order, ho]
  rfl

theorem Of.order_eq_of {t : Ty} {a b : Of t} {o : Ordering} (h : order? a.1 b.1 = some o) :
    a.order b = o := by
  rw [Of.order, h]
  rfl

/-- The lists of values are ordered as the lists over the type are. -/
theorem orderItems_eq_compareLex {t : Ty} (xs ys : List (Of t)) :
    orderItems (xs.map Subtype.val) (ys.map Subtype.val) = List.compareLex Of.order xs ys := by
  induction xs generalizing ys with
  | nil =>
    cases ys with
    | nil => rw [List.compareLex_nil_nil]; rfl
    | cons y ys => rw [List.compareLex_nil_cons]; rfl
  | cons x xs ih =>
    cases ys with
    | nil => rw [List.compareLex_cons_nil]; rfl
    | cons y ys =>
      rw [List.map_cons, List.map_cons, orderItems, List.compareLex_cons_cons, ih, x.order?_eq y]
      cases x.order y <;> rfl

/-! ## The laws, level by level -/

/-- Every value of the type shows as an element of `β`, different values as different elements, and
in the order that the elements have. -/
structure Shows {t : Ty} {β : Type} (cmp : β → β → Ordering) (shows : Of t → β → Prop) :
    Prop where
  total : ∀ a, ∃ x, shows a x
  inj : ∀ {a b x}, shows a x → shows b x → a = b
  order : ∀ {a b x y}, shows a x → shows b y → a.order b = cmp x y

/-- The order of the type is a total one, in which equal values are the same. -/
structure TotallyOrdered (t : Ty) : Prop where
  trans : Std.TransCmp (α := Of t) Of.order
  lawful : Std.LawfulEqCmp (α := Of t) Of.order

theorem Shows.totallyOrdered {t : Ty} {β : Type} {cmp : β → β → Ordering}
    {shows : Of t → β → Prop} [Std.TransCmp cmp] [Std.LawfulEqCmp cmp] (h : Shows cmp shows) :
    TotallyOrdered t where
  trans.eq_swap {a b} := by
    obtain ⟨x, hx⟩ := h.total a
    obtain ⟨y, hy⟩ := h.total b
    rw [h.order hx hy, h.order hy hx]
    exact Std.OrientedCmp.eq_swap
  trans.isLE_trans {a b c} hab hbc := by
    obtain ⟨x, hx⟩ := h.total a
    obtain ⟨y, hy⟩ := h.total b
    obtain ⟨z, hz⟩ := h.total c
    rw [h.order hx hy] at hab
    rw [h.order hy hz] at hbc
    rw [h.order hx hz]
    exact Std.TransCmp.isLE_trans hab hbc
  lawful.compare_self {a} := by
    obtain ⟨x, hx⟩ := h.total a
    rw [h.order hx hx]
    exact Std.ReflCmp.compare_self
  lawful.eq_of_compare {a b} hab := by
    obtain ⟨x, hx⟩ := h.total a
    obtain ⟨y, hy⟩ := h.total b
    rw [h.order hx hy] at hab
    obtain rfl : x = y := Std.LawfulEqCmp.eq_of_compare hab
    exact h.inj hx hy

theorem shows_int : Shows compare fun (a : Of .int) (n : Int64) => a.1 = .int n where
  total a := type_eq_int_iff.1 a.2.type_eq
  inj ha hb := Subtype.ext (ha.trans hb.symm)
  order {a b x y} ha hb := by
    have hlike : (int x).type = (int y).type := rfl
    apply Of.order_eq_of
    rw [ha, hb, order?, if_pos hlike, orderInt_eq_compare]

theorem shows_str : Shows compare fun (a : Of .str) (s : Bytes) => a.1 = .str s where
  total a := type_eq_str_iff.1 a.2.type_eq
  inj ha hb := Subtype.ext (ha.trans hb.symm)
  order {a b x y} ha hb := by
    have hlike : (str x).type = (str y).type := rfl
    apply Of.order_eq_of
    rw [ha, hb, order?, if_pos hlike, Bytes.order_eq_compare]

theorem shows_bool : Shows compare fun (a : Of .bool) (b : Bool) => a.1 = .bool b where
  total a := type_eq_bool_iff.1 a.2.type_eq
  inj ha hb := Subtype.ext (ha.trans hb.symm)
  order {a b x y} ha hb := by
    have hlike : (bool x).type = (bool y).type := rfl
    apply Of.order_eq_of
    rw [ha, hb, order?, if_pos hlike, orderBool_eq_compare]

theorem order?_vec (t : Ty) (xs ys : List Value) :
    order? (.vec t xs) (.vec t ys) = some (orderItems xs ys) := by
  rw [order?]
  exact if_pos rfl

/-- A vector type is ordered as the lists over the type of its items. -/
theorem shows_vec (t : Ty) : Shows (List.compareLex Of.order)
    fun (a : Of t.vecOf) (items : List (Of t)) => a.1 = .vec t (items.map Subtype.val) where
  total a := by
    obtain ⟨items, hitems⟩ := type_eq_vecOf_iff.1 a.2.type_eq
    have htyped : ∀ v ∈ items, v.HasType t := by
      have ha := a.2
      rw [hitems] at ha
      exact ha.of_mem
    exact ⟨items.attachWith _ htyped, by rw [List.attachWith_map_subtype_val]; exact hitems⟩
  inj ha hb := Subtype.ext (ha.trans hb.symm)
  order ha hb := by
    apply Of.order_eq_of
    rw [ha, hb, order?_vec, orderItems_eq_compareLex]

theorem totallyOrdered (t : Ty) : TotallyOrdered t := by
  obtain ⟨scalar, dims⟩ := t
  induction dims with
  | zero =>
    cases scalar with
    | invalid =>
      -- There are no values of this type, so nothing is needed to show them as numbers.
      have hempty (a : Of .invalid) : False := not_hasType_invalid a.1 a.2
      have hshows : Shows compare fun (_ : Of .invalid) (_ : Nat) => False :=
        ⟨fun a => (hempty a).elim, fun h => h.elim, fun h => h.elim⟩
      exact hshows.totallyOrdered
    | int => exact shows_int.totallyOrdered
    | str => exact shows_str.totallyOrdered
    | bool => exact shows_bool.totallyOrdered
  | succ dims ih =>
    have := ih.trans
    have := ih.lawful
    exact (shows_vec ⟨scalar, dims⟩).totallyOrdered

/-! ## Vectors as words over their items -/

theorem orderItems_eq_lt_iff {t : Ty} {xs ys : List Value} (hx : ∀ v ∈ xs, v.HasType t)
    (hy : ∀ v ∈ ys, v.HasType t) :
    orderItems xs ys = .lt ↔ xs.Lex (fun v w => order? v w = some .lt) ys := by
  have := (totallyOrdered t).lawful
  induction xs generalizing ys with
  | nil =>
    cases ys with
    | nil => exact ⟨nofun, nofun⟩
    | cons y ys => exact ⟨fun _ => .nil, fun _ => rfl⟩
  | cons x xs ih =>
    cases ys with
    | nil => exact ⟨nofun, nofun⟩
    | cons y ys =>
      let x' : Of t := ⟨x, hx x (List.mem_cons_self ..)⟩
      let y' : Of t := ⟨y, hy y (List.mem_cons_self ..)⟩
      have hxy : order? x y = some (x'.order y') := x'.order?_eq y'
      have hrest := ih (fun v hv => hx v (List.mem_cons_of_mem _ hv))
        (fun v hv => hy v (List.mem_cons_of_mem _ hv))
      rw [orderItems, hxy]
      -- The first items decide unless they are the same; a difference cannot be passed over.
      cases ho : x'.order y' with
      | lt =>
        rw [ho] at hxy
        exact ⟨fun _ => .rel hxy, fun _ => rfl⟩
      | eq =>
        have hsame : x = y := congrArg Subtype.val (Std.LawfulEqCmp.eq_of_compare ho)
        subst hsame
        rw [ho] at hxy
        refine ⟨fun h => .cons (hrest.1 h), fun h => ?_⟩
        cases h with
        | rel hlt => rw [hxy] at hlt; cases hlt
        | cons h => exact hrest.2 h
      | gt =>
        rw [ho] at hxy
        refine ⟨nofun, fun h => ?_⟩
        cases h with
        | rel hlt => rw [hxy] at hlt; cases hlt
        | cons h =>
          have hself : x'.order x' = .eq := Std.ReflCmp.compare_self
          rw [hself] at ho
          cases ho

/-! ## Comparing values -/

theorem same_eq_true_iff (a b : Value) : same a b = true ↔ order? a b = some .eq := by
  rw [same, beq_iff_eq]

/-- What comparing values of one type comes to. -/
structure OrderLaws (a b c : Value) : Prop where
  /-- Any two can be compared, and the other way round with the opposite result. -/
  total : ∃ o, order? a b = some o ∧ order? b a = some o.swap
  trans : ∀ o o', order? a b = some o → order? b c = some o' → o.isLE → o'.isLE →
    ∃ o'', order? a c = some o'' ∧ o''.isLE
  same_iff : order? a b = some .eq ↔ same a b = true
  eq_iff : same a b = true ↔ a = b
  /-- The first difference decides between vectors, or else the end of one of them. -/
  lexicographic : ∀ t xs ys, a = .vec t xs → b = .vec t ys →
    (order? a b = some .lt ↔ xs.Lex (fun v w => order? v w = some .lt) ys)

theorem orderLaws {t : Ty} {a b c : Value} (ha : a.HasType t) (hb : b.HasType t)
    (hc : c.HasType t) : OrderLaws a b c := by
  have := (totallyOrdered t).trans
  have := (totallyOrdered t).lawful
  let a' : Of t := ⟨a, ha⟩
  let b' : Of t := ⟨b, hb⟩
  let c' : Of t := ⟨c, hc⟩
  have hab : order? a b = some (a'.order b') := a'.order?_eq b'
  have hba : order? b a = some (b'.order a') := b'.order?_eq a'
  have hbc : order? b c = some (b'.order c') := b'.order?_eq c'
  have hac : order? a c = some (a'.order c') := a'.order?_eq c'
  constructor
  · refine ⟨_, hab, hba.trans ?_⟩
    congr 1
    exact Std.OrientedCmp.eq_swap
  · intro o o' ho ho' hle hle'
    obtain rfl : a'.order b' = o := Option.some.inj (hab.symm.trans ho)
    obtain rfl : b'.order c' = o' := Option.some.inj (hbc.symm.trans ho')
    exact ⟨_, hac, Std.TransCmp.isLE_trans hle hle'⟩
  · exact (same_eq_true_iff a b).symm
  · rw [same_eq_true_iff, hab, Option.some.injEq, Std.LawfulEqCmp.compare_eq_iff_eq]
    exact Subtype.ext_iff
  · rintro u xs ys rfl rfl
    rw [order?_vec, Option.some.injEq]
    exact orderItems_eq_lt_iff ha.of_mem hb.of_mem

/-- On the values of a type, comparing is a total order in which equal values are the same, and
vectors are ordered by their first differing items, a proper beginning coming first. Values of
different types are neither ordered nor equal. -/
theorem order_is_total_on_each_type :
    (∀ (t : Ty) (a b c : Value), a.HasType t → b.HasType t → c.HasType t → OrderLaws a b c) ∧
      ∀ a b : Value, a.type ≠ b.type → order? a b = none ∧ same a b = false := by
  refine ⟨fun t a b c ha hb hc => orderLaws ha hb hc, fun a b h => ?_⟩
  have hnone : order? a b = none := by
    rw [← Option.not_isSome_iff_eq_none, order?_isSome_iff]
    exact h
  refine ⟨hnone, ?_⟩
  rw [← Bool.not_eq_true, same_eq_true_iff, hnone]
  exact nofun

/-- Of `[[1]]`, `[[1], []]` and `[[2]]`, each comes before the next. -/
theorem nested_beginning_comes_first :
    let row (ns : List Int64) : Value := .vec .int (ns.map .int)
    let table (rows : List (List Int64)) : Value := .vec (.vecOf .int) (rows.map row)
    OrderLaws (table [[1]]) (table [[1], []]) (table [[2]]) ∧
      order? (table [[1]]) (table [[1], []]) = some .lt ∧
      order? (table [[1], []]) (table [[2]]) = some .lt ∧
      order? (table [[1]]) (row [1]) = none := by
  intro row table
  have hrow (ns : List Int64) : (row ns).HasType (.vecOf .int) := by
    apply HasType.vec
    intro v hv
    obtain ⟨n, -, rfl⟩ := List.mem_map.1 hv
    exact .int n
  have htable (rows : List (List Int64)) : (table rows).HasType (.vecOf (.vecOf .int)) := by
    apply HasType.vec
    intro v hv
    obtain ⟨ns, -, rfl⟩ := List.mem_map.1 hv
    exact hrow ns
  obtain ⟨hlaws, hnone⟩ := order_is_total_on_each_type
  exact ⟨hlaws _ _ _ _ (htable _) (htable _) (htable _), by decide +kernel, by decide +kernel,
    (hnone (table [[1]]) (row [1]) (by decide)).1⟩

end Value
end Scriptlet
