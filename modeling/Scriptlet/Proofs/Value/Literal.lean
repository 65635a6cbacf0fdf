import Scriptlet.Machine.Execution
import Scriptlet.Proofs.Lexing.Spelling
import Scriptlet.Proofs.Value.Typed

/-!
# Literal: values as they are printed are expressions

A printed value without strings is an expression of the language, and evaluates to that value where
its type is expected. Negative integers are negations of literals, so the one integer whose
magnitude does not fit has no expression.
-/

namespace Scriptlet

open Grammar Lexer

/-! ## Integers in decimal -/

theorem toNat_byte_of_isDigit {c : Char} (h : c.isDigit = true) :
    (byte c).toNat = c.toNat ∧ 48 ≤ c.toNat ∧ c.toNat ≤ 57 := by
  simp only [Char.isDigit, Bool.and_eq_true, decide_eq_true_eq, ge_iff_le,
    UInt32.le_iff_toNat_le] at h
  obtain ⟨hlow, hhigh⟩ : 48 ≤ c.toNat ∧ c.toNat ≤ 57 := h
  refine ⟨?_, hlow, hhigh⟩
  show (c.toNat.toUInt8).toNat = _
  rw [Nat.toUInt8_eq, UInt8.toNat_ofNat']
  exact Nat.mod_eq_of_lt (by omega)

theorem isDigit_of_mem_toDigits {n : Nat} {c : Char} (hc : c ∈ Nat.toDigits 10 n) :
    c.isDigit = true :=
  Nat.isDigit_of_mem_toDigits (by decide) (by decide) hc

theorem digits_decimal (n : Nat) : ∀ b ∈ decimal n, 48 ≤ b ∧ b ≤ 57 := by
  intro b hb
  obtain ⟨c, hc, rfl⟩ := List.mem_map.1 hb
  obtain ⟨hbyte, hlow, hhigh⟩ := toNat_byte_of_isDigit (isDigit_of_mem_toDigits hc)
  rw [UInt8.le_iff_toNat_le, UInt8.le_iff_toNat_le, hbyte]
  exact ⟨hlow, hhigh⟩

theorem decimal_ne_nil (n : Nat) : decimal n ≠ [] := by
  unfold decimal
  rw [ne_eq, List.map_eq_nil_iff]
  exact Nat.toDigits_ne_nil

theorem foldl_map_byte (cs : List Char) (h : ∀ c ∈ cs, c.isDigit = true) (a : Nat) :
    (cs.map byte).foldl (fun n b => 10 * n + (b.toNat - 48)) a = Nat.ofDigitChars 10 cs a := by
  induction cs generalizing a with
  | nil => rfl
  | cons c cs ih =>
    rw [List.map_cons, List.foldl_cons, (toNat_byte_of_isDigit (h c List.mem_cons_self)).1]
    exact ih (fun d hd => h d (List.mem_cons_of_mem c hd)) _

theorem decimalValue_decimal (n : Nat) : decimalValue (decimal n) = n := by
  unfold decimalValue decimal
  rw [foldl_map_byte _ fun c hc => isDigit_of_mem_toDigits hc]
  exact Nat.ofDigitChars_toDigits (by decide) (by decide)

theorem numeral_decimal {n : Nat} (h : n < signedBound) : Numeral (decimal n) :=
  ⟨decimal_ne_nil n, digits_decimal n, by rw [decimalValue_decimal]; exact h⟩

/-! ## Types as they are printed -/

theorem Bytes.times_succ (n : Nat) (s : Bytes) : Bytes.times (n + 1) s = s ++ Bytes.times n s := rfl

theorem Bytes.times_succ' (n : Nat) (s : Bytes) :
    Bytes.times (n + 1) s = Bytes.times n s ++ s := by
  unfold Bytes.times
  rw [List.replicate_succ', List.flatten_append, List.flatten_singleton]

theorem Ty.render_vecOf {t : Ty} (h : t.Known) :
    t.vecOf.render = utf8 "vec<" ++ (t.render ++ utf8 ">") := by
  obtain ⟨scalar, dims⟩ := t
  cases scalar with
  | invalid => exact absurd rfl h
  | int | str | bool =>
    show Bytes.times (dims + 1) _ ++ _ ++ Bytes.times (dims + 1) _ = _ ++ ((_ ++ _ ++ _) ++ _)
    rw [Bytes.times_succ, Bytes.times_succ']
    simp only [List.append_assoc]

/-- The characters that may follow a printed type. -/
def TypeEnd (c : Char) : Prop := continuesWord c = false ∧ c ≠ '='

instance (c : Char) : Decidable (TypeEnd c) := inferInstanceAs (Decidable (_ ∧ _))

theorem pair?_gt {c : Char} (h : c ≠ '=') : pair? '>' c = none := by
  unfold pair?
  split <;> simp_all

theorem pair?_lt {c : Char} (h : c ≠ '=') : pair? '<' c = none := by
  unfold pair?
  split <;> simp_all

theorem spells_gt :
    Spells TypeEnd (utf8 ">") fun ts => ∃ r : Token, ts = [r] ∧ r.kind = .gt := by
  refine ⟨by decide, fun pos rev => ?_⟩
  refine ⟨⟨.sign pos '>', pos + 1, rev⟩, _, [⟨.gt, [], .between pos (pos + 1)⟩], rfl, rfl, rfl,
    ⟨_, rfl, rfl⟩, fun c hc => ?_⟩
  show (pair? '>' c).isSome = false
  rw [pair?_gt hc.2]
  rfl

theorem spells_vec :
    Spells (fun c => c ≠ '=') (utf8 "vec<") fun ts => ∃ w l : Token, ts = [w, l] ∧
      w.kind = .ident ∧ w.literal = utf8 "vec" ∧ l.kind = .lt := by
  refine ⟨by decide, fun pos rev => ?_⟩
  refine ⟨⟨.sign (pos + 3) '<', pos + 4, ⟨.ident, utf8 "vec", .between pos (pos + 3)⟩ :: rev⟩, _,
    [⟨.ident, utf8 "vec", .between pos (pos + 3)⟩, ⟨.lt, [], .between (pos + 3) (pos + 4)⟩],
    rfl, rfl, rfl, ⟨_, _, rfl, rfl, rfl, rfl⟩, fun c hc => ?_⟩
  show (pair? '<' c).isSome = false
  rw [pair?_lt hc]
  rfl

theorem spells_scalar {s : Scalar} (h : s ≠ .invalid) :
    Spells TypeEnd (Ty.mk s 0).render fun ts => TypeForm ts ⟨s, 0⟩ := by
  cases s with
  | invalid => exact absurd rfl h
  | int =>
    refine ⟨by decide, fun pos rev => ⟨⟨.word pos (utf8 "int").reverse, pos + 3, rev⟩, _,
      [⟨.ident, utf8 "int", .between pos (pos + 3)⟩], rfl, rfl, rfl, .int rfl rfl,
      fun c hc => hc.1⟩⟩
  | str =>
    refine ⟨by decide, fun pos rev => ⟨⟨.word pos (utf8 "str").reverse, pos + 3, rev⟩, _,
      [⟨.ident, utf8 "str", .between pos (pos + 3)⟩], rfl, rfl, rfl, .str rfl rfl,
      fun c hc => hc.1⟩⟩
  | bool =>
    refine ⟨by decide, fun pos rev => ⟨⟨.word pos (utf8 "bool").reverse, pos + 4, rev⟩, _,
      [⟨.ident, utf8 "bool", .between pos (pos + 4)⟩], rfl, rfl, rfl, .bool rfl rfl,
      fun c hc => hc.1⟩⟩

theorem Ty.ended_render {t : Ty} (h : t.Known) : Ended (fun c => c ≠ '=') t.render := by
  obtain ⟨scalar, dims⟩ := t
  cases dims with
  | zero =>
    cases scalar with
    | invalid => exact absurd rfl h
    | int | str | bool => exact ⟨_, _, rfl, by decide, by decide⟩
  | succ n =>
    rw [show (⟨scalar, n + 1⟩ : Ty) = Ty.vecOf ⟨scalar, n⟩ from rfl,
      Ty.render_vecOf (t := Ty.mk scalar n) h]
    exact ⟨_, _, rfl, by decide, by decide⟩

theorem Ty.spells_render {t : Ty} (h : t.Known) :
    Spells TypeEnd t.render fun ts => TypeForm ts t := by
  obtain ⟨scalar, dims⟩ := t
  induction dims with
  | zero => exact spells_scalar h
  | succ n ih =>
    have helem : (Ty.mk scalar n).Known := h
    rw [show (⟨scalar, n + 1⟩ : Ty) = Ty.vecOf ⟨scalar, n⟩ from rfl, Ty.render_vecOf helem]
    have hinner : Spells TypeEnd ((Ty.mk scalar n).render ++ utf8 ">")
        fun ts => ∃ us r, ts = us ++ [r] ∧ TypeForm us ⟨scalar, n⟩ ∧ r.kind = .gt := by
      apply (ih helem).append spells_gt ⟨_, _, rfl, by decide, by decide⟩
      rintro us _ hus ⟨r, rfl, hr⟩
      exact ⟨us, r, rfl, hus, hr⟩
    apply spells_vec.append hinner ((Ty.ended_render helem).append _)
    rintro _ _ ⟨w, l, rfl, hw, hn, hl⟩ ⟨us, r, rfl, hus, hr⟩
    exact .vec hw hn hl hus hr

/-! ## Values as they are printed -/

namespace Value

mutual

/-- The integers, strings and truth values in a value. -/
def scalars : Value → List Value
  | .vec _ items => allScalars items
  | v => [v]

/-- The integers, strings and truth values in values. -/
def allScalars : List Value → List Value
  | [] => []
  | v :: rest => scalars v ++ allScalars rest

end

theorem mem_allScalars {w : Value} {items : List Value} :
    w ∈ allScalars items ↔ ∃ v ∈ items, w ∈ v.scalars := by
  induction items with
  | nil => simp [allScalars]
  | cons v rest ih => simp [allScalars, ih]

/-- No string is in the value. -/
def Stringless (v : Value) : Prop := ∀ s, .str s ∉ v.scalars

theorem Stringless.of_mem {elem : Ty} {items : List Value} (h : (Value.vec elem items).Stringless)
    {v : Value} (hv : v ∈ items) : v.Stringless :=
  fun s hs => h s (mem_allScalars.2 ⟨v, hv, hs⟩)

mutual

/-- The expression a value is printed as, its places left out. A string is printed bare, so it is
not what its printing is. -/
def expr : Value → Expr
  | .int n =>
    if n.toInt < 0 then .neg (.int (Int64.ofNat n.toInt.natAbs) .origin) .origin
    else .int n .origin
  | .str s => .str s .origin
  | .bool b => .bool b .origin
  | .vec _ items => .vec (exprs items) .origin

/-- The expressions values are printed as. -/
def exprs : List Value → List Expr
  | [] => []
  | v :: rest => expr v :: exprs rest

end

end Value

theorem spells_minus :
    Spells (fun c => pair? '-' c = none) (utf8 "-")
      fun ts => ∃ t : Token, ts = [t] ∧ t.kind = .minus := by
  refine ⟨by decide, fun pos rev => ?_⟩
  refine ⟨⟨.sign pos '-', pos + 1, rev⟩, _, [⟨.minus, [], .between pos (pos + 1)⟩], rfl, rfl, rfl,
    ⟨_, rfl, rfl⟩, fun c hc => ?_⟩
  show (pair? '-' c).isSome = false
  rw [hc]
  rfl

theorem ended_decimal (n : Nat) : Ended (fun c => pair? '-' c = none) (decimal n) := by
  obtain ⟨b, rest, hb⟩ := List.exists_cons_of_ne_nil (decimal_ne_nil n)
  have hdigit := digits_decimal n b (by rw [hb]; exact List.mem_cons_self)
  exact ⟨b, rest, hb, lt_of_digit hdigit,
    forall_digit (p := fun c => pair? '-' c = none) (by decide) hdigit⟩

theorem spells_decimal {n : Nat} (h : n < signedBound) :
    Spells Separator (decimal n) fun ts => Derives ts (.expr 4 (.int (Int64.ofNat n) .origin)) := by
  apply (spells_numeral (numeral_decimal h)).imp
  rintro _ ⟨t, rfl, hk, hliteral⟩
  have hnumeral : Numeral t.literal := by
    rw [hliteral]
    exact numeral_decimal h
  have hint := Derives.int hk hnumeral
  rw [hliteral, decimalValue_decimal] at hint
  exact hint.loosen_le (by omega) (by omega)

theorem spells_int {n : Int64} (h : n ≠ Int64.minValue) :
    Spells Separator (Value.int n).render fun ts => Derives ts (.expr 4 (Value.int n).expr) := by
  have hlow := n.le_toInt
  have hhigh := n.toInt_lt
  have hmin : n.toInt ≠ -2 ^ 63 := by
    rw [← Int64.toInt_minValue]
    exact fun heq => h (Int64.toInt_inj.1 heq)
  show Spells Separator (signedDecimal n.toInt) _
  unfold signedDecimal Value.expr
  by_cases hneg : n.toInt < 0
  · rw [if_pos hneg, if_pos hneg]
    have hfits : n.toInt.natAbs < signedBound := by
      unfold signedBound
      omega
    apply spells_minus.append (spells_decimal hfits) (ended_decimal _)
    rintro _ us ⟨t, rfl, ht⟩ hus
    exact .neg ht hus
  · rw [if_neg hneg, if_neg hneg]
    have hfits : n.toInt.toNat < signedBound := by
      unfold signedBound
      omega
    have hvalue : Int64.ofNat n.toInt.toNat = n := by
      rw [← Int64.ofInt_eq_ofNat, Int.toNat_of_nonneg (by omega), Int64.ofInt_toInt]
    have hspells := spells_decimal hfits
    rw [hvalue] at hspells
    exact hspells

theorem refuses_min : Refuses Separator (Value.int Int64.minValue).render := by
  let text := decimal 9223372036854775808
  have hread : readInt64 text = .error .outOfRange := rfl
  have hdigits : Refuses Separator text :=
    refuses_digits (decimal_ne_nil _) (digits_decimal _) hread
  have hrender : (Value.int Int64.minValue).render = utf8 "-" ++ text := by decide +kernel
  rw [hrender]
  exact hdigits.behind spells_minus (ended_decimal _)

theorem spells_bool (b : Bool) :
    Spells Separator (Value.bool b).render fun ts => Derives ts (.expr 4 (Value.bool b).expr) := by
  cases b with
  | true =>
    refine ⟨by decide, fun pos rev => ⟨⟨.word pos (utf8 "true").reverse, pos + 4, rev⟩, _,
      [⟨.kTrue, [], .between pos (pos + 4)⟩], rfl, rfl, rfl, ?_, fun c hc => hc.2⟩⟩
    exact (Derives.yes rfl).loosen_le (by omega) (by omega)
  | false =>
    refine ⟨by decide, fun pos rev => ⟨⟨.word pos (utf8 "false").reverse, pos + 5, rev⟩, _,
      [⟨.kFalse, [], .between pos (pos + 5)⟩], rfl, rfl, rfl, ?_, fun c hc => hc.2⟩⟩
    exact (Derives.no rfl).loosen_le (by omega) (by omega)

theorem spells_comma :
    Spells (fun _ => True) (utf8 ", ") fun ts => ∃ t : Token, ts = [t] ∧ t.kind = .comma := by
  refine ⟨by decide, fun pos rev => ?_⟩
  exact ⟨_, _, [⟨.comma, [], .between pos (pos + 1)⟩], rfl, rfl, rfl, ⟨_, rfl, rfl⟩,
    fun _ _ => rfl⟩

theorem spells_opening :
    Spells (fun _ => True) (utf8 "[") fun ts => ∃ t : Token, ts = [t] ∧ t.kind = .lbracket := by
  refine ⟨by decide, fun pos rev => ?_⟩
  exact ⟨_, _, [⟨.lbracket, [], .between pos (pos + 1)⟩], rfl, rfl, rfl, ⟨_, rfl, rfl⟩,
    fun _ _ => rfl⟩

theorem spells_closing :
    Spells Separator (utf8 "]") fun ts => ∃ t : Token, ts = [t] ∧ t.kind = .rbracket := by
  refine ⟨by decide, fun pos rev => ?_⟩
  exact ⟨_, _, [⟨.rbracket, [], .between pos (pos + 1)⟩], rfl, rfl, rfl, ⟨_, rfl, rfl⟩,
    fun _ _ => rfl⟩

namespace Value

variable {v : Value} {elem : Ty} {items : List Value}

theorem render_vec (elem : Ty) (items : List Value) :
    (vec elem items).render = utf8 "[" ++ (renderItems items ++ utf8 "]") := by
  rw [render]
  rfl

theorem ended_render (hs : v.Stringless) : Ended (fun _ => True) v.render := by
  cases v with
  | str s => exact absurd List.mem_cons_self (hs s)
  | int n =>
    show Ended _ (signedDecimal n.toInt)
    unfold signedDecimal
    by_cases hneg : n.toInt < 0
    · rw [if_pos hneg]
      exact ⟨_, _, rfl, by decide, trivial⟩
    · rw [if_neg hneg]
      obtain ⟨b, rest, hb⟩ := List.exists_cons_of_ne_nil (decimal_ne_nil n.toInt.toNat)
      have hdigit := digits_decimal n.toInt.toNat b (by rw [hb]; exact List.mem_cons_self)
      exact ⟨b, rest, hb, lt_of_digit hdigit, trivial⟩
  | bool b => cases b <;> exact ⟨_, _, rfl, by decide, trivial⟩
  | vec elem items => exact ⟨_, _, render_vec elem items, by decide, trivial⟩

theorem ended_renderItems (hne : items ≠ []) (hs : ∀ v ∈ items, v.Stringless) :
    Ended (fun _ => True) (renderItems items) := by
  obtain ⟨v, rest, rfl⟩ := List.exists_cons_of_ne_nil hne
  have hv := ended_render (hs v List.mem_cons_self)
  cases rest with
  | nil => exact hv
  | cons w rest => exact hv.append _

theorem spells_renderItems (hne : items ≠ []) (hs : ∀ v ∈ items, v.Stringless)
    (h : ∀ v ∈ items, Spells Separator v.render fun ts => Derives ts (.expr 4 v.expr)) :
    Spells Separator (renderItems items) fun ts => Derives ts (.items (exprs items)) := by
  induction items with
  | nil => exact absurd rfl hne
  | cons v rest ih =>
    have hv := h v List.mem_cons_self
    have hs' : ∀ w ∈ rest, w.Stringless := fun w hw => hs w (List.mem_cons_of_mem v hw)
    have h' := fun w (hw : w ∈ rest) => h w (List.mem_cons_of_mem v hw)
    cases rest with
    | nil => exact hv.imp fun ts hts => .lastItem (hts.loosen_le (by omega) (by omega))
    | cons w rest =>
      have hne' : w :: rest ≠ [] := List.cons_ne_nil w rest
      have htail : Spells Separator (utf8 ", " ++ renderItems (w :: rest))
          fun ts => ∃ t us, ts = t :: us ∧ t.kind = .comma ∧
            Derives us (.items (exprs (w :: rest))) := by
        apply spells_comma.append (ih hne' hs' h') (ended_renderItems hne' hs')
        rintro _ us ⟨t, rfl, ht⟩ hus
        exact ⟨t, us, rfl, ht, hus⟩
      apply hv.append htail ⟨_, _, rfl, by decide, by decide⟩
      rintro ts _ hts ⟨t, us, rfl, ht, hus⟩
      exact .moreItems (hts.loosen_le (by omega) (by omega)) ht hus

/-- A value without strings and without the least integer is printed as its expression. -/
theorem spells_render (hv : v.Typed) (hs : v.Stringless) (hmin : .int Int64.minValue ∉ v.scalars) :
    Spells Separator v.render fun ts => Derives ts (.expr 4 v.expr) := by
  induction hv with
  | int n =>
    apply spells_int
    rintro rfl
    exact hmin List.mem_cons_self
  | str s => exact absurd List.mem_cons_self (hs s)
  | bool b => exact spells_bool b
  | @vec elem items known same typed ih =>
    have hitems : ∀ v ∈ items, Spells Separator v.render fun ts => Derives ts (.expr 4 v.expr) :=
      fun v hv => ih v hv (hs.of_mem hv) fun hin => hmin (mem_allScalars.2 ⟨v, hv, hin⟩)
    have hstrings : ∀ v ∈ items, v.Stringless := fun v hv => hs.of_mem hv
    have hinner : Spells Separator (renderItems items ++ utf8 "]")
        fun ts => ∃ us r, ts = us ++ [r] ∧ Derives us (.items (exprs items)) ∧
          r.kind = .rbracket := by
      by_cases hne : items = []
      · subst hne
        apply spells_closing.imp
        rintro _ ⟨r, rfl, hr⟩
        exact ⟨[], r, rfl, .noItems, hr⟩
      · apply (spells_renderItems hne hstrings hitems).append spells_closing
          ⟨_, _, rfl, by decide, by decide⟩
        rintro us _ hus ⟨r, rfl, hr⟩
        exact ⟨us, r, rfl, hus, hr⟩
    have hend : Ended (fun _ => True) (renderItems items ++ utf8 "]") := by
      by_cases hne : items = []
      · subst hne
        exact ⟨_, _, rfl, by decide, trivial⟩
      · exact (ended_renderItems hne hstrings).append _
    rw [render_vec]
    apply spells_opening.append hinner hend
    rintro _ _ ⟨l, rfl, hl⟩ ⟨us, r, rfl, hus, hr⟩
    exact (Derives.vec hl hus hr).loosen_le (by omega) (by omega)

theorem refuses_renderItems (htyped : ∀ v ∈ items, v.Typed) (hs : ∀ v ∈ items, v.Stringless)
    (h : ∀ v ∈ items, .int Int64.minValue ∈ v.scalars → Refuses Separator v.render)
    (hmin : ∃ v ∈ items, .int Int64.minValue ∈ v.scalars) :
    Refuses Separator (renderItems items) := by
  induction items with
  | nil =>
    obtain ⟨v, hv, -⟩ := hmin
    cases hv
  | cons v rest ih =>
    have hs' : ∀ w ∈ rest, w.Stringless := fun w hw => hs w (List.mem_cons_of_mem v hw)
    have htyped' : ∀ w ∈ rest, w.Typed := fun w hw => htyped w (List.mem_cons_of_mem v hw)
    have h' := fun w (hw : w ∈ rest) => h w (List.mem_cons_of_mem v hw)
    cases rest with
    | nil =>
      obtain ⟨w, hw, hin⟩ := hmin
      cases List.mem_singleton.1 hw
      exact h v List.mem_cons_self hin
    | cons w rest =>
      by_cases hv : .int Int64.minValue ∈ v.scalars
      · exact (h v List.mem_cons_self hv).before ⟨_, _, rfl, by decide, by decide⟩
      · have hmin' : ∃ u ∈ w :: rest, .int Int64.minValue ∈ u.scalars := by
          obtain ⟨u, hu, hin⟩ := hmin
          rcases List.mem_cons.1 hu with rfl | hu
          · exact absurd hin hv
          · exact ⟨u, hu, hin⟩
        have htail : Refuses Separator (utf8 ", " ++ renderItems (w :: rest)) :=
          (ih htyped' hs' h' hmin').behind spells_comma
            (ended_renderItems (List.cons_ne_nil w rest) hs')
        have hread := spells_render (htyped v List.mem_cons_self) (hs v List.mem_cons_self) hv
        exact htail.behind hread ⟨_, _, rfl, by decide, by decide⟩

/-- A value with the least integer inside is not printed as an expression. -/
theorem refuses_render (hv : v.Typed) (hs : v.Stringless) (hmin : .int Int64.minValue ∈ v.scalars) :
    Refuses Separator v.render := by
  induction hv with
  | int n =>
    cases List.mem_singleton.1 hmin
    exact refuses_min
  | str s => exact absurd List.mem_cons_self (hs s)
  | bool b => cases List.mem_singleton.1 hmin
  | @vec elem items known same typed ih =>
    have hsome : ∃ v ∈ items, .int Int64.minValue ∈ v.scalars := mem_allScalars.1 hmin
    have hstrings : ∀ v ∈ items, v.Stringless := fun v hv => hs.of_mem hv
    have hne : items ≠ [] := by
      rintro rfl
      obtain ⟨v, hv, -⟩ := hsome
      cases hv
    have hitems : Refuses Separator (renderItems items) :=
      refuses_renderItems typed hstrings (fun v hv => ih v hv (hstrings v hv)) hsome
    have hinner : Refuses Separator (renderItems items ++ utf8 "]") :=
      hitems.before ⟨_, _, rfl, by decide, by decide⟩
    rw [render_vec]
    exact hinner.behind spells_opening ((ended_renderItems hne hstrings).append _)

end Value

/-! ## Printed values evaluate to themselves -/

/-- With enough fuel, and whatever the budget, the expression has the value and changes nothing. -/
def Exec.Evaluates (hint : Option Ty) (e : Expr) (v : Value) : Prop :=
  ∃ n, ∀ fuel, n ≤ fuel → ∀ budget m, Exec.eval budget fuel hint e m = .ok v m

namespace Exec

variable {hint : Option Ty} {e : Expr} {v : Value} {elem : Ty} {items : List Value}

theorem evaluates_int (n : Int64) (span : Span) : Evaluates hint (.int n span) (.int n) := by
  refine ⟨1, fun fuel hfuel budget m => ?_⟩
  obtain ⟨f, rfl⟩ := Nat.exists_eq_add_of_le' hfuel
  rw [eval]
  rfl

theorem evaluates_neg {n : Int64} {span : Span} (h : Evaluates none e (.int n)) :
    Evaluates hint (.neg e span) (.int (-n)) := by
  obtain ⟨k, hk⟩ := h
  refine ⟨k + 1, fun fuel hfuel budget m => ?_⟩
  obtain ⟨f, rfl⟩ := Nat.exists_eq_add_of_le' (show 1 ≤ fuel by omega)
  rw [eval, bind_eq_of_ok (hk f (by omega) budget m)]
  rfl

theorem evaluates_items (hsame : ∀ v ∈ items, v.type = elem)
    (h : ∀ v ∈ items, ∀ e : Expr, e.bare = v.expr → Evaluates (some elem) e v) {es : List Expr}
    (hes : Expr.allBare es = Value.exprs items) :
    ∃ n, ∀ fuel, n ≤ fuel → ∀ budget m,
      evalItems budget fuel (some elem) es m = .ok (some elem, items) m := by
  induction items generalizing es with
  | nil =>
    cases es with
    | cons e es => rw [Expr.allBare, Value.exprs] at hes; cases hes
    | nil =>
      refine ⟨1, fun fuel hfuel budget m => ?_⟩
      obtain ⟨f, rfl⟩ := Nat.exists_eq_add_of_le' hfuel
      rw [evalItems]
      rfl
  | cons v items ih =>
    cases es with
    | nil => rw [Expr.allBare, Value.exprs] at hes; cases hes
    | cons e es =>
      rw [Expr.allBare, Value.exprs, List.cons.injEq] at hes
      obtain ⟨k, hk⟩ := h v List.mem_cons_self e hes.1
      obtain ⟨n, hn⟩ := ih (fun w hw => hsame w (List.mem_cons_of_mem v hw))
        (fun w hw => h w (List.mem_cons_of_mem v hw)) hes.2
      refine ⟨max k n + 1, fun fuel hfuel budget m => ?_⟩
      obtain ⟨f, rfl⟩ := Nat.exists_eq_add_of_le' (show 1 ≤ fuel by omega)
      have htype : ¬ v.type ≠ (some elem).getD v.type :=
        not_not_intro (hsame v List.mem_cons_self)
      rw [evalItems, bind_eq_of_ok (hk f (by omega) budget m)]
      dsimp only
      rw [if_neg htype, Option.getD_some, bind_eq_of_ok (hn f (by omega) budget m)]
      rfl

theorem exists_of_bare_int {n : Int64} {span : Span} (h : e.bare = .int n span) :
    ∃ span', e = .int n span' := by
  cases e <;> simp only [Expr.bare, Expr.int.injEq, reduceCtorEq] at h
  exact ⟨_, by rw [h.1]⟩

theorem exists_of_bare_neg {operand : Expr} {span : Span} (h : e.bare = .neg operand span) :
    ∃ operand' span', e = .neg operand' span' ∧ operand'.bare = operand := by
  cases e <;> simp only [Expr.bare, Expr.neg.injEq, reduceCtorEq] at h
  exact ⟨_, _, rfl, h.1⟩

theorem exists_of_bare_vec {es : List Expr} {span : Span} (h : e.bare = .vec es span) :
    ∃ es' span', e = .vec es' span' ∧ Expr.allBare es' = es := by
  cases e <;> simp only [Expr.bare, Expr.vec.injEq, reduceCtorEq] at h
  exact ⟨_, _, rfl, h.1⟩

theorem exists_of_bare_bool {b : Bool} {span : Span} (h : e.bare = .bool b span) :
    ∃ span', e = .bool b span' := by
  cases e <;> simp only [Expr.bare, Expr.bool.injEq, reduceCtorEq] at h
  exact ⟨_, by rw [h.1]⟩

/-- A value is what the expression it is printed as evaluates to, wherever that expression
stands. -/
theorem evaluates_of_bare (hv : v.Typed) (hs : v.Stringless) (he : e.bare = v.expr) :
    Evaluates (some v.type) e v := by
  induction hv generalizing e with
  | str s => exact absurd List.mem_cons_self (hs s)
  | int n =>
    unfold Value.expr at he
    by_cases hneg : n.toInt < 0
    · rw [if_pos hneg] at he
      obtain ⟨operand, span, rfl, hoperand⟩ := exists_of_bare_neg he
      obtain ⟨span', rfl⟩ := exists_of_bare_int hoperand
      have hvalue : -Int64.ofNat n.toInt.natAbs = n := by
        rw [Int64.neg_ofNat, show -((n.toInt.natAbs : Nat) : Int) = n.toInt by omega,
          Int64.ofInt_toInt]
      have hnegated : Evaluates (some Ty.int) (.neg (.int (Int64.ofNat n.toInt.natAbs) span') span)
          (.int (-Int64.ofNat n.toInt.natAbs)) := evaluates_neg (evaluates_int _ span')
      rw [hvalue] at hnegated
      exact hnegated
    · rw [if_neg hneg] at he
      obtain ⟨span, rfl⟩ := exists_of_bare_int he
      exact evaluates_int n span
  | bool b =>
    obtain ⟨span, rfl⟩ := exists_of_bare_bool he
    refine ⟨1, fun fuel hfuel budget m => ?_⟩
    obtain ⟨f, rfl⟩ := Nat.exists_eq_add_of_le' hfuel
    rw [eval]
    rfl
  | @vec elem items known same typed ih =>
    rw [Value.expr] at he
    obtain ⟨es, span, rfl, hes⟩ := exists_of_bare_vec he
    have hitems : ∀ v ∈ items, ∀ e : Expr, e.bare = v.expr → Evaluates (some elem) e v := by
      intro v hv e he
      have hitem := ih v hv (hs.of_mem hv) he
      rw [same v hv] at hitem
      exact hitem
    obtain ⟨n, hn⟩ := evaluates_items same hitems hes
    refine ⟨n + 1, fun fuel hfuel budget m => ?_⟩
    obtain ⟨f, rfl⟩ := Nat.exists_eq_add_of_le' (show 1 ≤ fuel by omega)
    -- The type of the whole vector is the hint, so that of its elements is theirs.
    have hhint : itemHint (some (Value.vec elem items).type) = some elem := rfl
    rw [eval, hhint, bind_eq_of_ok (hn f (by omega) budget m)]
    rfl

end Exec
end Scriptlet
