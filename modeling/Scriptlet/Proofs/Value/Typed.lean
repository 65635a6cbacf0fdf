import Scriptlet.Machine.Builtin
import Scriptlet.Machine.Operator

/-!
# Typed: values that are what their type says

A vector carries the type of its elements. It is typed if every item has that type, at every depth,
and if the type is built over a scalar that values can have. Operators and conversions give typed
values from typed ones, and comparing two values of one type always succeeds.
-/

namespace Scriptlet

/-- The type is built over a scalar that values can have. -/
def Ty.Known (t : Ty) : Prop := t.scalar ≠ .invalid

theorem Ty.Known.elem {t : Ty} (h : t.Known) (hv : t.isVec) : t.elem.Known := by
  obtain ⟨scalar, dims⟩ := t
  cases dims with
  | zero => simp [Ty.isVec] at hv
  | succ n => exact h

namespace Value

/-! ## The values of a type -/

theorem type_eq_int_iff {v : Value} : v.type = .int ↔ ∃ n, v = .int n := by
  cases v with
  | int n => exact ⟨fun _ => ⟨n, rfl⟩, fun _ => rfl⟩
  | str s | bool b => exact ⟨nofun, nofun⟩
  | vec elem items => exact ⟨fun h => Nat.noConfusion (congrArg Ty.dims h), nofun⟩

theorem type_eq_str_iff {v : Value} : v.type = .str ↔ ∃ s, v = .str s := by
  cases v with
  | str s => exact ⟨fun _ => ⟨s, rfl⟩, fun _ => rfl⟩
  | int n | bool b => exact ⟨nofun, nofun⟩
  | vec elem items => exact ⟨fun h => Nat.noConfusion (congrArg Ty.dims h), nofun⟩

theorem type_eq_bool_iff {v : Value} : v.type = .bool ↔ ∃ b, v = .bool b := by
  cases v with
  | bool b => exact ⟨fun _ => ⟨b, rfl⟩, fun _ => rfl⟩
  | int n | str s => exact ⟨nofun, nofun⟩
  | vec elem items => exact ⟨fun h => Nat.noConfusion (congrArg Ty.dims h), nofun⟩

theorem type_eq_vecOf_iff {v : Value} {t : Ty} : v.type = t.vecOf ↔ ∃ items, v = .vec t items := by
  cases v with
  | vec elem items =>
    refine ⟨fun h => ⟨items, ?_⟩, fun ⟨_, h⟩ => by rw [h]; rfl⟩
    rw [show elem = t from congrArg Ty.elem h]
  | int n | str s | bool b => exact ⟨fun h => Nat.noConfusion (congrArg Ty.dims h), nofun⟩

/-! ## Typed values -/

/-- Every item of every vector in the value has the type its vector says. -/
inductive Typed : Value → Prop
  | int (n : Int64) : Typed (.int n)
  | str (s : Bytes) : Typed (.str s)
  | bool (b : Bool) : Typed (.bool b)
  | vec {elem : Ty} {items : List Value} (known : elem.Known)
      (same : ∀ v ∈ items, v.type = elem) (typed : ∀ v ∈ items, Typed v) : Typed (.vec elem items)

namespace Typed

theorem known {v : Value} (h : v.Typed) : v.type.Known := by
  cases h with
  | int n => exact Scalar.noConfusion
  | str s => exact Scalar.noConfusion
  | bool b => exact Scalar.noConfusion
  | vec known _ _ => exact known

variable {elem : Ty} {items : List Value}

theorem elem_known (h : Typed (.vec elem items)) : elem.Known := by
  cases h with
  | vec known _ _ => exact known

theorem of_mem (h : Typed (.vec elem items)) {v : Value} (hv : v ∈ items) :
    v.Typed ∧ v.type = elem := by
  cases h with
  | vec _ same typed => exact ⟨typed v hv, same v hv⟩

theorem empty (h : elem.Known) : Typed (.vec elem []) := .vec h nofun nofun

theorem cons (h : Typed (.vec elem items)) {v : Value} (hv : v.Typed) (ht : v.type = elem) :
    Typed (.vec elem (v :: items)) := by
  refine .vec h.elem_known (fun w hw => ?_) (fun w hw => ?_)
  · rcases List.mem_cons.1 hw with rfl | hw
    · exact ht
    · exact (h.of_mem hw).2
  · rcases List.mem_cons.1 hw with rfl | hw
    · exact hv
    · exact (h.of_mem hw).1

/-- Adding an item of the right type keeps a vector typed. -/
theorem push (h : Typed (.vec elem items)) {v : Value} (hv : v.Typed) (ht : v.type = elem) :
    Typed (.vec elem (items ++ [v])) := by
  refine .vec h.elem_known (fun w hw => ?_) (fun w hw => ?_)
  · rcases List.mem_append.1 hw with hw | hw
    · exact (h.of_mem hw).2
    · rw [List.mem_singleton.1 hw, ht]
  · rcases List.mem_append.1 hw with hw | hw
    · exact (h.of_mem hw).1
    · rw [List.mem_singleton.1 hw]; exact hv

/-- Replacing an item by one of the right type keeps a vector typed. -/
theorem set (h : Typed (.vec elem items)) (i : Nat) {v : Value} (hv : v.Typed)
    (ht : v.type = elem) : Typed (.vec elem (items.set i v)) := by
  refine .vec h.elem_known (fun w hw => ?_) (fun w hw => ?_)
  · rcases List.mem_or_eq_of_mem_set hw with hw | rfl
    · exact (h.of_mem hw).2
    · exact ht
  · rcases List.mem_or_eq_of_mem_set hw with hw | rfl
    · exact (h.of_mem hw).1
    · exact hv

end Typed

/-- Two values can be compared exactly if they are of one type. -/
theorem order?_isSome_iff (a b : Value) : (order? a b).isSome ↔ a.type = b.type := by
  by_cases h : a.type = b.type
  · -- Equal types leave no room for two different kinds of value: a vector's type has a level
    -- more than its elements', a scalar's has none.
    cases a <;> cases b <;>
      simp_all [order?, type, Ty.int, Ty.str, Ty.bool, Ty.vecOf]
  · simp [order?.eq_def, h]

end Value

namespace BinOp

/-- What an operator may answer: a typed value, or a fault of a running program. -/
def Sound : Except (Side × Fault) Value → Prop
  | .ok v => v.Typed
  | .error (_, fault) => fault.code ≠ .malformed

theorem sound_sum (a b : Value) : Sound (sum a b) := by
  unfold sum
  split
  · split
    · exact .int _
    · exact Code.noConfusion
  · split
    · exact .str _
    · exact Code.noConfusion
  · exact Code.noConfusion

theorem sound_arithmetic {op : Int64 → Int64 → Except (Side × Fault) Int64}
    (hop : ∀ x y side fault, op x y = .error (side, fault) → fault.code ≠ .malformed)
    (a b : Value) : Sound (arithmetic op a b) := by
  cases a with
  | int x =>
    cases b with
    | int y =>
      simp only [arithmetic]
      cases h : op x y with
      | ok n => exact Value.Typed.int n
      | error e => exact hop x y e.1 e.2 h
    | str _ | bool _ | vec _ _ => exact Code.noConfusion
  | str _ | bool _ | vec _ _ => exact Code.noConfusion

theorem sound_comparison (accepts : Ordering → Bool) (a b : Value) :
    Sound (comparison accepts a b) := by
  unfold comparison
  split
  · exact .bool _
  · exact Code.noConfusion

/-- Whatever its operands are, an operator gives a typed value or a fault of a running program. -/
theorem sound_apply (op : BinOp) (a b : Value) : Sound (op.apply a b) := by
  have hquotient (x y : Int64) (side : Side) (fault : Fault)
      (h : quotient x y = .error (side, fault)) : fault.code ≠ .malformed := by
    unfold quotient at h
    split at h
    · cases h; exact Code.noConfusion
    · cases h
  have hexponential (x y : Int64) (side : Side) (fault : Fault)
      (h : exponential x y = .error (side, fault)) : fault.code ≠ .malformed := by
    unfold exponential at h
    split at h
    · cases h; exact Code.noConfusion
    · cases h
  cases op with
  | add => exact sound_sum a b
  | sub => exact sound_arithmetic (fun _ _ _ _ h => by cases h) a b
  | mul => exact sound_arithmetic (fun _ _ _ _ h => by cases h) a b
  | div => exact sound_arithmetic hquotient a b
  | pow => exact sound_arithmetic hexponential a b
  | eq | ne | gt | lt | ge | le => exact sound_comparison _ a b

end BinOp
end Scriptlet
