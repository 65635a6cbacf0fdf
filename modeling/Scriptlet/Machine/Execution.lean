import Scriptlet.Machine.Builtin
import Scriptlet.Machine.Operator

/-!
# Execution: what programs do

Expressions give values and statements give a flow: go on, leave the loop, or return. A type
expected by the surroundings is handed down as a hint. It decides what an empty vector literal
holds, and an item of any other type than the one expected is refused, also the first. Operands,
arguments and items are evaluated from left to right, and each check comes as soon as the values it
needs are there.

Every function spends one unit of fuel on itself, so running out of fuel is a `Halt` of its own and
never mistaken for an outcome of the program.
-/

namespace Scriptlet

/-- Where a statement leaves off. -/
inductive Flow where
  | next
  /-- Leave the innermost loop. -/
  | leave
  /-- Return from the function, possibly with a value. -/
  | ret (v : Option Value)
deriving Repr

/-- The hint for the items of a vector literal. -/
def itemHint (hint : Option Ty) : Option Ty :=
  match hint with
  | some t => if t.isVec then some t.elem else none
  | none => none

namespace Exec

/-- Binds the arguments of a call to the parameters, in order. -/
def bindParams : List Param → List Expr → List Value → Scope → Exec Scope
  | [], _, _, own => return own
  | p :: params, e :: exprs, v :: values, own =>
    if v.type = p.type then bindParams params exprs values (own.declare p.name ⟨p.type, v⟩)
    else fail (.wrongType p.type v.type) e.span
  | _ :: _, _, _, _ => throw .stuck

/-- The result of a binary operator, an operand at fault being pointed at. -/
def operate (op : BinOp) (left right : Expr) (a b : Value) : Exec Value :=
  match op.apply a b with
  | .ok v => return v
  | .error (.left, fault) => fail fault left.span
  | .error (.right, fault) => fail fault right.span

/-- The item of a vector at an index. -/
def itemAt (at_ : Expr) (items : List Value) (i : Int64) : Exec Value :=
  if i < 0 then fail .negativeIndex at_.span
  else if (items.length : Int) ≤ i.toInt then
    fail (.indexOutOfBounds i items.length) at_.span
  else
    match items[i.toInt.toNat]? with
    | some v => return v
    | none => throw .stuck

/-- The vector with item `i` set, or added if `i` is just past its end. -/
def setItem (at_ from_ : Expr) (elem : Ty) (items : List Value) (i : Int64) (v : Value) :
    Exec Value :=
  if i < 0 ∨ (items.length : Int) < i.toInt then
    fail (.slotOutOfBounds i items.length) at_.span
  else if v.type ≠ elem then fail (.wrongType elem v.type) from_.span
  else if i.toInt.toNat = items.length then return .vec elem (items ++ [v])
  else
    match (Value.vec elem items).with? i.toInt.toNat v with
    | some changed => return changed
    | none => throw .stuck

/-- What a call gives back, from the value its body returned. -/
def returned (wanted : Bool) (name : Bytes) (span : Span) (result : Option Ty) (v : Option Value) :
    Exec (Option Value) :=
  match v with
  | none => if wanted then fail (.didNotReturn name) span else return none
  | some v =>
    match result with
    | none => throw .stuck
    | some t => if v.type = t then return some v else fail (.wrongReturn t v.type) span

/-- The function of a call, if it can be called this way. -/
def callee (wanted : Bool) (name : Bytes) (nameSpan span : Span) (argc : Nat) : Exec Function := do
  match (← get).function? name with
  | none => fail (.noSuchFunction name) nameSpan
  | some f =>
    if wanted && f.result.isNone then fail (.noValue name) span
    else if f.params.length ≠ argc then fail (.wrongArity f.params.length argc) span
    else return f

/-- Runs a builtin on its evaluated arguments. -/
def callBuiltin (wanted : Bool) (f : Builtin) (name : Bytes) (span : Span) (args : List Expr)
    (values : List Value) : Exec (Option Value) := do
  match f.arity? with
  | some n => if values.length ≠ n then fail (.wrongArity n values.length) span
  | none => pure ()
  let v ← f.apply span ((args.head?.map Expr.span).getD span) values
  if wanted && v.isNone then fail (.noValue name) span else return v

/-- Refuses a call that would be one too many in progress. -/
def checkDepth (budget : Budget) (span : Span) : Exec Unit := do
  if budget.depth ≤ (← get).depth then fail (.callDepth budget.depth) span

mutual

/-- The value of an expression. -/
def eval (budget : Budget) : Nat → Option Ty → Expr → Exec Value
  | 0, _, _ => throw .outOfFuel
  | fuel + 1, hint, e =>
    match e with
    | .int n _ => return .int n
    | .str s _ => return .str s
    | .bool b _ => return .bool b
    | .ident name span => do
      match (← get).slot? name with
      | some slot => return slot.value
      | none => fail (.undeclared name) span
    | .vec elems span => do
      match ← evalItems budget fuel (itemHint hint) elems with
      | (some t, items) => return .vec t items
      | (none, _) => fail .emptyVector span
    | .neg operand _ => do
      match ← eval budget fuel none operand with
      | .int n => return .int (-n)
      | v => mismatch .int v operand.span
    | .binary op left right _ => do
      let a ← eval budget fuel none left
      let b ← eval budget fuel (some a.type) right
      operate op left right a b
    | .call name nameSpan args span => do
      match ← call budget fuel true name nameSpan args span with
      | some v => return v
      | none => throw .stuck
    | .index target at_ _ => do
      match ← eval budget fuel none target with
      | .vec _ items =>
        match ← eval budget fuel none at_ with
        | .int i => itemAt at_ items i
        | v => mismatch .int v at_.span
      | v => mismatch .vector v target.span

/-- The items of a vector literal, all of one type: the hinted one or else that of the first. -/
def evalItems (budget : Budget) : Nat → Option Ty → List Expr → Exec (Option Ty × List Value)
  | 0, _, _ => throw .outOfFuel
  | _ + 1, t, [] => return (t, [])
  | fuel + 1, t, e :: rest => do
    let v ← eval budget fuel t e
    let elem := t.getD v.type
    if v.type ≠ elem then fail (.wrongType elem v.type) e.span
    else
      let (t', items) ← evalItems budget fuel (some elem) rest
      return (t', v :: items)

/-- The arguments of a call, each with the hint at its place. -/
def evalArgs (budget : Budget) : Nat → List Ty → List Expr → Exec (List Value)
  | 0, _, _ => throw .outOfFuel
  | _ + 1, _, [] => return []
  | fuel + 1, hints, e :: rest => do
    let v ← eval budget fuel hints.head? e
    return v :: (← evalArgs budget fuel hints.tail rest)

/-- A call. Where a value is `wanted`, there is one. -/
def call (budget : Budget) :
    Nat → Bool → Bytes → Span → List Expr → Span → Exec (Option Value)
  | 0, _, _, _, _, _ => throw .outOfFuel
  | fuel + 1, wanted, name, nameSpan, args, span =>
    match Builtin.ofName? name with
    | some f => do
      let values ← evalArgs budget fuel [] args
      callBuiltin wanted f name span args values
    | none => do
      let f ← callee wanted name nameSpan span args.length
      let values ← evalArgs budget fuel (f.params.map Param.type) args
      let own ← bindParams f.params args values []
      checkDepth budget span
      match ← inCall own (block budget fuel f.body) with
      | .ret v => returned wanted name span f.result v
      | _ => returned wanted name span f.result none

/-- Runs one statement. -/
def stmt (budget : Budget) : Nat → Stmt → Exec Flow
  | 0, _ => throw .outOfFuel
  | fuel + 1, s => do
    tick budget s.span
    match s with
    | .letVar name _ type value _ =>
      let v ← eval budget fuel type value
      match type with
      | some t => if v.type ≠ t then fail (.wrongType t v.type) value.span
      | none => pure ()
      modify (Machine.declare name v)
      return .next
    | .assign name value span =>
      match (← get).slot? name with
      | none => fail (.undeclared name) span
      | some slot =>
        let v ← eval budget fuel (some slot.type) value
        if v.type ≠ slot.type then fail (.wrongType slot.type v.type) value.span
        modify (Machine.assign name v)
        return .next
    | .assignAt name at_ value span =>
      match (← get).slot? name with
      | none => fail (.undeclared name) span
      | some ⟨_, .vec elem items⟩ =>
        match ← eval budget fuel none at_ with
        | .int i =>
          let v ← eval budget fuel (some elem) value
          let changed ← setItem at_ value elem items i v
          modify (Machine.assign name changed)
          return .next
        | w => mismatch .int w at_.span
      | some slot => mismatch .vector slot.value span
    | .call name nameSpan args span _ =>
      let _ ← call budget fuel false name nameSpan args span
      return .next
    | .when cond body _ _ =>
      match ← eval budget fuel none cond with
      | .bool true => block budget fuel body
      | .bool false => return .next
      | v => mismatch .bool v cond.span
    | .ifElse cond body _ other _ _ =>
      match ← eval budget fuel none cond with
      | .bool true => block budget fuel body
      | .bool false => block budget fuel other
      | v => mismatch .bool v cond.span
    | .loop body _ span => rounds budget fuel body span
    | .stop _ => return .leave
    | .ret none _ => return .ret none
    | .ret (some value) _ => return .ret (some (← eval budget fuel none value))
    | .exit value _ =>
      match ← eval budget fuel none value with
      | .int n => throw (.exit n)
      | v => mismatch .int v value.span
    | .fn name params result body _ span =>
      match Builtin.ofName? name with
      | some _ => fail (.redefinesBuiltin name) span
      | none =>
        modify (Machine.define name ⟨params, result, body⟩)
        return .next

/-- Runs statements in order until one does not go on to the next. -/
def block (budget : Budget) : Nat → List Stmt → Exec Flow
  | 0, _ => throw .outOfFuel
  | _ + 1, [] => return .next
  | fuel + 1, s :: rest => do
    match ← stmt budget fuel s with
    | .next => block budget fuel rest
    | flow => return flow

/-- Runs the body of a loop again and again; each round ends with a step of its own. -/
def rounds (budget : Budget) : Nat → List Stmt → Span → Exec Flow
  | 0, _, _ => throw .outOfFuel
  | fuel + 1, body, span => do
    match ← block budget fuel body with
    | .leave => return .next
    | .ret v => return .ret v
    | .next =>
      tick budget span
      rounds budget fuel body span

end

section

variable {budget : Budget}

@[simp] theorem eval_zero (hint : Option Ty) (e : Expr) :
    eval budget 0 hint e = throw .outOfFuel := by
  rw [eval]

@[simp] theorem evalItems_zero (t : Option Ty) (es : List Expr) :
    evalItems budget 0 t es = throw .outOfFuel := by
  rw [evalItems]

@[simp] theorem evalArgs_zero (hints : List Ty) (es : List Expr) :
    evalArgs budget 0 hints es = throw .outOfFuel := by
  rw [evalArgs]

@[simp] theorem call_zero (wanted : Bool) (name : Bytes) (nameSpan : Span) (args : List Expr)
    (span : Span) : call budget 0 wanted name nameSpan args span = throw .outOfFuel := by
  rw [call]

@[simp] theorem stmt_zero (s : Stmt) : stmt budget 0 s = throw .outOfFuel := by
  rw [stmt]

@[simp] theorem block_zero (ss : List Stmt) : block budget 0 ss = throw .outOfFuel := by
  rw [block]

@[simp] theorem rounds_zero (body : List Stmt) (span : Span) :
    rounds budget 0 body span = throw .outOfFuel := by
  rw [rounds]

end

end Exec

/-- Runs a program on a machine. A run that is cancelled from the start does nothing at all. -/
def Machine.run (budget : Budget) (fuel : Nat) (p : Program) : Exec Unit := do
  match budget.cancelled (← get) with
  | some reason => Exec.fail (.cancelled reason) .origin
  | none => discard (Exec.block budget fuel p)

end Scriptlet
