import Scriptlet.Number.Integer
import Scriptlet.Program
import Scriptlet.Token.Lexer

/-!
# Parser: from tokens to programs

A recursive descent over the tokens before the first end of file. Operators bind, from loose to
tight: comparisons, sums, products, powers; powers group to the right and all others to the left,
and a minus sign takes everything up to the next product or looser operator.

Each function spends one unit of fuel on itself. `Program.parse` hands out enough for any token
list, so the descent never stops for want of it.
-/

namespace Scriptlet

/-- Why the descent stopped. -/
inductive ParseStop where
  | fault (d : Diagnostic)
  | outOfFuel
deriving Repr

/-- Parsing actions read the remaining tokens and leave the rest. -/
abbrev Parser := EStateM ParseStop (List Token)

/-- What surrounds the place being parsed. -/
structure Surroundings where
  /-- Stands for the end of the list. -/
  eof : Token
  /-- Whether a `break` here would leave a loop of the same function. -/
  inLoop : Bool
  /-- The innermost enclosing function and its result type. -/
  function : Option (Bytes × Option Ty)

namespace Parser

/-- Stops with a fault. -/
def fail {α : Type} (fault : Fault) (span : Span) : Parser α := throw (.fault ⟨fault, span⟩)

/-- The next token, which stays in place. -/
def peek (s : Surroundings) : Parser Token := do return (← get).headD s.eof

/-- The kind of the token after the next one. -/
def secondKind (s : Surroundings) : Parser Kind := do return ((← get).tail.headD s.eof).kind

/-- Whether the next token is of the given kind. -/
def isAt (s : Surroundings) (kind : Kind) : Parser Bool := do return (← peek s).kind == kind

/-- Takes the next token; the end of the list is never passed. -/
def advance (s : Surroundings) : Parser Token := do
  let t ← peek s
  modify List.tail
  return t

/-- Reports the next token as not what was wanted. -/
def unexpected {α : Type} (s : Surroundings) (want : Bytes) : Parser α := do
  let t ← peek s
  fail (.expected want t) t.span

/-- Takes a token of the given kind. -/
def expect (s : Surroundings) (kind : Kind) : Parser Token := do
  if ← isAt s kind then advance s else unexpected s kind.name

/-- Takes the semicolon of a statement that began with `start`, and gives the whole span. -/
def endStatement (s : Surroundings) (start : Span) : Parser Span := do
  let semicolon ← expect s .semicolon
  return start.join semicolon.span

/-! ## Types -/

/-- A type. The `>=` of `vec<int>= …` closes the type and leaves the `=` behind. -/
def typeRef (s : Surroundings) : Nat → Parser Ty
  | 0 => throw .outOfFuel
  | fuel + 1 => do
    let word ← expect s .ident
    match Ty.ofName? word.literal with
    | some t => return t
    | none =>
      if word.literal ≠ utf8 "vec" then
        fail (.unknownType word.literal) word.span
      else
        let _ ← expect s .lt
        let elem ← typeRef s fuel
        let next ← peek s
        if next.kind = .gtEq then
          modify fun rest => ⟨.assign, [], next.span.tail⟩ :: rest.tail
          return elem.vecOf
        else
          let _ ← expect s .gt
          return elem.vecOf

/-! ## Expressions -/

/-- The binary operator a token stands for. -/
def binOp? : Kind → Option BinOp
  | .plus => some .add
  | .minus => some .sub
  | .star => some .mul
  | .slash => some .div
  | .caret => some .pow
  | .eq => some .eq
  | .notEq => some .ne
  | .gt => some .gt
  | .lt => some .lt
  | .gtEq => some .ge
  | .ltEq => some .le
  | _ => none

/-- How tightly an operator binds, from 1 for comparisons to 4 for powers. -/
def strength : BinOp → Nat
  | .eq | .ne | .gt | .lt | .ge | .le => 1
  | .add | .sub => 2
  | .mul | .div => 3
  | .pow => 4

/-- What the right operand of an operator must bind tighter than. -/
def rightStrength (op : BinOp) : Nat := if op = .pow then 3 else strength op

mutual

/-- An expression of operators that bind tighter than `min`. -/
def expression (s : Surroundings) (fuel min : Nat) : Parser Expr :=
  match fuel with
  | 0 => throw .outOfFuel
  | fuel + 1 => do
    let left ← unary s fuel
    operators s fuel min left

/-- Extends `left` by the operators that follow it and bind tighter than `min`. -/
def operators (s : Surroundings) (fuel min : Nat) (left : Expr) : Parser Expr :=
  match fuel with
  | 0 => throw .outOfFuel
  | fuel + 1 => do
    match binOp? (← peek s).kind with
    | none => return left
    | some op =>
      if strength op ≤ min then return left
      else
        let _ ← advance s
        let right ← expression s fuel (rightStrength op)
        operators s fuel min (.binary op left right (left.span.join right.span))

/-- A negation, or an operand with its indices. -/
def unary (s : Surroundings) (fuel : Nat) : Parser Expr :=
  match fuel with
  | 0 => throw .outOfFuel
  | fuel + 1 => do
    if ← isAt s .minus then
      let minus ← advance s
      let operand ← expression s fuel 3
      return .neg operand (minus.span.join operand.span)
    else
      let target ← primary s fuel
      indices s fuel target

/-- Extends `target` by the indices in brackets that follow it. -/
def indices (s : Surroundings) (fuel : Nat) (target : Expr) : Parser Expr :=
  match fuel with
  | 0 => throw .outOfFuel
  | fuel + 1 => do
    if ← isAt s .lbracket then
      let _ ← advance s
      let index ← expression s fuel 0
      let closing ← expect s .rbracket
      indices s fuel (.index target index (target.span.join closing.span))
    else return target

/-- A literal, a name, a call, a vector or an expression in parentheses. -/
def primary (s : Surroundings) (fuel : Nat) : Parser Expr :=
  match fuel with
  | 0 => throw .outOfFuel
  | fuel + 1 => do
    let t ← peek s
    match t.kind with
    | .int =>
      let _ ← advance s
      match readInt64 t.literal with
      | .ok n => return .int n t.span
      | .error _ => fail .invalidInteger t.span
    | .str =>
      let _ ← advance s
      return .str t.literal t.span
    | .kTrue =>
      let _ ← advance s
      return .bool true t.span
    | .kFalse =>
      let _ ← advance s
      return .bool false t.span
    | .ident =>
      if (← secondKind s) = .lparen then
        let (args, span) ← call s fuel
        return .call t.literal t.span args span
      else
        let _ ← advance s
        return .ident t.literal t.span
    | .lparen =>
      let _ ← advance s
      let inner ← expression s fuel 0
      let _ ← expect s .rparen
      return inner
    | .lbracket =>
      let opening ← advance s
      let elems ← items s fuel .rbracket
      let closing ← expect s .rbracket
      return .vec elems (opening.span.join closing.span)
    | _ => unexpected s (utf8 "an expression")

/-- The name, the parentheses and the arguments of a call: the arguments and the whole span. -/
def call (s : Surroundings) (fuel : Nat) : Parser (List Expr × Span) :=
  match fuel with
  | 0 => throw .outOfFuel
  | fuel + 1 => do
    let name ← advance s
    let _ ← advance s
    let args ← items s fuel .rparen
    let closing ← expect s .rparen
    return (args, name.span.join closing.span)

/-- Expressions separated by commas up to the closing token, one comma allowed before it. -/
def items (s : Surroundings) (fuel : Nat) (closing : Kind) : Parser (List Expr) :=
  match fuel with
  | 0 => throw .outOfFuel
  | fuel + 1 => do
    if ← isAt s closing then return []
    else
      let first ← expression s fuel 0
      if ← isAt s .comma then
        let _ ← advance s
        let rest ← items s fuel closing
        return first :: rest
      else return [first]

end

section

variable {s : Surroundings}

@[simp] theorem expression_zero (min : Nat) : expression s 0 min = throw .outOfFuel := by
  rw [expression]

@[simp] theorem operators_zero (min : Nat) (left : Expr) :
    operators s 0 min left = throw .outOfFuel := by
  rw [operators]

@[simp] theorem unary_zero : unary s 0 = throw .outOfFuel := by
  rw [unary]

@[simp] theorem indices_zero (target : Expr) : indices s 0 target = throw .outOfFuel := by
  rw [indices]

@[simp] theorem primary_zero : primary s 0 = throw .outOfFuel := by
  rw [primary]

@[simp] theorem call_zero : call s 0 = throw .outOfFuel := by
  rw [call]

@[simp] theorem items_zero (closing : Kind) : items s 0 closing = throw .outOfFuel := by
  rw [items]

end

/-! ## Statements -/

/-- Parameters up to the closing parenthesis; `seen` are the names taken so far. -/
def params (s : Surroundings) (seen : List Bytes) : Nat → Parser (List Param)
  | 0 => throw .outOfFuel
  | fuel + 1 => do
    if ← isAt s .rparen then return []
    else
      let name ← expect s .ident
      if seen.contains name.literal then
        fail (.duplicateParameter name.literal) name.span
      else
        let _ ← expect s .colon
        let type ← typeRef s fuel
        let first : Param := ⟨name.literal, type, name.span⟩
        if ← isAt s .comma then
          let _ ← advance s
          let rest ← params s (name.literal :: seen) fuel
          return first :: rest
        else return [first]

/-- An optional type behind a token that announces it. -/
def optionalType (s : Surroundings) (fuel : Nat) (mark : Kind) : Parser (Option Ty) := do
  if ← isAt s mark then
    let _ ← advance s
    return some (← typeRef s fuel)
  else return none

/-- `let name = value;` or `let name: type = value;` -/
def letStatement (s : Surroundings) (fuel : Nat) : Parser Stmt := do
  let start ← advance s
  let name ← expect s .ident
  let type ← optionalType s fuel .colon
  let _ ← expect s .assign
  let value ← expression s fuel 0
  let span ← endStatement s start.span
  return .letVar name.literal name.span type value span

/-- A statement that begins with a name: an assignment, an element assignment or a call. -/
def nameStatement (s : Surroundings) (fuel : Nat) : Parser Stmt := do
  let name ← peek s
  match ← secondKind s with
  | .assign =>
    let _ ← advance s
    let _ ← advance s
    let value ← expression s fuel 0
    let span ← endStatement s name.span
    return .assign name.literal value span
  | .lbracket =>
    let _ ← advance s
    let _ ← advance s
    let index ← expression s fuel 0
    let _ ← expect s .rbracket
    let _ ← expect s .assign
    let value ← expression s fuel 0
    let span ← endStatement s name.span
    return .assignAt name.literal index value span
  | .lparen =>
    let (args, callSpan) ← call s fuel
    let span ← endStatement s callSpan
    return .call name.literal name.span args callSpan span
  | _ =>
    let _ ← advance s
    unexpected s (utf8 "`=`, `[` or `(` after `" ++ name.literal ++ utf8 "`")

/-- `break;` -/
def breakStatement (s : Surroundings) : Parser Stmt := do
  let start ← advance s
  if s.inLoop then
    let span ← endStatement s start.span
    return .stop span
  else fail .breakOutsideLoop start.span

/-- The value of a `return`, unless its semicolon follows at once. -/
def returnValue (s : Surroundings) (fuel : Nat) : Parser (Option Expr) := do
  if ← isAt s .semicolon then return none
  else return some (← expression s fuel 0)

/-- `return;` or `return value;`, as the enclosing function declares. -/
def returnStatement (s : Surroundings) (fuel : Nat) : Parser Stmt := do
  let start ← advance s
  match s.function with
  | none => fail .returnOutsideFunction start.span
  | some (name, result) =>
    let value ← returnValue s fuel
    let span ← endStatement s start.span
    match result, value with
    | none, some _ => fail (.needlessReturnValue name) span
    | some t, none => fail (.missingReturnValue name t) span
    | _, _ => return .ret value span

/-- `exit value;` -/
def exitStatement (s : Surroundings) (fuel : Nat) : Parser Stmt := do
  let start ← advance s
  let value ← expression s fuel 0
  let span ← endStatement s start.span
  return .exit value span

mutual

/-- One statement. -/
def statement (s : Surroundings) (fuel : Nat) : Parser Stmt :=
  match fuel with
  | 0 => throw .outOfFuel
  | fuel + 1 => do
    match (← peek s).kind with
    | .kLet => letStatement s fuel
    | .ident => nameStatement s fuel
    | .kIf => ifStatement s fuel
    | .kLoop =>
      let start ← advance s
      let (body, bodySpan) ← block { s with inLoop := true } fuel
      return .loop body bodySpan (start.span.join bodySpan)
    | .kBreak => breakStatement s
    | .kReturn => returnStatement s fuel
    | .kExit => exitStatement s fuel
    | .kFn => fnDeclaration s fuel
    | _ => unexpected s (utf8 "a statement")

/-- `if cond { … }`, with any number of `else if` and perhaps an `else`. -/
def ifStatement (s : Surroundings) (fuel : Nat) : Parser Stmt :=
  match fuel with
  | 0 => throw .outOfFuel
  | fuel + 1 => do
    let start ← advance s
    let cond ← expression s fuel 0
    let (body, bodySpan) ← block s fuel
    let span := start.span.join bodySpan
    if ← isAt s .kElse then
      let _ ← advance s
      if ← isAt s .kIf then
        let nested ← ifStatement s fuel
        return .ifElse cond body bodySpan [nested] nested.span (span.join nested.span)
      else
        let (other, otherSpan) ← block s fuel
        return .ifElse cond body bodySpan other otherSpan (span.join otherSpan)
    else return .when cond body bodySpan span

/-- `fn name(params) { … }`, perhaps with a result type. Loops around it do not reach inside. -/
def fnDeclaration (s : Surroundings) (fuel : Nat) : Parser Stmt :=
  match fuel with
  | 0 => throw .outOfFuel
  | fuel + 1 => do
    let start ← advance s
    let name ← expect s .ident
    let _ ← expect s .lparen
    let params ← params s [] fuel
    let _ ← expect s .rparen
    let result ← optionalType s fuel .arrow
    let inner : Surroundings := ⟨s.eof, false, some (name.literal, result)⟩
    let (body, bodySpan) ← block inner fuel
    return .fn name.literal params result body bodySpan (start.span.join bodySpan)

/-- Statements in braces, and the span of the braces. -/
def block (s : Surroundings) (fuel : Nat) : Parser (List Stmt × Span) :=
  match fuel with
  | 0 => throw .outOfFuel
  | fuel + 1 => do
    let opening ← expect s .lcurly
    let body ← blockBody s fuel opening.span
    let closing ← advance s
    return (body, opening.span.join closing.span)

/-- Statements and stray semicolons up to the closing brace of the block opened at `opening`. -/
def blockBody (s : Surroundings) (fuel : Nat) (opening : Span) : Parser (List Stmt) :=
  match fuel with
  | 0 => throw .outOfFuel
  | fuel + 1 => do
    match (← peek s).kind with
    | .rcurly => return []
    | .eof => fail .unclosedBlock opening
    | .semicolon =>
      let _ ← advance s
      blockBody s fuel opening
    | _ =>
      let first ← statement s fuel
      let rest ← blockBody s fuel opening
      return first :: rest

end

section

variable {s : Surroundings}

@[simp] theorem statement_zero : statement s 0 = throw .outOfFuel := by
  rw [statement]

@[simp] theorem ifStatement_zero : ifStatement s 0 = throw .outOfFuel := by
  rw [ifStatement]

@[simp] theorem fnDeclaration_zero : fnDeclaration s 0 = throw .outOfFuel := by
  rw [fnDeclaration]

@[simp] theorem block_zero : block s 0 = throw .outOfFuel := by
  rw [block]

@[simp] theorem blockBody_zero (opening : Span) : blockBody s 0 opening = throw .outOfFuel := by
  rw [blockBody]

end

/-- Statements and stray semicolons up to the end of the tokens. -/
def statements (s : Surroundings) : Nat → Parser (List Stmt)
  | 0 => throw .outOfFuel
  | fuel + 1 => do
    match (← peek s).kind with
    | .eof => return []
    | .semicolon =>
      let _ ← advance s
      statements s fuel
    | _ =>
      let first ← statement s fuel
      let rest ← statements s fuel
      return first :: rest

end Parser

namespace Program

/-- The tokens before the first end of file. -/
def body (tokens : List Token) : List Token := tokens.takeWhile fun t => t.kind != .eof

/-- The end-of-file token of a list: its first, or one where its last token ends. -/
def endToken (tokens : List Token) : Token :=
  match tokens.find? fun t => t.kind == .eof with
  | some t => t
  | none =>
    let stop := (tokens.getLast?.map fun t => t.span.stop).getD 0
    ⟨.eof, [], ⟨stop, stop⟩⟩

/-- Fuel for any descent over `n` tokens. -/
def fuelFor (n : Nat) : Nat := 8 * n + 16

/-- Parses a token list, or finds its first fault. What follows the first end of file is not
looked at, and a missing one is supplied. -/
def parse (tokens : List Token) : Except Diagnostic Program :=
  let rest := body tokens
  let eof := endToken tokens
  match Parser.statements ⟨eof, false, none⟩ (fuelFor rest.length) rest with
  | .ok program _ => .ok program
  | .error (.fault d) _ => .error d
  | .error .outOfFuel _ => .error ⟨.unclosedBlock, eof.span⟩

/-- Lexes and parses a source. -/
def ofSource (source : Bytes) : Except Diagnostic Program := do parse (← Token.lex source)

end Program
end Scriptlet
