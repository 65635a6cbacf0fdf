import Scriptlet.Token
import Scriptlet.Value

/-!
# Fault: what can be wrong with a program

Every error of the language is a cause. A cause belongs to one error code and has one wording: a
message, and a note that is drawn under the offending text. Where a note would be empty, the
message takes its place.
-/

namespace Scriptlet

/-- The families of language errors. -/
inductive Code where
  /-- The text is not a program. -/
  | malformed
  | mismatchedTypes
  | invalidConversion
  | function
  | undeclared
  | index
  | arithmetic
  /-- A budget of steps or calls ran out, or the run was cancelled. -/
  | limit
  | io
  | incorrectType
deriving DecidableEq, Repr, Inhabited

/-- The key an error family is known by. -/
def Code.key : Code → Bytes
  | .malformed => utf8 "E0001"
  | .mismatchedTypes => utf8 "E0002"
  | .invalidConversion => utf8 "E0003"
  | .function => utf8 "E0004"
  | .undeclared => utf8 "E0005"
  | .index => utf8 "E0006"
  | .arithmetic => utf8 "E0007"
  | .limit => utf8 "E0008"
  | .io => utf8 "E0009"
  | .incorrectType => utf8 "E0011"

/-- The scalar types that values can be converted to. -/
inductive Target where
  | int | bool
deriving DecidableEq, Repr

/-- How a conversion target is written. -/
def Target.name : Target → Bytes
  | .int => utf8 "int"
  | .bool => utf8 "bool"

/-- What an operand, an index or an argument was required to be. -/
inductive Need where
  | vector | int | bool | str | strOrInt | strOrVector
  /-- The type of the other operand of a comparison. -/
  | like (t : Ty)
deriving DecidableEq, Repr

/-- How a requirement is worded, to be set in backticks. -/
def Need.name : Need → Bytes
  | .vector => utf8 "vector"
  | .int => utf8 "int"
  | .bool => utf8 "bool"
  | .str => utf8 "str"
  | .strOrInt => utf8 "str` or `int"
  | .strOrVector => utf8 "str` or `vector"
  | .like t => t.render

/-- The causes of language errors. -/
inductive Fault where
  /- Reading characters. -/
  | strayCharacter (c : Char)
  | literalTooLarge
  | unterminatedString
  | unknownEscape
  /- Reading tokens. -/
  | expected (want : Bytes) (found : Token)
  | breakOutsideLoop
  | returnOutsideFunction
  | needlessReturnValue (function : Bytes)
  | missingReturnValue (function : Bytes) (result : Ty)
  | duplicateParameter (name : Bytes)
  | unclosedBlock
  | unknownType (name : Bytes)
  | invalidInteger
  /- Running. -/
  | mismatch (need : Need) (got : Ty)
  | conversion (value : Value) (target : Target)
  | noSuchFunction (name : Bytes)
  | noValue (function : Bytes)
  | didNotReturn (function : Bytes)
  | wrongReturn (want got : Ty)
  | wrongArity (want got : Nat)
  | redefinesBuiltin (name : Bytes)
  | undeclared (name : Bytes)
  | negativeIndex
  | indexOutOfBounds (index : Int64) (length : Nat)
  | slotOutOfBounds (index : Int64) (length : Nat)
  | divisionByZero
  | negativeExponent
  | stepLimit (steps : Int64)
  | callDepth (calls : Nat)
  | cancelled (reason : Bytes)
  | writeFailed (reason : Bytes)
  | readFailed (reason : Bytes)
  | wrongType (want got : Ty)
  | emptyVector
deriving Repr

namespace Fault

/-- The family a cause belongs to. -/
def code : Fault → Code
  | .strayCharacter _ | .literalTooLarge | .unterminatedString | .unknownEscape => .malformed
  | .expected _ _ | .breakOutsideLoop | .returnOutsideFunction | .needlessReturnValue _ =>
    .malformed
  | .missingReturnValue _ _ | .duplicateParameter _ | .unclosedBlock => .malformed
  | .unknownType _ | .invalidInteger => .malformed
  | .mismatch _ _ => .mismatchedTypes
  | .conversion _ _ => .invalidConversion
  | .noSuchFunction _ | .noValue _ | .didNotReturn _ | .wrongReturn _ _ => .function
  | .wrongArity _ _ | .redefinesBuiltin _ => .function
  | .undeclared _ => .undeclared
  | .negativeIndex | .indexOutOfBounds _ _ | .slotOutOfBounds _ _ => .index
  | .divisionByZero | .negativeExponent => .arithmetic
  | .stepLimit _ | .callDepth _ | .cancelled _ => .limit
  | .writeFailed _ | .readFailed _ => .io
  | .wrongType _ _ | .emptyVector => .incorrectType

/-- `name` in backticks. -/
def ticked (name : Bytes) : Bytes := utf8 "`" ++ name ++ utf8 "`"

/-- Two types that should have been one. -/
def typesDiffer (want got : Ty) : Bytes :=
  utf8 "mismatched data types expected " ++ want.render ++ utf8 " found " ++ got.render

/-- How a conversion error names its value: strings by their text, all else by type. -/
def conversionSource : Value → Bytes
  | .str s => quoted s
  | v => v.type.render

/-- An index that no element has. -/
def outOfBounds (index : Int64) (length : Nat) : Bytes :=
  utf8 "index " ++ signedDecimal index.toInt ++
    utf8 " is out of bounds for vector of length " ++ decimal length

/-- What went wrong. -/
def message : Fault → Bytes
  | .strayCharacter c => utf8 "unexpected character " ++ quotedChar c
  | .literalTooLarge => utf8 "integer literal is too large"
  | .unterminatedString => utf8 "unterminated string literal"
  | .unknownEscape => utf8 "unknown escape sequence"
  | .expected want found =>
    utf8 "expected " ++ want ++ utf8 ", found " ++ found.describe
  | .breakOutsideLoop => utf8 "`break` outside of a loop"
  | .returnOutsideFunction => utf8 "`return` outside of a function"
  | .needlessReturnValue f =>
    utf8 "function " ++ ticked f ++ utf8 " does not declare a return type"
  | .missingReturnValue f t =>
    utf8 "function " ++ ticked f ++ utf8 " must return a value of type " ++ t.render
  | .duplicateParameter name => utf8 "duplicate parameter " ++ ticked name
  | .unclosedBlock => utf8 "unclosed block"
  | .unknownType name => utf8 "unknown type " ++ ticked name
  | .invalidInteger => utf8 "invalid integer literal"
  | .mismatch need got =>
    utf8 "mismatched data types, expected " ++ ticked need.name ++ utf8 " found " ++ got.render
  | .conversion v target =>
    utf8 "cannot convert " ++ conversionSource v ++ utf8 " to " ++ target.name
  | .noSuchFunction name => utf8 "function " ++ ticked name ++ utf8 " does not exist"
  | .noValue name => utf8 "function " ++ ticked name ++ utf8 " does not return a value"
  | .didNotReturn name => utf8 "function " ++ ticked name ++ utf8 " did not return a value"
  | .wrongReturn want got => typesDiffer want got
  | .wrongArity _ _ => utf8 "wrong number of arguments"
  | .redefinesBuiltin name => utf8 "cannot redefine builtin function " ++ ticked name
  | .undeclared name => utf8 "undeclared variable " ++ ticked name
  | .negativeIndex => utf8 "index cannot be negative"
  | .indexOutOfBounds i n => utf8 "index out of bounds, " ++ outOfBounds i n
  | .slotOutOfBounds _ _ => utf8 "index out of bounds"
  | .divisionByZero => utf8 "division by zero"
  | .negativeExponent => utf8 "negative exponent"
  | .stepLimit _ => utf8 "step limit exceeded"
  | .callDepth _ => utf8 "call stack exhausted"
  | .cancelled _ => utf8 "execution cancelled"
  | .writeFailed _ => utf8 "failed to write output"
  | .readFailed _ => utf8 "failed to read input"
  | .wrongType _ _ => utf8 "incorrect data type"
  | .emptyVector => utf8 "cannot infer the type of an empty vector"

/-- The note that is drawn under the place; empty where the message says it all. -/
def note : Fault → Bytes
  | .strayCharacter _ => utf8 "this character is not part of the language"
  | .literalTooLarge => utf8 "integers must fit in 64 bits"
  | .unterminatedString => utf8 "missing closing quote"
  | .unknownEscape => utf8 "supported escapes are \\t \\b \\n \\r \\f \\\" and \\\\"
  | .expected want _ => utf8 "expected " ++ want ++ utf8 " here"
  | .breakOutsideLoop => utf8 "`break` can only be used inside `loop`"
  | .returnOutsideFunction => utf8 "`return` can only be used inside `fn`"
  | .needlessReturnValue _ => utf8 "add `-> type` to the signature or return without a value"
  | .missingReturnValue _ _ => utf8 "expected a value after `return`"
  | .duplicateParameter _ => utf8 "parameter names must be unique"
  | .unclosedBlock => utf8 "this `\x7b` is never closed"
  | .unknownType _ => utf8 "expected one of int, str, bool or vec<T>"
  | .invalidInteger => []
  | .mismatch need _ => utf8 "a value of type " ++ ticked need.name ++ utf8 " was expected"
  | .conversion _ target => utf8 "invalid conversion to " ++ ticked target.name
  | .noSuchFunction _ => utf8 "tried to call a function which does not exist"
  | .noValue _ => utf8 "this call is used as a value"
  | .didNotReturn _ => utf8 "expected function to return a value"
  | .wrongReturn _ _ => utf8 "incorrect return type"
  | .wrongArity want got =>
    decimal want ++ utf8 " arguments were expected but " ++ decimal got ++ utf8 " were passed"
  | .redefinesBuiltin _ => utf8 "choose a different function name"
  | .undeclared _ => utf8 "attempted to access value of undeclared variable"
  | .negativeIndex => utf8 "index cannot be negative"
  | .indexOutOfBounds _ _ => utf8 "index out of bounds"
  | .slotOutOfBounds i n => outOfBounds i n
  | .divisionByZero => utf8 "the divisor evaluates to zero"
  | .negativeExponent => utf8 "exponents must not be negative"
  | .stepLimit n =>
    utf8 "execution stopped after " ++ signedDecimal n.toInt ++ utf8 " steps"
  | .callDepth n => utf8 "more than " ++ decimal n ++ utf8 " nested calls"
  | .cancelled reason => reason
  | .writeFailed reason => reason
  | .readFailed reason => reason
  | .wrongType want got => typesDiffer want got
  | .emptyVector => utf8 "add a type annotation such as `vec<int>`"

end Fault
end Scriptlet
