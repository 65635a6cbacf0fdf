import Scriptlet.Program.Parser
import Scriptlet.Proofs.Program.Placement

/-!
# Grammar: which token lists are programs

The grammar of the language, as rules that say which phrase a list of tokens is. Phrases carry bare
trees, in which every span stands at the origin, since a rule knows nothing of places.

Expressions come in levels, from loose to tight: 1 comparisons, 2 sums, 3 products, 4 negations and
powers, 5 operands with indices, 6 primaries. What is an expression of some level is one of every
looser level.
-/

namespace Scriptlet

/-! ## Bare trees -/

mutual

/-- The expression without its places. -/
def Expr.bare : Expr → Expr
  | .int n _ => .int n .origin
  | .str s _ => .str s .origin
  | .bool b _ => .bool b .origin
  | .ident name _ => .ident name .origin
  | .vec elems _ => .vec (Expr.allBare elems) .origin
  | .neg operand _ => .neg operand.bare .origin
  | .binary op left right _ => .binary op left.bare right.bare .origin
  | .call name _ args _ => .call name .origin (Expr.allBare args) .origin
  | .index target place _ => .index target.bare place.bare .origin

/-- The expressions without their places. -/
def Expr.allBare : List Expr → List Expr
  | [] => []
  | e :: rest => e.bare :: Expr.allBare rest

end

/-- The parameter without its place. -/
def Param.bare (p : Param) : Param := { p with span := .origin }

mutual

/-- The statement without its places. -/
def Stmt.bare : Stmt → Stmt
  | .letVar name _ type value _ => .letVar name .origin type value.bare .origin
  | .assign name value _ => .assign name value.bare .origin
  | .assignAt name place value _ => .assignAt name place.bare value.bare .origin
  | .call name _ args _ _ => .call name .origin (Expr.allBare args) .origin .origin
  | .when cond body _ _ => .when cond.bare (Stmt.allBare body) .origin .origin
  | .ifElse cond body _ other _ _ =>
    .ifElse cond.bare (Stmt.allBare body) .origin (Stmt.allBare other) .origin .origin
  | .loop body _ _ => .loop (Stmt.allBare body) .origin .origin
  | .stop _ => .stop .origin
  | .ret value _ => .ret (value.map Expr.bare) .origin
  | .exit value _ => .exit value.bare .origin
  | .fn name params result body _ _ =>
    .fn name (params.map Param.bare) result (Stmt.allBare body) .origin .origin

/-- The statements without their places. -/
def Stmt.allBare : List Stmt → List Stmt
  | [] => []
  | s :: rest => s.bare :: Stmt.allBare rest

end

namespace Grammar

/-! ## Words and types -/

/-- The value of a word of decimal digits. -/
def decimalValue (w : Bytes) : Nat := w.foldl (fun n b => 10 * n + (b.toNat - 48)) 0

/-- The word is a number in decimal digits that fits a signed word of 64 bits. -/
structure Numeral (w : Bytes) : Prop where
  nonempty : w ≠ []
  digits : ∀ b ∈ w, 48 ≤ b ∧ b ≤ 57
  fits : decimalValue w < signedBound

instance (w : Bytes) : Decidable (Numeral w) :=
  have : Decidable (∀ b ∈ w, 48 ≤ b ∧ b ≤ 57) := List.decidableBAll _ w
  decidable_of_iff (w ≠ [] ∧ (∀ b ∈ w, 48 ≤ b ∧ b ≤ 57) ∧ decimalValue w < signedBound)
    ⟨fun h => ⟨h.1, h.2.1, h.2.2⟩, fun h => ⟨h.nonempty, h.digits, h.fits⟩⟩

/-- The tokens write a type. -/
inductive TypeForm : List Token → Ty → Prop
  | int {w : Token} (hw : w.kind = .ident) (hn : w.literal = utf8 "int") : TypeForm [w] .int
  | str {w : Token} (hw : w.kind = .ident) (hn : w.literal = utf8 "str") : TypeForm [w] .str
  | bool {w : Token} (hw : w.kind = .ident) (hn : w.literal = utf8 "bool") : TypeForm [w] .bool
  | vec {w l r : Token} {ts : List Token} {t : Ty} (hw : w.kind = .ident)
    (hn : w.literal = utf8 "vec") (hl : l.kind = .lt) (h : TypeForm ts t) (hr : r.kind = .gt) :
    TypeForm (w :: l :: (ts ++ [r])) t.vecOf

/-- The tokens between a new variable and its value: a type, if one is given, and the `=`. The last
`>` of the type and the `=` may be one token. -/
inductive Annotation : List Token → Option Ty → Prop
  | plain {q : Token} (hq : q.kind = .assign) : Annotation [q] none
  | typed {c q : Token} {ts : List Token} {t : Ty} (hc : c.kind = .colon) (h : TypeForm ts t)
    (hq : q.kind = .assign) : Annotation (c :: (ts ++ [q])) (some t)
  | joined {c w l q : Token} {ts : List Token} {t : Ty} (hc : c.kind = .colon)
    (hw : w.kind = .ident) (hn : w.literal = utf8 "vec") (hl : l.kind = .lt) (h : TypeForm ts t)
    (hq : q.kind = .gtEq) : Annotation (c :: w :: l :: (ts ++ [q])) (some t.vecOf)

/-- The tokens between the parameters of a function and its body: the result type, if one is
declared. -/
inductive ResultForm : List Token → Option Ty → Prop
  | none : ResultForm [] none
  | some {a : Token} {ts : List Token} {t : Ty} (ha : a.kind = .arrow) (h : TypeForm ts t) :
    ResultForm (a :: ts) (some t)

/-- The tokens are parameters separated by commas, perhaps with one at the end. -/
inductive ParamsForm : List Token → List Param → Prop
  | none : ParamsForm [] []
  | last {x c : Token} {ts : List Token} {t : Ty} (hx : x.kind = .ident) (hc : c.kind = .colon)
    (h : TypeForm ts t) : ParamsForm (x :: c :: ts) [⟨x.literal, t, .origin⟩]
  | more {x c d : Token} {ts us : List Token} {t : Ty} {ps : List Param} (hx : x.kind = .ident)
    (hc : c.kind = .colon) (h : TypeForm ts t) (hd : d.kind = .comma) (h' : ParamsForm us ps) :
    ParamsForm (x :: c :: (ts ++ d :: us)) (⟨x.literal, t, .origin⟩ :: ps)

/-! ## Expressions -/

/-- How an operator is written. -/
def sign : BinOp → Kind
  | .add => .plus
  | .sub => .minus
  | .mul => .star
  | .div => .slash
  | .pow => .caret
  | .eq => .eq
  | .ne => .notEq
  | .gt => .gt
  | .lt => .lt
  | .ge => .gtEq
  | .le => .ltEq

/-- The levels of a binary expression and of its operands. -/
structure Levels where
  whole : Nat
  left : Nat
  right : Nat

/-- Operators group to the left, so the right operand is tighter than the whole; powers group to the
right, and their base is an operand with indices at most. -/
def levels : BinOp → Levels
  | .eq | .ne | .gt | .lt | .ge | .le => ⟨1, 1, 2⟩
  | .add | .sub => ⟨2, 2, 3⟩
  | .mul | .div => ⟨3, 3, 4⟩
  | .pow => ⟨4, 5, 4⟩

/-- What a list of tokens can be within a statement. -/
inductive Phrase where
  | expr (level : Nat) (e : Expr)
  /-- Arguments or vector elements. -/
  | items (es : List Expr)

/-- The tokens are the phrase. -/
inductive Derives : List Token → Phrase → Prop
  | int {t : Token} (hk : t.kind = .int) (hn : Numeral t.literal) :
    Derives [t] (.expr 6 (.int (Int64.ofNat (decimalValue t.literal)) .origin))
  | str {t : Token} (hk : t.kind = .str) : Derives [t] (.expr 6 (.str t.literal .origin))
  | yes {t : Token} (hk : t.kind = .kTrue) : Derives [t] (.expr 6 (.bool true .origin))
  | no {t : Token} (hk : t.kind = .kFalse) : Derives [t] (.expr 6 (.bool false .origin))
  | ident {t : Token} (hk : t.kind = .ident) : Derives [t] (.expr 6 (.ident t.literal .origin))
  | call {t l r : Token} {ts : List Token} {es : List Expr} (hk : t.kind = .ident)
    (hl : l.kind = .lparen) (h : Derives ts (.items es)) (hr : r.kind = .rparen) :
    Derives (t :: l :: (ts ++ [r])) (.expr 6 (.call t.literal .origin es .origin))
  | vec {l r : Token} {ts : List Token} {es : List Expr} (hl : l.kind = .lbracket)
    (h : Derives ts (.items es)) (hr : r.kind = .rbracket) :
    Derives (l :: (ts ++ [r])) (.expr 6 (.vec es .origin))
  | paren {l r : Token} {ts : List Token} {e : Expr} (hl : l.kind = .lparen)
    (h : Derives ts (.expr 1 e)) (hr : r.kind = .rparen) : Derives (l :: (ts ++ [r])) (.expr 6 e)
  | index {l r : Token} {ts us : List Token} {target place : Expr}
    (h : Derives ts (.expr 5 target)) (hl : l.kind = .lbracket) (h' : Derives us (.expr 1 place))
    (hr : r.kind = .rbracket) :
    Derives (ts ++ l :: (us ++ [r])) (.expr 5 (.index target place .origin))
  | neg {t : Token} {ts : List Token} {e : Expr} (hk : t.kind = .minus)
    (h : Derives ts (.expr 4 e)) : Derives (t :: ts) (.expr 4 (.neg e .origin))
  | binary {op : BinOp} {t : Token} {ts us : List Token} {a b : Expr}
    (h : Derives ts (.expr (levels op).left a)) (hk : t.kind = sign op)
    (h' : Derives us (.expr (levels op).right b)) :
    Derives (ts ++ t :: us) (.expr (levels op).whole (.binary op a b .origin))
  | loosen {level : Nat} {ts : List Token} {e : Expr} (hl : 0 < level)
    (h : Derives ts (.expr (level + 1) e)) : Derives ts (.expr level e)
  | noItems : Derives [] (.items [])
  | lastItem {ts : List Token} {e : Expr} (h : Derives ts (.expr 1 e)) : Derives ts (.items [e])
  | moreItems {t : Token} {ts us : List Token} {e : Expr} {es : List Expr}
    (h : Derives ts (.expr 1 e)) (hk : t.kind = .comma) (h' : Derives us (.items es)) :
    Derives (ts ++ t :: us) (.items (e :: es))

/-! ## Statements -/

/-- What a list of tokens can be within a program. -/
inductive Piece where
  | stmt (s : Stmt)
  /-- Statements in braces. -/
  | block (ss : List Stmt)
  /-- Statements and any number of stray semicolons. -/
  | body (ss : List Stmt)

/-- The tokens are the piece, at a place with the given loop and function around it. -/
inductive Forms : Place → List Token → Piece → Prop
  | letVar {c : Place} {k x z : Token} {ts us : List Token} {type : Option Ty} {e : Expr}
    (hk : k.kind = .kLet) (hx : x.kind = .ident) (ha : Annotation ts type)
    (h : Derives us (.expr 1 e)) (hz : z.kind = .semicolon) :
    Forms c (k :: x :: (ts ++ (us ++ [z]))) (.stmt (.letVar x.literal .origin type e .origin))
  | assign {c : Place} {x q z : Token} {ts : List Token} {e : Expr} (hx : x.kind = .ident)
    (hq : q.kind = .assign) (h : Derives ts (.expr 1 e)) (hz : z.kind = .semicolon) :
    Forms c (x :: q :: (ts ++ [z])) (.stmt (.assign x.literal e .origin))
  | assignAt {c : Place} {x l r q z : Token} {ts us : List Token} {place e : Expr}
    (hx : x.kind = .ident) (hl : l.kind = .lbracket) (h : Derives ts (.expr 1 place))
    (hr : r.kind = .rbracket) (hq : q.kind = .assign) (h' : Derives us (.expr 1 e))
    (hz : z.kind = .semicolon) :
    Forms c (x :: l :: (ts ++ r :: q :: (us ++ [z]))) (.stmt (.assignAt x.literal place e .origin))
  | call {c : Place} {x l r z : Token} {ts : List Token} {es : List Expr} (hx : x.kind = .ident)
    (hl : l.kind = .lparen) (h : Derives ts (.items es)) (hr : r.kind = .rparen)
    (hz : z.kind = .semicolon) :
    Forms c (x :: l :: (ts ++ [r, z])) (.stmt (.call x.literal .origin es .origin .origin))
  | when {c : Place} {k : Token} {ts us : List Token} {cond : Expr} {body : List Stmt}
    (hk : k.kind = .kIf) (h : Derives ts (.expr 1 cond)) (hb : Forms c us (.block body)) :
    Forms c (k :: (ts ++ us)) (.stmt (.when cond body .origin .origin))
  | ifElse {c : Place} {k l : Token} {ts us vs : List Token} {cond : Expr} {body other : List Stmt}
    (hk : k.kind = .kIf) (h : Derives ts (.expr 1 cond)) (hb : Forms c us (.block body))
    (hl : l.kind = .kElse) (ho : Forms c vs (.block other)) :
    Forms c (k :: (ts ++ (us ++ l :: vs)))
      (.stmt (.ifElse cond body .origin other .origin .origin))
  | elseIf {c : Place} {k l i : Token} {ts us vs : List Token} {cond : Expr} {body : List Stmt}
    {nested : Stmt} (hk : k.kind = .kIf) (h : Derives ts (.expr 1 cond))
    (hb : Forms c us (.block body)) (hl : l.kind = .kElse) (hi : i.kind = .kIf)
    (ho : Forms c (i :: vs) (.stmt nested)) :
    Forms c (k :: (ts ++ (us ++ l :: i :: vs)))
      (.stmt (.ifElse cond body .origin [nested] .origin .origin))
  | loop {c : Place} {k : Token} {ts : List Token} {body : List Stmt} (hk : k.kind = .kLoop)
    (hb : Forms { c with inLoop := true } ts (.block body)) :
    Forms c (k :: ts) (.stmt (.loop body .origin .origin))
  | stop {c : Place} {k z : Token} (hk : k.kind = .kBreak) (hc : c.inLoop = true)
    (hz : z.kind = .semicolon) : Forms c [k, z] (.stmt (.stop .origin))
  | ret {c : Place} {k z : Token} (hk : k.kind = .kReturn) (hc : c.function = some none)
    (hz : z.kind = .semicolon) : Forms c [k, z] (.stmt (.ret none .origin))
  | retValue {c : Place} {k z : Token} {ts : List Token} {t : Ty} {e : Expr}
    (hk : k.kind = .kReturn) (hc : c.function = some (some t)) (h : Derives ts (.expr 1 e))
    (hz : z.kind = .semicolon) : Forms c (k :: (ts ++ [z])) (.stmt (.ret (some e) .origin))
  | exit {c : Place} {k z : Token} {ts : List Token} {e : Expr} (hk : k.kind = .kExit)
    (h : Derives ts (.expr 1 e)) (hz : z.kind = .semicolon) :
    Forms c (k :: (ts ++ [z])) (.stmt (.exit e .origin))
  | fn {c : Place} {k x l r : Token} {ts us vs : List Token} {params : List Param}
    {result : Option Ty} {body : List Stmt} (hk : k.kind = .kFn) (hx : x.kind = .ident)
    (hl : l.kind = .lparen) (hp : ParamsForm ts params) (hd : (params.map Param.name).Nodup)
    (hr : r.kind = .rparen) (ht : ResultForm us result)
    (hb : Forms (.body result) vs (.block body)) :
    Forms c (k :: x :: l :: (ts ++ r :: (us ++ vs)))
      (.stmt (.fn x.literal params result body .origin .origin))
  | block {c : Place} {l r : Token} {ts : List Token} {ss : List Stmt} (hl : l.kind = .lcurly)
    (h : Forms c ts (.body ss)) (hr : r.kind = .rcurly) : Forms c (l :: (ts ++ [r])) (.block ss)
  | noStmts {c : Place} : Forms c [] (.body [])
  | semicolon {c : Place} {z : Token} {ts : List Token} {ss : List Stmt}
    (hz : z.kind = .semicolon) (h : Forms c ts (.body ss)) : Forms c (z :: ts) (.body ss)
  | moreStmts {c : Place} {ts us : List Token} {s : Stmt} {ss : List Stmt}
    (h : Forms c ts (.stmt s)) (h' : Forms c us (.body ss)) : Forms c (ts ++ us) (.body (s :: ss))

/-- The tokens are the program. -/
def Programs (ts : List Token) (p : Program) : Prop := Forms .top ts (.body p)

end Grammar
end Scriptlet
