import Scriptlet.Program.Nodes
import Scriptlet.Proofs.Program.Forest
import Scriptlet.Proofs.Program.Headings

/-!
# Outlines: an outline can be read back

An outline is the lines of a forest, and they tell the labels of its nodes and how these are nested.
The forest is read from the leaves upwards: each node becomes an expression, a statement or one of
the branches of an `if`, according to its label and to what its children became. A call is read as
an expression first, since its outline does not say which it is, and becomes a statement where
statements stand. What is read from the forest of a program is the program without its places.
-/

namespace Scriptlet

/-! ## From programs to forests -/

mutual

/-- The forest of an expression, with `rest` behind it. -/
def Expr.forest : Expr → Forest Label → Forest Label
  | .int n _, rest => .node ⟨.int, n⟩ .nil rest
  | .str s _, rest => .node ⟨.str, s⟩ .nil rest
  | .bool b _, rest => .node ⟨.bool, b⟩ .nil rest
  | .ident name _, rest => .node ⟨.ident, name⟩ .nil rest
  | .vec elems _, rest => .node ⟨.vec, ()⟩ (Expr.forests elems .nil) rest
  | .neg operand _, rest => .node ⟨.unary, ()⟩ (operand.forest .nil) rest
  | .binary op left right _, rest =>
    .node ⟨.binary, op⟩ (left.forest (right.forest .nil)) rest
  | .call name _ args _, rest => .node ⟨.call, name⟩ (Expr.forests args .nil) rest
  | .index target place _, rest => .node ⟨.index, ()⟩ (target.forest (place.forest .nil)) rest

/-- The forest of several expressions, with `rest` behind it. -/
def Expr.forests : List Expr → Forest Label → Forest Label
  | [], rest => rest
  | e :: es, rest => e.forest (Expr.forests es rest)

end

mutual

/-- The forest of a statement, with `rest` behind it. -/
def Stmt.forest : Stmt → Forest Label → Forest Label
  | .letVar name _ type value _, rest => .node ⟨.letVar, (name, type)⟩ (value.forest .nil) rest
  | .assign name value _, rest => .node ⟨.assign, name⟩ (value.forest .nil) rest
  | .assignAt name place value _, rest =>
    .node ⟨.assignAt, name⟩ (place.forest (value.forest .nil)) rest
  | .call name _ args _ _, rest => .node ⟨.call, name⟩ (Expr.forests args .nil) rest
  | .when cond body _ _, rest =>
    .node ⟨.when, ()⟩ (cond.forest (.node ⟨.yes, ()⟩ (Stmt.forests body .nil) .nil)) rest
  | .ifElse cond body _ other _ _, rest =>
    .node ⟨.when, ()⟩ (cond.forest (.node ⟨.yes, ()⟩ (Stmt.forests body .nil)
      (.node ⟨.no, ()⟩ (Stmt.forests other .nil) .nil))) rest
  | .loop body _ _, rest => .node ⟨.loop, ()⟩ (Stmt.forests body .nil) rest
  | .stop _, rest => .node ⟨.stop, ()⟩ .nil rest
  | .ret none _, rest => .node ⟨.ret, ()⟩ .nil rest
  | .ret (some value) _, rest => .node ⟨.ret, ()⟩ (value.forest .nil) rest
  | .exit value _, rest => .node ⟨.exit, ()⟩ (value.forest .nil) rest
  | .fn name params result body _ _, rest =>
    .node ⟨.fn, (name, params.map Param.bare, result)⟩ (Stmt.forests body .nil) rest

/-- The forest of several statements, with `rest` behind it. -/
def Stmt.forests : List Stmt → Forest Label → Forest Label
  | [], rest => rest
  | s :: ss, rest => s.forest (Stmt.forests ss rest)

end

/-! ## The lines of an outline are those of the forest -/

/-- A labelled line as it stands in an outline. -/
def Label.line (l : Nat × Label) : OutlineLine := (l.1, l.2.render)

/-- The forest as an outline. -/
def Forest.outline (depth : Nat) (f : Forest Label) : List OutlineLine :=
  (f.lines depth).map Label.line

@[simp] theorem Forest.outline_nil (depth : Nat) : Forest.outline depth .nil = [] := rfl

@[simp] theorem Forest.outline_node (depth : Nat) (l : Label) (children rest : Forest Label) :
    Forest.outline depth (.node l children rest) =
      (depth, l.render) :: (children.outline (depth + 1) ++ rest.outline depth) := by
  rw [Forest.outline, Forest.lines, List.map_cons, List.map_append]
  rfl

mutual

theorem Expr.outline_forest (depth : Nat) :
    (e : Expr) → (rest : Forest Label) →
      (e.forest rest).outline depth = e.outline depth ++ rest.outline depth
  | .int .., rest | .str .., rest | .bool .., rest | .ident .., rest => by
    rw [Expr.forest, Forest.outline_node]
    rfl
  | .vec elems _, rest => by
    rw [Expr.forest, Forest.outline_node, Expr.outline_forests, Forest.outline_nil,
      List.append_nil]
    rfl
  | .neg operand _, rest => by
    rw [Expr.forest, Forest.outline_node, operand.outline_forest, Forest.outline_nil,
      List.append_nil]
    rfl
  | .binary op left right _, rest => by
    rw [Expr.forest, Forest.outline_node, left.outline_forest, right.outline_forest,
      Forest.outline_nil, List.append_nil]
    rfl
  | .call name _ args _, rest => by
    rw [Expr.forest, Forest.outline_node, Expr.outline_forests, Forest.outline_nil,
      List.append_nil]
    rfl
  | .index target place _, rest => by
    rw [Expr.forest, Forest.outline_node, target.outline_forest, place.outline_forest,
      Forest.outline_nil, List.append_nil]
    rfl

theorem Expr.outline_forests (depth : Nat) :
    (es : List Expr) → (rest : Forest Label) →
      (Expr.forests es rest).outline depth = Expr.outlines depth es ++ rest.outline depth
  | [], _ => rfl
  | e :: es, rest => by
    rw [Expr.forests, e.outline_forest, Expr.outline_forests, Expr.outlines, List.append_assoc]

end

/-- The line of a variable, whose type may be left out. -/
theorem Label.render_letVar (name : Bytes) (type : Option Ty) :
    Label.render ⟨.letVar, (name, type)⟩ =
      utf8 "Let " ++ name ++ Heading.typePart (utf8 ": ") type :=
  rfl

theorem signature_eq (name : Bytes) (params : List Param) (result : Option Ty) :
    signature name params result =
      Label.render ⟨.fn, (name, params.map Param.bare, result)⟩ := by
  have hparams : (params.map Param.bare).map Heading.parameter =
      params.map fun p => p.name ++ utf8 ": " ++ p.type.render := by
    rw [List.map_map]
    rfl
  have hline : Label.render ⟨.fn, (name, params.map Param.bare, result)⟩ =
      utf8 "Fn " ++ (name ++ (utf8 "(" ++
        ((utf8 ", ").intercalate ((params.map Param.bare).map Heading.parameter) ++
          (utf8 ")" ++ Heading.typePart (utf8 " -> ") result)))) := rfl
  rw [hline, hparams]
  cases result with
  | none => simp only [signature, Heading.typePart, List.append_assoc, List.append_nil]
  | some t => simp only [signature, Heading.typePart, List.append_assoc]

mutual

theorem Stmt.outline_forest (depth : Nat) :
    (s : Stmt) → (rest : Forest Label) →
      (s.forest rest).outline depth = s.outline depth ++ rest.outline depth
  | .letVar name _ none value _, rest => by
    rw [Stmt.forest, Forest.outline_node, value.outline_forest, Forest.outline_nil,
      List.append_nil, Label.render_letVar, Heading.typePart, List.append_nil]
    rfl
  | .letVar name _ (some t) value _, rest => by
    rw [Stmt.forest, Forest.outline_node, value.outline_forest, Forest.outline_nil,
      List.append_nil, Label.render_letVar, Heading.typePart, ← List.append_assoc]
    rfl
  | .assign name value _, rest => by
    rw [Stmt.forest, Forest.outline_node, value.outline_forest, Forest.outline_nil,
      List.append_nil]
    rfl
  | .assignAt name place value _, rest => by
    rw [Stmt.forest, Forest.outline_node, place.outline_forest, value.outline_forest,
      Forest.outline_nil, List.append_nil]
    rfl
  | .call name _ args _ _, rest => by
    rw [Stmt.forest, Forest.outline_node, Expr.outline_forests, Forest.outline_nil,
      List.append_nil]
    rfl
  | .when cond body _ _, rest => by
    rw [Stmt.forest, Forest.outline_node, cond.outline_forest, Forest.outline_node,
      Stmt.outline_forests, Forest.outline_nil, Forest.outline_nil, List.append_nil,
      List.append_nil]
    rfl
  | .ifElse cond body _ other _ _, rest => by
    rw [Stmt.forest, Forest.outline_node, cond.outline_forest, Forest.outline_node,
      Stmt.outline_forests, Forest.outline_nil, Forest.outline_node, Stmt.outline_forests,
      Forest.outline_nil, Forest.outline_nil, List.append_nil, List.append_nil, List.append_nil]
    rfl
  | .loop body _ _, rest => by
    rw [Stmt.forest, Forest.outline_node, Stmt.outline_forests, Forest.outline_nil,
      List.append_nil]
    rfl
  | .stop _, rest | .ret none _, rest => by
    rw [Stmt.forest, Forest.outline_node]
    rfl
  | .ret (some value) _, rest | .exit value _, rest => by
    rw [Stmt.forest, Forest.outline_node, value.outline_forest, Forest.outline_nil,
      List.append_nil]
    rfl
  | .fn name params result body _ _, rest => by
    rw [Stmt.forest, Forest.outline_node, Stmt.outline_forests, Forest.outline_nil,
      List.append_nil, ← signature_eq]
    rfl

theorem Stmt.outline_forests (depth : Nat) :
    (ss : List Stmt) → (rest : Forest Label) →
      (Stmt.forests ss rest).outline depth = Stmt.outlines depth ss ++ rest.outline depth
  | [], _ => rfl
  | s :: ss, rest => by
    rw [Stmt.forests, s.outline_forest, Stmt.outline_forests, Stmt.outlines, List.append_assoc]

end

/-! ## Back from forests to programs -/

/-- What a node of an outline can stand for. -/
inductive Portion where
  | expr (e : Expr)
  | stmt (s : Stmt)
  /-- What an `if` does if its condition holds. -/
  | yes (body : List Stmt)
  /-- What an `if` does otherwise. -/
  | no (body : List Stmt)

namespace Portion

/-- The expression, where expressions stand. -/
def expr? : Portion → Option Expr
  | .expr e => some e
  | _ => none

/-- The statement, where statements stand: a call is one there. -/
def stmt? : Portion → Option Stmt
  | .stmt s => some s
  | .expr (.call name nameSpan args span) => some (.call name nameSpan args span span)
  | _ => none

end Portion

/-- What a node stands for, from its label and from what its children stand for. -/
def Heading.portion? : (h : Heading) → h.Detail → List Portion → Option Portion
  | .int, (n : Int64), [] => some (.expr (.int n .origin))
  | .str, (s : Bytes), [] => some (.expr (.str s .origin))
  | .bool, (b : Bool), [] => some (.expr (.bool b .origin))
  | .ident, (name : Bytes), [] => some (.expr (.ident name .origin))
  | .vec, _, ps => (ps.mapM Portion.expr?).map fun elems => .expr (.vec elems .origin)
  | .unary, _, [.expr operand] => some (.expr (.neg operand .origin))
  | .binary, (op : BinOp), [.expr left, .expr right] =>
    some (.expr (.binary op left right .origin))
  | .call, (name : Bytes), ps =>
    (ps.mapM Portion.expr?).map fun args => .expr (.call name .origin args .origin)
  | .index, _, [.expr target, .expr place] => some (.expr (.index target place .origin))
  | .letVar, (name, type), [.expr value] => some (.stmt (.letVar name .origin type value .origin))
  | .assign, (name : Bytes), [.expr value] => some (.stmt (.assign name value .origin))
  | .assignAt, (name : Bytes), [.expr place, .expr value] =>
    some (.stmt (.assignAt name place value .origin))
  | .when, _, [.expr cond, .yes body] => some (.stmt (.when cond body .origin .origin))
  | .when, _, [.expr cond, .yes body, .no other] =>
    some (.stmt (.ifElse cond body .origin other .origin .origin))
  | .yes, _, ps => (ps.mapM Portion.stmt?).map .yes
  | .no, _, ps => (ps.mapM Portion.stmt?).map .no
  | .loop, _, ps => (ps.mapM Portion.stmt?).map fun body => .stmt (.loop body .origin .origin)
  | .stop, _, [] => some (.stmt (.stop .origin))
  | .ret, _, [] => some (.stmt (.ret none .origin))
  | .ret, _, [.expr value] => some (.stmt (.ret (some value) .origin))
  | .exit, _, [.expr value] => some (.stmt (.exit value .origin))
  | .fn, (name, params, result), ps =>
    (ps.mapM Portion.stmt?).map fun body => .stmt (.fn name params result body .origin .origin)
  | _, _, _ => none

/-- What the trees of a forest stand for, one after the other. -/
def Forest.portions? : Forest Label → Option (List Portion)
  | .nil => some []
  | .node l children rest => do
    let below ← children.portions?
    let first ← l.heading.portion? l.detail below
    let behind ← rest.portions?
    return first :: behind

/-- A node is read from what its children are read as, and then the rest is read. -/
theorem Forest.portions?_node (below : List Portion) {l : Label} {children : Forest Label}
    {first : Portion} (hchildren : children.portions? = some below)
    (hfirst : l.heading.portion? l.detail below = some first) (rest : Forest Label) :
    (Forest.node l children rest).portions? = rest.portions?.map (first :: ·) := by
  rw [portions?, hchildren, Option.bind_eq_bind, Option.bind_some, hfirst]
  cases rest.portions? <;> rfl

theorem Portion.mapM_expr? (es : List Expr) : (es.map Portion.expr).mapM expr? = some es := by
  induction es with
  | nil => rfl
  | cons e es ih =>
    rw [List.map_cons, List.mapM_cons, ih]
    rfl

/-- A node whose children are expressions, as many as there are. -/
theorem Forest.portions?_items (whole : List Expr → Portion) {l : Label} {es : List Expr}
    (hl : ∀ ps, l.heading.portion? l.detail ps = (ps.mapM Portion.expr?).map whole)
    (hes : (Expr.forests es .nil).portions? = some ((Expr.allBare es).map .expr))
    (rest : Forest Label) :
    (Forest.node l (Expr.forests es .nil) rest).portions? =
      rest.portions?.map (whole (Expr.allBare es) :: ·) := by
  refine portions?_node _ hes ?_ rest
  rw [hl, Portion.mapM_expr?]
  rfl

mutual

theorem Expr.portions?_forest : (e : Expr) → (rest : Forest Label) →
    (e.forest rest).portions? = rest.portions?.map (.expr e.bare :: ·)
  | .int .., rest | .str .., rest | .bool .., rest | .ident .., rest =>
    Forest.portions?_node [] rfl rfl rest
  | .vec elems _, rest =>
    Forest.portions?_items (fun es => .expr (.vec es .origin)) (fun _ => rfl)
      (Expr.portions?_forests elems) rest
  | .neg operand _, rest => Forest.portions?_node _ (operand.portions?_forest .nil) rfl rest
  | .binary op left right _, rest => by
    refine Forest.portions?_node [.expr left.bare, .expr right.bare] ?_ rfl rest
    rw [left.portions?_forest, right.portions?_forest]
    rfl
  | .call name _ args _, rest =>
    Forest.portions?_items (fun es => .expr (.call name .origin es .origin)) (fun _ => rfl)
      (Expr.portions?_forests args) rest
  | .index target place _, rest => by
    refine Forest.portions?_node [.expr target.bare, .expr place.bare] ?_ rfl rest
    rw [target.portions?_forest, place.portions?_forest]
    rfl

theorem Expr.portions?_forests : (es : List Expr) →
    (Expr.forests es .nil).portions? = some ((Expr.allBare es).map .expr)
  | [] => rfl
  | e :: es => by
    rw [Expr.forests, e.portions?_forest, Expr.portions?_forests]
    rfl

end

/-- What is read where a statement stands: a call is not told from an expression. -/
def Stmt.portion : Stmt → Portion
  | .call name _ args _ _ => .expr (.call name .origin (Expr.allBare args) .origin)
  | s => .stmt s.bare

theorem Stmt.stmt?_portion (s : Stmt) : s.portion.stmt? = some s.bare := by
  cases s <;> rfl

theorem Stmt.mapM_stmt? (ss : List Stmt) :
    (ss.map Stmt.portion).mapM Portion.stmt? = some (Stmt.allBare ss) := by
  induction ss with
  | nil => rfl
  | cons s ss ih =>
    rw [List.map_cons, List.mapM_cons, stmt?_portion, ih]
    rfl

/-- A node whose children are statements. -/
theorem Forest.portions?_block (whole : List Stmt → Portion) {l : Label} {body : List Stmt}
    (hl : ∀ ps, l.heading.portion? l.detail ps = (ps.mapM Portion.stmt?).map whole)
    (hbody : (Stmt.forests body .nil).portions? = some (body.map Stmt.portion))
    (rest : Forest Label) :
    (Forest.node l (Stmt.forests body .nil) rest).portions? =
      rest.portions?.map (whole (Stmt.allBare body) :: ·) := by
  refine portions?_node _ hbody ?_ rest
  rw [hl, Stmt.mapM_stmt?]
  rfl

mutual

theorem Stmt.portions?_forest : (s : Stmt) → (rest : Forest Label) →
    (s.forest rest).portions? = rest.portions?.map (s.portion :: ·)
  | .letVar _ _ _ value _, rest => Forest.portions?_node _ (value.portions?_forest .nil) rfl rest
  | .assign _ value _, rest => Forest.portions?_node _ (value.portions?_forest .nil) rfl rest
  | .assignAt _ place value _, rest => by
    refine Forest.portions?_node [.expr place.bare, .expr value.bare] ?_ rfl rest
    rw [place.portions?_forest, value.portions?_forest]
    rfl
  | .call name _ args _ _, rest =>
    Forest.portions?_items (fun es => .expr (.call name .origin es .origin)) (fun _ => rfl)
      (Expr.portions?_forests args) rest
  | .when cond body _ _, rest => by
    refine Forest.portions?_node [.expr cond.bare, .yes (Stmt.allBare body)] ?_ rfl rest
    rw [cond.portions?_forest,
      Forest.portions?_block .yes (fun _ => rfl) (Stmt.portions?_forests body)]
    rfl
  | .ifElse cond body _ other _ _, rest => by
    refine Forest.portions?_node
      [.expr cond.bare, .yes (Stmt.allBare body), .no (Stmt.allBare other)] ?_ rfl rest
    rw [cond.portions?_forest,
      Forest.portions?_block .yes (fun _ => rfl) (Stmt.portions?_forests body),
      Forest.portions?_block .no (fun _ => rfl) (Stmt.portions?_forests other)]
    rfl
  | .loop body _ _, rest =>
    Forest.portions?_block (fun ss => .stmt (.loop ss .origin .origin)) (fun _ => rfl)
      (Stmt.portions?_forests body) rest
  | .stop _, rest | .ret none _, rest => Forest.portions?_node [] rfl rfl rest
  | .ret (some value) _, rest | .exit value _, rest =>
    Forest.portions?_node _ (value.portions?_forest .nil) rfl rest
  | .fn name params result body _ _, rest =>
    Forest.portions?_block
      (fun ss => .stmt (.fn name (params.map Param.bare) result ss .origin .origin)) (fun _ => rfl)
      (Stmt.portions?_forests body) rest

theorem Stmt.portions?_forests : (ss : List Stmt) →
    (Stmt.forests ss .nil).portions? = some (ss.map Stmt.portion)
  | [] => rfl
  | s :: ss => by
    rw [Stmt.forests, s.portions?_forest, Stmt.portions?_forests]
    rfl

end

/-- The forest of a program tells the program without its places. -/
theorem Program.forest_injective {p q : Program}
    (h : Stmt.forests p .nil = Stmt.forests q .nil) : Stmt.allBare p = Stmt.allBare q := by
  have hportions : some (p.map Stmt.portion) = some (q.map Stmt.portion) := by
    rw [← Stmt.portions?_forests, h, Stmt.portions?_forests]
  have hread : some (Stmt.allBare p) = some (Stmt.allBare q) := by
    rw [← Stmt.mapM_stmt?, Option.some.inj hportions, Stmt.mapM_stmt?]
  exact Option.some.inj hread

/-! ## Nothing of a place is in a forest -/

mutual

theorem Expr.forest_bare : (e : Expr) → (rest : Forest Label) → e.bare.forest rest = e.forest rest
  | .int .., _ | .str .., _ | .bool .., _ | .ident .., _ => rfl
  | .vec elems _, rest | .call _ _ elems _, rest => by
    rw [Expr.bare, Expr.forest, Expr.forests_allBare]
    rfl
  | .neg operand _, rest => by
    rw [Expr.bare, Expr.forest, operand.forest_bare]
    rfl
  | .binary _ left right _, rest | .index left right _, rest => by
    rw [Expr.bare, Expr.forest, left.forest_bare, right.forest_bare]
    rfl

theorem Expr.forests_allBare : (es : List Expr) → (rest : Forest Label) →
    Expr.forests (Expr.allBare es) rest = Expr.forests es rest
  | [], _ => rfl
  | e :: es, rest => by
    rw [Expr.allBare, Expr.forests, e.forest_bare, Expr.forests_allBare]
    rfl

end

mutual

theorem Stmt.forest_bare : (s : Stmt) → (rest : Forest Label) → s.bare.forest rest = s.forest rest
  | .letVar _ _ _ value _, rest | .assign _ value _, rest | .exit value _, rest => by
    rw [Stmt.bare, Stmt.forest, value.forest_bare]
    rfl
  | .assignAt _ place value _, rest => by
    rw [Stmt.bare, Stmt.forest, place.forest_bare, value.forest_bare]
    rfl
  | .call _ _ args _ _, rest => by
    rw [Stmt.bare, Stmt.forest, Expr.forests_allBare]
    rfl
  | .when cond body _ _, rest => by
    rw [Stmt.bare, Stmt.forest, cond.forest_bare, Stmt.forests_allBare]
    rfl
  | .ifElse cond body _ other _ _, rest => by
    rw [Stmt.bare, Stmt.forest, cond.forest_bare, Stmt.forests_allBare, Stmt.forests_allBare]
    rfl
  | .loop body _ _, rest => by
    rw [Stmt.bare, Stmt.forest, Stmt.forests_allBare]
    rfl
  | .stop _, _ | .ret none _, _ => rfl
  | .ret (some value) _, rest => by
    rw [Stmt.bare, Option.map_some, Stmt.forest, value.forest_bare]
    rfl
  | .fn name params result body _ _, rest => by
    have hparams : (params.map Param.bare).map Param.bare = params.map Param.bare := by
      rw [List.map_map]
      rfl
    rw [Stmt.bare, Stmt.forest, hparams, Stmt.forests_allBare]
    rfl

theorem Stmt.forests_allBare : (ss : List Stmt) → (rest : Forest Label) →
    Stmt.forests (Stmt.allBare ss) rest = Stmt.forests ss rest
  | [], _ => rfl
  | s :: ss, rest => by
    rw [Stmt.allBare, Stmt.forests, s.forest_bare, Stmt.forests_allBare]
    rfl

end

/-! ## The labels of a parsed program -/

mutual

theorem Expr.all_forest : (e : Expr) → (rest : Forest Label) → e.Legible → rest.All Label.Legible →
    (e.forest rest).All Label.Legible
  | .int .., _, _, hrest | .str .., _, _, hrest | .bool .., _, _, hrest =>
    ⟨trivial, trivial, hrest⟩
  | .ident .., _, h, hrest => ⟨h, trivial, hrest⟩
  | .vec elems _, _, h, hrest => ⟨trivial, Expr.all_forests elems .nil h trivial, hrest⟩
  | .neg operand _, _, h, hrest => ⟨trivial, operand.all_forest .nil h trivial, hrest⟩
  | .binary _ left right _, _, h, hrest | .index left right _, _, h, hrest =>
    ⟨trivial, left.all_forest _ h.1 (right.all_forest .nil h.2 trivial), hrest⟩
  | .call _ _ args _, _, h, hrest => ⟨h.1, Expr.all_forests args .nil h.2 trivial, hrest⟩

theorem Expr.all_forests : (es : List Expr) → (rest : Forest Label) → Expr.AllLegible es →
    rest.All Label.Legible → (Expr.forests es rest).All Label.Legible
  | [], _, _, hrest => hrest
  | e :: es, rest, h, hrest => e.all_forest _ h.1 (Expr.all_forests es rest h.2 hrest)

end

theorem Param.legible_bare {params : List Param} (hword : ∀ p ∈ params, p.name.Word)
    (hknown : ∀ p ∈ params, p.type.Known) : ∀ p ∈ params.map Param.bare, p.Legible := by
  intro p hp
  obtain ⟨q, hq, rfl⟩ := List.mem_map.1 hp
  exact ⟨hword q hq, hknown q hq, rfl⟩

mutual

theorem Stmt.all_forest : {c : Place} → (s : Stmt) → (rest : Forest Label) → s.Legible →
    s.Placed c → rest.All Label.Legible → (s.forest rest).All Label.Legible
  | _, .letVar _ _ _ value _, _, h, hp, hrest =>
    ⟨⟨h.1, hp⟩, value.all_forest .nil h.2 trivial, hrest⟩
  | _, .assign _ value _, _, h, _, hrest => ⟨h.1, value.all_forest .nil h.2 trivial, hrest⟩
  | _, .assignAt _ place value _, _, h, _, hrest =>
    ⟨h.1, place.all_forest _ h.2.1 (value.all_forest .nil h.2.2 trivial), hrest⟩
  | _, .call _ _ args _ _, _, h, _, hrest =>
    ⟨h.1, Expr.all_forests args .nil h.2 trivial, hrest⟩
  | _, .when cond body _ _, _, h, hp, hrest =>
    have hbody := Stmt.all_forests body .nil h.2 hp trivial
    ⟨trivial, cond.all_forest _ h.1 ⟨trivial, hbody, trivial⟩, hrest⟩
  | _, .ifElse cond body _ other _ _, _, h, hp, hrest =>
    have hbody := Stmt.all_forests body .nil h.2.1 hp.1 trivial
    have hother := Stmt.all_forests other .nil h.2.2 hp.2 trivial
    ⟨trivial, cond.all_forest _ h.1 ⟨trivial, hbody, trivial, hother, trivial⟩, hrest⟩
  | _, .loop body _ _, _, h, hp, hrest =>
    ⟨trivial, Stmt.all_forests body .nil h hp trivial, hrest⟩
  | _, .stop _, _, _, _, hrest | _, .ret none _, _, _, _, hrest => ⟨trivial, trivial, hrest⟩
  | _, .ret (some value) _, _, h, _, hrest | _, .exit value _, _, h, _, hrest =>
    ⟨trivial, value.all_forest .nil h trivial, hrest⟩
  | _, .fn _ _ _ body _ _, _, h, hp, hrest =>
    ⟨⟨h.1, Param.legible_bare h.2.1 hp.1, hp.2.1⟩,
      Stmt.all_forests body .nil h.2.2 hp.2.2 trivial, hrest⟩

theorem Stmt.all_forests : {c : Place} → (ss : List Stmt) → (rest : Forest Label) →
    Stmt.AllLegible ss → Stmt.AllPlaced c ss → rest.All Label.Legible →
      (Stmt.forests ss rest).All Label.Legible
  | _, [], _, _, _, hrest => hrest
  | _, s :: ss, rest, h, hp, hrest =>
    s.all_forest _ h.1 hp.1 (Stmt.all_forests ss rest h.2 hp.2 hrest)

end

/-- Every label of a parsed program is in order. -/
theorem Program.all_forest_of_ofSource {source : Bytes} {p : Program}
    (h : Program.ofSource source = .ok p) : (Stmt.forests p .nil).All Label.Legible :=
  Stmt.all_forests p .nil (allLegible_of_ofSource h) (allPlaced_of_ofSource h) trivial

/-! ## The text of an outline -/

namespace OutlineLine

theorem mem_indentation {depth : Nat} {b : UInt8} (hb : b ∈ Bytes.times depth (utf8 "  ")) :
    b = 32 := by
  have hspace : ∀ b ∈ utf8 "  ", b = 32 := by decide +kernel
  exact hspace b (Bytes.mem_times hb)

/-- A written line tells its depth and its label. -/
theorem render_injective {l l' : Nat × Label} (hl : l.2.Legible) (hl' : l'.2.Legible)
    (h : (Label.line l).render = (Label.line l').render) : l = l' := by
  have hhead (l : Label) : ∀ b ∈ l.render.head?, b ≠ 32 := by
    obtain ⟨b, t, hrender, hb⟩ := l.head_render
    rw [hrender]
    rintro c ⟨⟩
    exact hb
  -- The indentation is a run of spaces, and no label goes on with one.
  obtain ⟨depth, label⟩ := l
  obtain ⟨depth', label'⟩ := l'
  obtain ⟨hdepth, hlabel⟩ := run_injective (fun b => mem_indentation) (fun b => mem_indentation)
    (hhead label) (hhead label') h
  have hcount := congrArg (List.count 32) hdepth
  rw [Bytes.count_times, Bytes.count_times] at hcount
  have htwo : 0 < (utf8 "  ").count 32 := by decide
  exact Prod.ext (Nat.eq_of_mul_eq_mul_right htwo hcount) (Label.render_injective hl hl' hlabel)

theorem lineFeed_not_mem_render {l : Nat × Label} (hl : l.2.Legible) :
    10 ∉ (Label.line l).render :=
  List.not_mem_append (fun h => absurd (mem_indentation h) (by decide))
    (Label.lineFeed_not_mem_render hl)

theorem render_ne_nil (l : Nat × Label) : (Label.line l).render ≠ [] := by
  obtain ⟨b, t, hrender, -⟩ := l.2.head_render
  intro h
  have hnil := (List.append_eq_nil_iff.1 h).2
  rw [show (Label.line l).2 = b :: t from hrender] at hnil
  cases hnil

end OutlineLine

/-- The text of a program's outline, from its forest. -/
theorem Program.outline_eq (p : Program) :
    Program.outline p = (utf8 "\n").intercalate
      (utf8 "Program" :: ((Stmt.forests p .nil).lines 1).map fun l => (Label.line l).render) := by
  have hlines : (Stmt.forests p .nil).outline 1 = Stmt.outlines 1 p := by
    rw [Stmt.outline_forests, Forest.outline_nil, List.append_nil]
  rw [outline, ← hlines, List.map_cons, Forest.outline, List.map_map]
  rfl

/-- Two parsed programs have the same outline exactly if they are the same up to their places: an
outline tells the names, the types, the operators, the literals, which parts are left out, and how
everything is nested. -/
theorem Program.outline_is_faithful {source source' : Bytes} {p q : Program}
    (hp : Program.ofSource source = .ok p) (hq : Program.ofSource source' = .ok q) :
    Program.outline p = Program.outline q ↔ Stmt.allBare p = Stmt.allBare q := by
  constructor
  · intro h
    have hlegible := all_forest_of_ofSource hp
    have hlegible' := all_forest_of_ofSource hq
    rw [outline_eq, outline_eq] at h
    have hitems {f : Forest Label} (hf : f.All Label.Legible) :
        ∀ line ∈ utf8 "Program" :: (f.lines 1).map fun l => (Label.line l).render,
          line ≠ [] ∧ 10 ∉ line := by
      intro line hline
      rcases List.mem_cons.1 hline with rfl | hline
      · decide
      · obtain ⟨l, hl, rfl⟩ := List.mem_map.1 hline
        exact ⟨OutlineLine.render_ne_nil l,
          OutlineLine.lineFeed_not_mem_render (hf.of_mem_lines hl)⟩
    -- The text tells its lines, these their labels and depths, and those the forest.
    have htexts := intercalate_injective [] (hitems hlegible) (hitems hlegible') h
    have hlines := map_injective OutlineLine.render_injective
      (fun l hl => hlegible.of_mem_lines hl) (fun l hl => hlegible'.of_mem_lines hl)
      (List.cons.inj htexts).2
    exact forest_injective (Forest.lines_injective hlines)
  · intro h
    have hforest : Stmt.forests p .nil = Stmt.forests q .nil := by
      rw [← Stmt.forests_allBare, h, Stmt.forests_allBare]
    rw [outline_eq, hforest, outline_eq]

/-- The `if` behind an `else` stands in a block of its own, with braces or without. -/
theorem Program.else_if_is_an_if_within_else :
    ∃ p q, Program.ofSource (utf8 "if a \x7b f(1); \x7d else if b \x7b \x7d") = .ok p ∧
      Program.ofSource (utf8 "if a\x7b f(1) ;\x7delse\x7bif b \x7b \x7d\x7d") = .ok q ∧
      Program.outline p = (utf8 "\n").intercalate (["Program", "  If", "    Ident a", "    Then",
        "      Call f", "        Int 1", "    Else", "      If", "        Ident b",
        "        Then"].map utf8) ∧
      Stmt.allNodes p ≠ Stmt.allNodes q ∧ Stmt.allBare p = Stmt.allBare q := by
  have hboth : (do
      let p ← (ofSource (utf8 "if a \x7b f(1); \x7d else if b \x7b \x7d")).toOption
      let q ← (ofSource (utf8 "if a\x7b f(1) ;\x7delse\x7bif b \x7b \x7d\x7d")).toOption
      return decide (outline p = (utf8 "\n").intercalate (["Program", "  If", "    Ident a",
        "    Then", "      Call f", "        Int 1", "    Else", "      If", "        Ident b",
        "        Then"].map utf8) ∧
        Stmt.allNodes p ≠ Stmt.allNodes q ∧ outline p = outline q)) = some true := by
    decide +kernel
  cases hp : ofSource (utf8 "if a \x7b f(1); \x7d else if b \x7b \x7d") with
  | error d => rw [hp] at hboth; cases hboth
  | ok p =>
    cases hq : ofSource (utf8 "if a\x7b f(1) ;\x7delse\x7bif b \x7b \x7d\x7d") with
    | error d => rw [hp, hq] at hboth; cases hboth
    | ok q =>
      rw [hp, hq] at hboth
      obtain ⟨htext, hplaces, hsame⟩ := of_decide_eq_true (Option.some.inj hboth)
      exact ⟨p, q, rfl, rfl, htext, hplaces, (outline_is_faithful hp hq).1 hsame⟩

end Scriptlet
