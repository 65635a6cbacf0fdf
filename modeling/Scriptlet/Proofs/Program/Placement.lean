import Scriptlet.Program.Parser
import Scriptlet.Proofs.Ends
import Scriptlet.Proofs.Value.Typed

/-!
# Placement: statements where they may stand

`break` belongs under a loop of its own function and `return` inside a function, with a value
exactly if the function declares a result. The types a program writes are types that values can
have. Parsing gives programs of which all this holds, at every nesting of functions, loops and
branches.
-/

namespace Scriptlet

/-- Where a statement stands. -/
structure Place where
  /-- Whether a loop of the same function is around it. -/
  inLoop : Bool
  /-- The result that the innermost function around it declares, if there is a function. -/
  function : Option (Option Ty)

namespace Place

/-- Outside of every loop and function. -/
def top : Place := ⟨false, none⟩

/-- In the body of a function, outside of its loops. -/
def body (result : Option Ty) : Place := ⟨false, some result⟩

end Place

mutual

/-- The statement and those in it stand where they may, and the types in it are types of values. -/
def Stmt.Placed (c : Place) : Stmt → Prop
  | .letVar _ _ type _ _ => ∀ t ∈ type, t.Known
  | .when _ body _ _ => Stmt.AllPlaced c body
  | .ifElse _ body _ other _ _ => Stmt.AllPlaced c body ∧ Stmt.AllPlaced c other
  | .loop body _ _ => Stmt.AllPlaced { c with inLoop := true } body
  | .stop _ => c.inLoop = true
  | .ret value _ => ∃ result, c.function = some result ∧ value.isSome = result.isSome
  | .fn _ params result body _ _ =>
    (∀ p ∈ params, p.type.Known) ∧ (∀ t ∈ result, t.Known) ∧ Stmt.AllPlaced (.body result) body
  | .assign .. | .assignAt .. | .call .. | .exit .. => True

/-- Several statements stand where they may. -/
def Stmt.AllPlaced (c : Place) : List Stmt → Prop
  | [] => True
  | s :: rest => s.Placed c ∧ Stmt.AllPlaced c rest

end

/-- The place at which a parser stands. -/
def Surroundings.place (s : Surroundings) : Place := ⟨s.inLoop, s.function.map Prod.snd⟩

namespace Parser

variable {α β : Type} {post : α → Prop} {post' : β → Prop}

/-- Whatever the parser gives satisfies `post`. -/
def Gives (post : α → Prop) (x : Parser α) : Prop :=
  ∀ rest, Ends (x rest) (fun a _ => post a) (fun _ _ => True)

namespace Gives

theorem pure {a : α} (h : post a) : Gives post (pure a : Parser α) := fun _ => h

theorem throw (stop : ParseStop) : Gives post (throw stop : Parser α) := fun _ => trivial

theorem fail (fault : Fault) (span : Span) : Gives post (fail fault span : Parser α) := throw _

theorem bind {x : Parser α} {f : α → Parser β} (hx : Gives post x)
    (hf : ∀ a, post a → Gives post' (f a)) : Gives post' (x >>= f) := by
  intro rest
  rw [Ends.bind_iff]
  exact (hx rest).mono (fun a t ha => hf a ha t) (fun _ _ _ => trivial)

/-- Nothing need be known of the first part. -/
theorem after {x : Parser α} {f : α → Parser β} (hf : ∀ a, Gives post' (f a)) :
    Gives post' (x >>= f) := by
  intro rest
  rw [Ends.bind_iff]
  cases x rest with
  | ok a t => exact hf a t
  | error e t => trivial

theorem unexpected (s : Surroundings) (want : Bytes) :
    Gives post (unexpected s want : Parser α) := after fun _ => fail _ _

end Gives

theorem gives_typeRef (s : Surroundings) (fuel : Nat) : Gives Ty.Known (typeRef s fuel) := by
  induction fuel with
  | zero => exact Gives.throw _
  | succ fuel ih =>
    rw [typeRef]
    refine Gives.after fun word => ?_
    split
    · rename_i t ht
      refine Gives.pure ?_
      simp only [Ty.ofName?] at ht
      split at ht
      · cases ht; exact Scalar.noConfusion
      · split at ht
        · cases ht; exact Scalar.noConfusion
        · split at ht
          · cases ht; exact Scalar.noConfusion
          · cases ht
    · split
      · exact Gives.fail _ _
      · refine Gives.after fun _ => Gives.bind ih fun elem helem => ?_
        refine Gives.after fun next => ?_
        split
        · exact Gives.after fun _ => Gives.pure helem
        · exact Gives.after fun _ => Gives.pure helem

theorem gives_optionalType (s : Surroundings) (fuel : Nat) (mark : Kind) :
    Gives (fun o => ∀ t ∈ o, Ty.Known t) (optionalType s fuel mark) := by
  refine Gives.after fun here => ?_
  split
  · refine Gives.after fun _ => Gives.bind (gives_typeRef s fuel) fun t ht => Gives.pure ?_
    intro t' ht'
    rw [← Option.some.inj ht']
    exact ht
  · exact Gives.pure fun t ht => by cases ht

theorem gives_params (s : Surroundings) (seen : List Bytes) (fuel : Nat) :
    Gives (fun ps => ∀ p ∈ ps, Ty.Known p.type) (params s seen fuel) := by
  induction fuel generalizing seen with
  | zero => exact Gives.throw _
  | succ fuel ih =>
    rw [params]
    refine Gives.after fun here => ?_
    split
    · exact Gives.pure fun p hp => by cases hp
    · refine Gives.after fun name => ?_
      split
      · exact Gives.fail _ _
      · refine Gives.after fun _ => Gives.bind (gives_typeRef s fuel) fun t ht => ?_
        refine Gives.after fun comma => ?_
        split
        · refine Gives.after fun _ => Gives.bind (ih _) fun rest hrest => Gives.pure ?_
          intro p hp
          rcases List.mem_cons.1 hp with rfl | hp
          · exact ht
          · exact hrest p hp
        · refine Gives.pure fun p hp => ?_
          rw [List.mem_singleton.1 hp]
          exact ht

/-! ## Simple statements -/

theorem gives_letStatement (s : Surroundings) (c : Place) (fuel : Nat) :
    Gives (Stmt.Placed c) (letStatement s fuel) := by
  refine Gives.after fun _ => Gives.after fun _ => ?_
  refine Gives.bind (gives_optionalType s fuel .colon) fun type htype => ?_
  exact Gives.after fun _ => Gives.after fun _ => Gives.after fun _ => Gives.pure htype

theorem gives_nameStatement (s : Surroundings) (c : Place) (fuel : Nat) :
    Gives (Stmt.Placed c) (nameStatement s fuel) := by
  refine Gives.after fun name => Gives.after fun second => ?_
  split
  · exact Gives.after fun _ => Gives.after fun _ => Gives.after fun _ => Gives.after fun _ =>
      Gives.pure trivial
  · exact Gives.after fun _ => Gives.after fun _ => Gives.after fun _ => Gives.after fun _ =>
      Gives.after fun _ => Gives.after fun _ => Gives.after fun _ => Gives.pure trivial
  · exact Gives.after fun _ => Gives.after fun _ => Gives.pure trivial
  · exact Gives.after fun _ => Gives.unexpected _ _

theorem gives_breakStatement (s : Surroundings) :
    Gives (Stmt.Placed s.place) (breakStatement s) := by
  refine Gives.after fun _ => ?_
  split
  · rename_i h
    exact Gives.after fun _ => Gives.pure h
  · exact Gives.fail _ _

theorem gives_returnStatement (s : Surroundings) (fuel : Nat) :
    Gives (Stmt.Placed s.place) (returnStatement s fuel) := by
  refine Gives.after fun _ => ?_
  split
  · exact Gives.fail _ _
  · rename_i name result hs
    have hplace : s.place.function = some result := by
      unfold Surroundings.place
      rw [hs]
      rfl
    refine Gives.after fun value => Gives.after fun span => ?_
    cases result with
    | none =>
      cases value with
      | none => exact Gives.pure ⟨none, hplace, rfl⟩
      | some v => exact Gives.fail _ _
    | some t =>
      cases value with
      | none => exact Gives.fail _ _
      | some v => exact Gives.pure ⟨some t, hplace, rfl⟩

theorem gives_exitStatement (s : Surroundings) (c : Place) (fuel : Nat) :
    Gives (Stmt.Placed c) (exitStatement s fuel) :=
  Gives.after fun _ => Gives.after fun _ => Gives.after fun _ => Gives.pure trivial

/-! ## Statements that hold statements -/

/-- What the statement parsers give with a given amount of fuel. -/
structure PlacesAt (fuel : Nat) : Prop where
  statement : ∀ s : Surroundings, Gives (Stmt.Placed s.place) (statement s fuel)
  ifStatement : ∀ s : Surroundings, Gives (Stmt.Placed s.place) (ifStatement s fuel)
  fnDeclaration : ∀ (s : Surroundings) (c : Place), Gives (Stmt.Placed c) (fnDeclaration s fuel)
  block : ∀ s : Surroundings, Gives (fun b => Stmt.AllPlaced s.place b.1) (block s fuel)
  blockBody : ∀ (s : Surroundings) (opening : Span),
    Gives (Stmt.AllPlaced s.place) (blockBody s fuel opening)

section Step

variable {fuel : Nat} (ih : PlacesAt fuel)
include ih

theorem gives_statement (s : Surroundings) : Gives (Stmt.Placed s.place) (statement s (fuel + 1)) := by
  rw [Parser.statement]
  refine Gives.after fun t => ?_
  split
  · exact gives_letStatement s _ fuel
  · exact gives_nameStatement s _ fuel
  · exact ih.ifStatement s
  · exact Gives.after fun _ => Gives.bind (ih.block { s with inLoop := true }) fun b hb =>
      Gives.pure hb
  · exact gives_breakStatement s
  · exact gives_returnStatement s fuel
  · exact gives_exitStatement s _ fuel
  · exact ih.fnDeclaration s _
  · exact Gives.unexpected _ _

theorem gives_ifStatement (s : Surroundings) :
    Gives (Stmt.Placed s.place) (ifStatement s (fuel + 1)) := by
  rw [Parser.ifStatement]
  refine Gives.after fun _ => Gives.after fun cond => Gives.bind (ih.block s) fun b hb => ?_
  refine Gives.after fun hasElse => ?_
  split
  · refine Gives.after fun _ => Gives.after fun hasIf => ?_
    split
    · refine Gives.bind (ih.ifStatement s) fun nested hnested => Gives.pure ?_
      exact ⟨hb, hnested, trivial⟩
    · refine Gives.bind (ih.block s) fun other hother => Gives.pure ?_
      exact ⟨hb, hother⟩
  · exact Gives.pure hb

theorem gives_fnDeclaration (s : Surroundings) (c : Place) :
    Gives (Stmt.Placed c) (fnDeclaration s (fuel + 1)) := by
  rw [Parser.fnDeclaration]
  refine Gives.after fun _ => Gives.after fun name => Gives.after fun _ => ?_
  refine Gives.bind (gives_params s [] fuel) fun ps hps => Gives.after fun _ => ?_
  refine Gives.bind (gives_optionalType s fuel .arrow) fun result hresult => ?_
  -- The body stands in a function of this result and in no loop, wherever the declaration stands.
  refine Gives.bind (ih.block _) fun b hb => Gives.pure ?_
  exact ⟨hps, hresult, hb⟩

theorem gives_block (s : Surroundings) :
    Gives (fun b => Stmt.AllPlaced s.place b.1) (block s (fuel + 1)) := by
  rw [Parser.block]
  refine Gives.after fun opening => Gives.bind (ih.blockBody s _) fun body hbody => ?_
  exact Gives.after fun _ => Gives.pure hbody

theorem gives_blockBody (s : Surroundings) (opening : Span) :
    Gives (Stmt.AllPlaced s.place) (blockBody s (fuel + 1) opening) := by
  rw [Parser.blockBody]
  refine Gives.after fun t => ?_
  split
  · exact Gives.pure trivial
  · exact Gives.fail _ _
  · exact Gives.after fun _ => ih.blockBody s opening
  · refine Gives.bind (ih.statement s) fun first hfirst => ?_
    refine Gives.bind (ih.blockBody s opening) fun rest hrest => Gives.pure ?_
    exact ⟨hfirst, hrest⟩

end Step

theorem placesAt (fuel : Nat) : PlacesAt fuel := by
  induction fuel with
  | zero =>
    constructor
    · intro s; rw [Parser.statement]; exact Gives.throw _
    · intro s; rw [Parser.ifStatement]; exact Gives.throw _
    · intro s c; rw [Parser.fnDeclaration]; exact Gives.throw _
    · intro s; rw [Parser.block]; exact Gives.throw _
    · intro s opening; rw [Parser.blockBody]; exact Gives.throw _
  | succ fuel ih =>
    exact ⟨gives_statement ih, gives_ifStatement ih, gives_fnDeclaration ih, gives_block ih,
      gives_blockBody ih⟩

theorem gives_statements (s : Surroundings) (fuel : Nat) :
    Gives (Stmt.AllPlaced s.place) (statements s fuel) := by
  induction fuel with
  | zero => exact Gives.throw _
  | succ fuel ih =>
    rw [statements]
    refine Gives.after fun t => ?_
    split
    · exact Gives.pure trivial
    · exact Gives.after fun _ => ih
    · refine Gives.bind ((placesAt fuel).statement s) fun first hfirst => ?_
      refine Gives.bind ih fun rest hrest => Gives.pure ?_
      exact ⟨hfirst, hrest⟩

end Parser

namespace Program

/-- Every statement of a parsed program stands where it may. -/
theorem allPlaced_of_parse {tokens : List Token} {p : Program} (h : parse tokens = .ok p) :
    Stmt.AllPlaced .top p := by
  simp only [parse] at h
  split at h
  · rename_i q rest hq
    cases h
    exact (Parser.gives_statements _ _ _).of_ok hq
  · cases h
  · cases h

theorem allPlaced_of_ofSource {source : Bytes} {p : Program} (h : ofSource source = .ok p) :
    Stmt.AllPlaced .top p := by
  unfold ofSource at h
  cases ht : Token.lex source with
  | error d => rw [ht] at h; cases h
  | ok tokens => rw [ht] at h; exact allPlaced_of_parse h

end Program
end Scriptlet
