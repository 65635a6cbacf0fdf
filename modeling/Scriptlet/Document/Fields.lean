import Scriptlet.Document.Datum
import Scriptlet.Document.Node

/-!
# Fields: what a mapping says about the names it is asked for

Only known names are looked at. An entry with a merge mark stands for the entries of other mappings:
those that a mapping has itself come first, then those of the mappings it merges, in their order. No
key may be written twice, and no alias may lead to itself.
-/

namespace Scriptlet
namespace Document

namespace Node

/-- What tells keys of one mapping apart: the kind of node and its text. -/
def identity : Node → Nat × Bytes
  | .scalar _ _ text => (0, text)
  | .sequence _ => (1, [])
  | .mapping _ => (2, [])
  | .alias _ name _ => (3, name)

/-- Whether an entry with this key merges other mappings. -/
def isMerge : Node → Bool
  | .scalar none isPlain text => isPlain && text == utf8 "<<"
  | .scalar (some tag) _ text => Datum.shortTag tag == utf8 "!!merge" && text == utf8 "<<"
  | _ => false

/-- The mappings that the value of a merging entry names. -/
def sources : Node → List Node
  | .sequence items => items
  | n => [n]

end Node

/-- A node, and the aliases through which it was reached. -/
structure Placed where
  node : Node
  via : List Nat := []
deriving Repr, Inhabited

/-- The node behind aliases, none of which may be taken twice. -/
def followFrom (d : Document) : Nat → Placed → Option Placed
  | 0, _ => none
  | bound + 1, p =>
    match p.node with
    | .alias number _ target =>
      if p.via.contains number then none
      else
        match d.anchored.lookup target with
        | some node => followFrom d bound { node, via := number :: p.via }
        | none => none
    | _ => some p

/-- The node behind aliases. -/
def follow (d : Document) (p : Placed) : Option Placed := d.followFrom (d.aliases + 1) p

/-- What a scalar stands for, and its text; none if it is no scalar or not what its tag says. -/
def datum? (d : Document) (p : Placed) : Option (Datum × Bytes) := do
  match (← d.follow p).node with
  | .scalar tag isPlain text =>
    let what ← Datum.ofScalar tag isPlain text
    return (what, what.textOr text)
  | _ => none

/-- Adds an entry to the fields found so far. Within one mapping no known name may come twice; of
merged entries the first one counts. An entry without a name is of no meaning. -/
def addEntry (d : Document) (known : List Bytes) (merging : Bool) (via : List Nat)
    (found : List (Bytes × Placed)) (entry : Node × Node) : Option (List (Bytes × Placed)) :=
  if entry.1.isMerge then some found
  else
    match d.datum? { node := entry.1, via } with
    | none => none
    | some (.nothing, _) => some found
    | some (_, name) =>
      if !known.contains name then some found
      else if (found.lookup name).isNone then
        some (found ++ [(name, { node := entry.2, via })])
      else if merging then some found
      else none

/-- The fields of a mapping and of those it merges, after the fields in `found`. -/
def fieldsFrom (d : Document) (known : List Bytes) :
    Nat → Bool → List (Bytes × Placed) → Placed → Option (List (Bytes × Placed))
  | 0, _, _, _ => none
  | bound + 1, merging, found, p =>
    match p.node with
    | .mapping entries =>
      if !(entries.map (·.1.identity)).Nodup then none
      else
        match entries.foldlM (d.addEntry known merging p.via) found with
        | none => none
        | some own =>
          let merged := (entries.filter (·.1.isMerge)).flatMap (·.2.sources)
          merged.foldlM (fun found node =>
            match d.follow { node, via := p.via } with
            | some q => fieldsFrom d known bound true found q
            | none => none) own
    | _ => none

/-- The known fields of a mapping; what stands for nothing has none. -/
def fields? (d : Document) (known : List Bytes) (p : Placed) : Option (List (Bytes × Placed)) := do
  let p ← d.follow p
  match p.node with
  | .mapping _ => d.fieldsFrom known ((d.aliases + 1) * (d.size + 1)) false [] p
  | _ =>
    match ← d.datum? p with
    | (.nothing, _) => some []
    | _ => none

end Document
end Scriptlet
