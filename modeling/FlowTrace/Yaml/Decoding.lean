import FlowTrace.Yaml.Node

/-! # Decoding documents

Values are read out of the nodes of a document by **decoding**: a computation that may fail, and that
counts the nodes it visits (`Effort`). Since a name may stand for a large node, and may be used many
times, a short document can ask for a lot of work; decoding fails when nearly all of it comes from
names. -/

namespace FlowTrace.Yaml

/-- The **effort** of decoding so far. -/
structure Effort where
  /-- The number of nodes visited. -/
  total : Nat := 0
  /-- How many of them inside nodes that a name stands for. -/
  aliased : Nat := 0
  deriving DecidableEq, Repr

namespace Effort

/-- The number of visits up to which 99 of 100 may be inside named nodes. -/
def smallTotal : Nat := 400000

/-- The number of visits from which on only 10 of 100 may. -/
def largeTotal : Nat := 4000000

/-- Whether too much of the effort goes into named nodes. Between the two limits the part that is
allowed shrinks evenly. -/
def isExcessive (e : Effort) : Bool :=
  let width := largeTotal - smallTotal
  let beyond := min (e.total - smallTotal) width
  100 < e.aliased && 1000 < e.total &&
    e.total * (99 * width - 89 * beyond) < e.aliased * (100 * width)

/-- The effort with one more visit. -/
def visit (e : Effort) (aliased : Bool) : Effort :=
  ⟨e.total + 1, if aliased then e.aliased + 1 else e.aliased⟩

end Effort

/-- A computation that **decodes** nodes. -/
abbrev Decoding (α : Type) : Type := StateT Effort Option α

/-- What decoding needs to know about the place of a node. -/
structure Place where
  /-- The nodes with names. -/
  named : List (Nat × Node)
  /-- Whether the place is inside a node that a name stands for. -/
  aliased : Bool := false

namespace Place

/-- Visits a node. -/
def visit (place : Place) : Decoding Unit := fun effort =>
  let effort := effort.visit place.aliased
  if effort.isExcessive then none else some ((), effort)

/-- Visits a node and, when it is a name, the node it stands for. Given is the latter, and its
place. -/
def follow (place : Place) : Node → Decoding (Place × Node)
  | .alias _ number => do
    place.visit
    let inside : Place := { place with aliased := true }
    inside.visit
    match place.named.lookup number with
    | some node => return (inside, node)
    | none => failure
  | node => do
    place.visit
    return (place, node)

/-- Decodes a scalar: its text, and what it stands for. -/
def scalar (place : Place) (node : Node) : Decoding (Text × Meaning) := do
  match ← place.follow node with
  | (_, .scalar s) =>
    match s.value? with
    | some value => return value
    | none => failure
  | _ => failure

/-- Decodes a table, given with its place; there is none when the node stands for nothing. -/
def table? (place : Place) (node : Node) : Decoding (Option (Place × List (Node × Node))) := do
  match ← place.follow node with
  | (inside, .table entries) => return some (inside, entries)
  | (_, .scalar s) =>
    match s.value? with
    | some (_, .null) => return none
    | _ => failure
  | _ => failure

/-- Decodes the name of an entry; there is none when the key stands for nothing. -/
def name? (place : Place) (key : Node) : Decoding (Option Text) := do
  let (text, meaning) ← place.scalar key
  return if meaning == .null then none else some text

end Place

namespace Node

/-- Whether a key asks for the entries of other tables. -/
def isMerge : Node → Bool
  | .scalar s => s.isMerge
  | _ => false

/-- Whether two keys are the same as they are written. Keys that are lists are never told apart, nor
are tables. -/
def sameKey : Node → Node → Bool
  | .scalar a, .scalar b => a.text == b.text
  | .alias a _, .alias b _ => a == b
  | .list _, .list _ => true
  | .table _, .table _ => true
  | _, _ => false

/-- Whether a table has a key twice. -/
def repeatsKey : List (Node × Node) → Bool
  | [] => false
  | (key, _) :: rest => rest.any (fun other => sameKey key other.1) || repeatsKey rest

end Node

end FlowTrace.Yaml
