import FlowTrace.Yaml.Scalar
import FlowTrace.Yaml.Token.Lexer

/-! # The nodes of YAML

A document is a **tree** of **nodes**: scalars, lists, tables, and names that stand for other nodes.
`Tree.read` builds it from the tokens of the text. A name may stand for a node around it, so the
nodes with names are kept beside the tree, by their number. -/

namespace FlowTrace.Yaml

/-- A **node**. -/
inductive Node where
  /-- A scalar. -/
  | scalar (value : Scalar)
  /-- A list. -/
  | list (items : List Node)
  /-- A table, in the order in which it is written. -/
  | table (entries : List (Node × Node))
  /-- A name that stands for a node, given by the number of the node. -/
  | alias (name : Text) (number : Nat)
  deriving Repr

/-- The **tree** of a document: its root, and the nodes with names, by their numbers. -/
structure Tree where
  /-- The root. -/
  root : Node
  /-- The nodes with names. -/
  named : List (Nat × Node)
  deriving Repr

namespace Node

/-- The node that is not there. -/
def missing : Node := .scalar ⟨[], true, none⟩

/-- What is known while nodes are read: the tokens left, the handles of tags, and the names. -/
structure Reader where
  /-- The tokens left. -/
  rest : List Token
  /-- What the handles of tags stand for. -/
  handles : List (Text × Text)
  /-- The names, with the numbers of their nodes, the latest first. -/
  names : List (Text × Nat) := []
  /-- The nodes with names that were read to their end. -/
  named : List (Nat × Node) := []
  deriving Repr

namespace Reader

/-- Whether the next token is one of several. -/
def sees (r : Reader) (tokens : List Token) : Bool := r.rest.head?.any tokens.contains

/-- The tag that a handle and a suffix stand for, in short; `none` when the handle is not known. The
exclamation mark alone is no tag. -/
def tag? (r : Reader) (handle suffix : Text) : Option (Option Text) := do
  let start ← if handle.isEmpty then some [] else r.handles.lookup handle
  let tag := start ++ suffix
  return if tag == "!" then none else some (Scalar.shortTag tag)

/-- Gives a number to a name. -/
def name (r : Reader) (name : Text) : Reader :=
  { r with names := (name, r.names.length) :: r.names }

/-- The **properties** in front of a node: the number that goes with its name, and its tag. -/
structure Properties where
  /-- The number. -/
  number : Option Nat := none
  /-- The tag as it is written. -/
  tag : Option (Text × Text) := none
  deriving Repr

/-- Whether there are no properties. -/
def Properties.isEmpty (p : Properties) : Bool := p.number.isNone && p.tag.isNone

/-- Reads the properties in front of a node, each at most once. -/
def properties : Nat → Reader → Properties → Reader × Properties
  | 0, r, p => (r, p)
  | bound + 1, r, p =>
    match r.rest with
    | .anchor name :: rest =>
      if p.number.isSome then (r, p)
      else properties bound ({ r with rest := rest }.name name) { p with number := some r.names.length }
    | .tag handle suffix :: rest =>
      if p.tag.isSome then (r, p)
      else properties bound { r with rest := rest } { p with tag := some (handle, suffix) }
    | _ => (r, p)

/-- The tokens behind the comma in front of an item; the first item has none. -/
def afterComma? (first : Bool) (tokens : List Token) : Option (List Token) :=
  if first then some tokens
  else
    match tokens with
    | .comma :: rest => some rest
    | _ => none

mutual
/-- Reads a node. By layout, a list may stand below its key without indentation. Properties with
nothing behind them belong to an empty scalar. -/
def node : Nat → Bool → Bool → Reader → Option (Node × Reader)
  | 0, _, _, _ => none
  | bound + 1, byLayout, unindented, r =>
    match r.rest with
    | .alias name :: rest =>
      (r.names.lookup name).map fun number => (.alias name number, { r with rest := rest })
    | _ =>
      let (r, props) := properties 2 r {}
      match props.tag.elim (some none) fun (handle, suffix) => r.tag? handle suffix with
      | none => none
      | some tag =>
        let empty : Option (Node × Reader) :=
          if props.isEmpty then none else some (.scalar ⟨[], true, tag⟩, r)
        let read : Option (Node × Reader) :=
          match r.rest with
          | .scalar text plain :: rest => some (.scalar ⟨text, plain, tag⟩, { r with rest := rest })
          | .bracketOpen :: rest => flowList bound { r with rest := rest } [] true
          | .braceOpen :: rest => flowTable bound { r with rest := rest } [] true
          | .dash :: _ => if unindented then looseList bound r [] else empty
          | .listStart :: rest =>
            if byLayout then blockList bound { r with rest := rest } [] else empty
          | .tableStart :: rest =>
            if byLayout then blockTable bound { r with rest := rest } [] else empty
          | _ => empty
        read.map fun (node, r) =>
          match props.number with
          | some number => (node, { r with named := (number, node) :: r.named })
          | none => (node, r)

/-- Reads a node unless one of several tokens shows that it is missing. -/
def optional : Nat → Bool → Bool → List Token → Reader → Option (Node × Reader)
  | 0, _, _, _, _ => none
  | bound + 1, byLayout, unindented, ends, r =>
    if r.sees ends then some (missing, r) else node bound byLayout unindented r

/-- Reads the items of a list by layout, up to the end of the block. -/
def blockList : Nat → Reader → List Node → Option (Node × Reader)
  | 0, _, _ => none
  | bound + 1, r, items =>
    match r.rest with
    | .dash :: rest =>
      match optional bound true false [.dash, .blockEnd] { r with rest := rest } with
      | none => none
      | some (item, r) => blockList bound r (item :: items)
    | .blockEnd :: rest => some (.list items.reverse, { r with rest := rest })
    | _ => none

/-- Reads the items of a list that is not indented below its key. -/
def looseList : Nat → Reader → List Node → Option (Node × Reader)
  | 0, _, _ => none
  | bound + 1, r, items =>
    match r.rest with
    | .dash :: rest =>
      match optional bound true false [.dash, .key, .colon, .blockEnd] { r with rest := rest } with
      | none => none
      | some (item, r) => looseList bound r (item :: items)
    | _ => some (.list items.reverse, r)

/-- Reads the entries of a table by layout, up to the end of the block. -/
def blockTable : Nat → Reader → List (Node × Node) → Option (Node × Reader)
  | 0, _, _ => none
  | bound + 1, r, entries =>
    match r.rest with
    | .key :: rest =>
      match optional bound true true [.key, .colon, .blockEnd] { r with rest := rest } with
      | none => none
      | some (key, r) =>
        match r.rest with
        | .colon :: rest =>
          match optional bound true true [.key, .colon, .blockEnd] { r with rest := rest } with
          | none => none
          | some (value, r) => blockTable bound r ((key, value) :: entries)
        | _ => blockTable bound r ((key, missing) :: entries)
    | .blockEnd :: rest => some (.table entries.reverse, { r with rest := rest })
    | _ => none

/-- Reads the items of a list in brackets. An item with a colon is a table of one entry. When such
an item has no key, the token that shows it is passed over. -/
def flowList : Nat → Reader → List Node → Bool → Option (Node × Reader)
  | 0, _, _, _ => none
  | bound + 1, r, items, first =>
    match r.rest with
    | .bracketClose :: rest => some (.list items.reverse, { r with rest := rest })
    | tokens =>
      match afterComma? first tokens with
      | none => none
      | some (.bracketClose :: rest) => some (.list items.reverse, { r with rest := rest })
      | some (.key :: rest) =>
        let r := { r with rest := rest }
        let key? : Option (Node × Reader) :=
          if r.sees [.colon, .comma, .bracketClose] then some (missing, { r with rest := rest.drop 1 })
          else node bound false false r
        match key? with
        | none => none
        | some (key, r) =>
          match flowValue bound r .bracketClose with
          | none => none
          | some (value, r) => flowList bound r (.table [(key, value)] :: items) false
      | some rest =>
        match node bound false false { r with rest := rest } with
        | none => none
        | some (item, r) => flowList bound r (item :: items) false

/-- Reads the entries of a table in braces. A key may stand without a value. -/
def flowTable : Nat → Reader → List (Node × Node) → Bool → Option (Node × Reader)
  | 0, _, _, _ => none
  | bound + 1, r, entries, first =>
    match r.rest with
    | .braceClose :: rest => some (.table entries.reverse, { r with rest := rest })
    | tokens =>
      match afterComma? first tokens with
      | none => none
      | some (.braceClose :: rest) => some (.table entries.reverse, { r with rest := rest })
      | some (.key :: rest) =>
        match optional bound false false [.colon, .comma, .braceClose] { r with rest := rest } with
        | none => none
        | some (key, r) =>
          match flowValue bound r .braceClose with
          | none => none
          | some (value, r) => flowTable bound r ((key, value) :: entries) false
      | some rest =>
        match node bound false false { r with rest := rest } with
        | none => none
        | some (key, r) => flowTable bound r ((key, missing) :: entries) false

/-- Reads the value behind a key between brackets or braces; it may be missing. -/
def flowValue : Nat → Reader → Token → Option (Node × Reader)
  | 0, _, _ => none
  | bound + 1, r, close =>
    match r.rest with
    | .colon :: rest => optional bound false false [.comma, close] { r with rest := rest }
    | _ => some (missing, r)
end

end Reader

end Node

namespace Tree

/-- The handles of tags that need no explanation. -/
def knownHandles : List (Text × Text) := [("!", "!"), ("!!", "tag:yaml.org,2002:")]

/-- Reads directives: at most one version, which has to be 1.1, and handles, each at most once. Given
are the handles, and the tokens behind. -/
def directives : List Token → Bool → List (Text × Text) → Option (List (Text × Text) × List Token)
  | .version major minor :: rest, versioned, handles =>
    if versioned || major != 1 || minor != 1 then none else directives rest true handles
  | .handle name start :: rest, versioned, handles =>
    if handles.any (·.1 == name) then none else directives rest versioned (handles ++ [(name, start)])
  | rest, _, handles => some (handles, rest)

/-- Whether a token stands between documents. -/
def divides : Token → Bool
  | .version .. => true
  | .handle .. => true
  | .documentStart => true
  | .documentEnd => true
  | _ => false

/-- Whether the tokens behind a document may be left unread. A reader looks two tokens ahead, and
further as long as it does not know whether a token is a key: what is broken there breaks the
document. `total` is the number of all tokens. -/
def mayLeave (total : Nat) (rest : List Token) : Bool :=
  match rest.getLast? with
  | some (.broken waiting) => 3 < rest.length && total - rest.length < waiting
  | _ => true

/-- The root of the first document, given its first tokens and the handles it explains. Behind a mark
the root may be missing. -/
def rootNode? (marked : Bool) (handles : List (Text × Text)) (tokens : List Token) :
    Option (Node × Node.Reader) :=
  let r : Node.Reader := { rest := tokens, handles := handles ++ knownHandles }
  if marked && tokens.head?.all divides then some (.missing, r)
  else r.node (4 * tokens.length + 4) true false

/-- The tree of the first document, given by the tokens of a text: `none` when they are malformed, and
no tree when there are none. -/
def ofTokens? (tokens : List Token) : Option (Option Tree) := do
  if tokens.isEmpty then return none
  else
    let (handles, body) ← directives tokens false []
    let (root, r) ← match body with
      | .documentStart :: rest => rootNode? true handles rest
      | _ => if body.length == tokens.length then rootNode? false handles body else none
    if mayLeave tokens.length r.rest then return some ⟨root, r.named⟩ else none

/-- **Reads** the first document of a text: `none` when it is not YAML, and no tree when there is no
document. -/
def read (t : Text) : Option (Option Tree) := do ofTokens? (Token.scan (← characters? t))

end Tree

end FlowTrace.Yaml
