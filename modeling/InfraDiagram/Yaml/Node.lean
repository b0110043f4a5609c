import InfraDiagram.Yaml.Scan

/-!
# YAML documents as trees

The tokens of a text make one tree of sequences, mappings and scalars. Where a node is left out,
an empty plain scalar stands in for it. An alias gives the number of its anchor, so that a node may
contain an alias of itself; `Document.node?` looks the number up.

The number of an anchor is how many different names the anchors before it have. An anchor that takes
up an old name may so share its number with a later one; then the later one is meant by both.
-/

namespace InfraDiagram.Yaml

/-! ## 1. Trees -/

/-- A node of a document. -/
inductive Node where
  | scalar (plain : Bool) (text : String)
  | seq (items : List Node)
  | map (entries : List (Node × Node))
  | alias (number : Nat)
  deriving Repr

/-- What stands in for a node that is left out. -/
def Node.empty : Node := .scalar true ""

mutual

/-- The number of marks a node is made of: one for a scalar or an alias, two for the start and the
    end of a collection, and those inside it. -/
def Node.size : Node → Nat
  | .scalar _ _ => 1
  | .alias _ => 1
  | .seq items => 2 + Node.itemsSize items
  | .map entries => 2 + Node.entriesSize entries

/-- The number of marks of some nodes. -/
def Node.itemsSize : List Node → Nat
  | [] => 0
  | n :: rest => n.size + Node.itemsSize rest

/-- The number of marks of some entries. -/
def Node.entriesSize : List (Node × Node) → Nat
  | [] => 0
  | (k, v) :: rest => k.size + v.size + Node.entriesSize rest

end

/-- A document: its tree, the anchors by their numbers, the last one first, and the nodes of the
    anchors, these by the order in which they start. -/
structure Document where
  root : Node
  anchors : List (Nat × Nat) := []
  anchored : List (Nat × Node) := []

/-- The node itself or, for an alias, the node it stands for. -/
def Document.node? (d : Document) : Node → Option Node
  | .alias number => (d.anchors.lookup number).bind fun k => d.anchored.lookup k
  | n => some n

/-! ## 2. The state of reading -/

/-- What is left of the tokens, the number that each name has now, and the anchors and their nodes
    read so far. -/
structure Reading where
  rest : List Token
  names : List (String × Nat) := []
  anchors : List (Nat × Nat) := []
  anchored : List (Nat × Node) := []

namespace Reading

/-- The token that comes next. -/
def peek? (r : Reading) : Option Token := r.rest.head?

/-- Past one token. -/
def next (r : Reading) : Reading := { r with rest := r.rest.drop 1 }

/-- Whether the next token is among some, or there is none. -/
def stops (r : Reading) (ts : List Token) : Bool :=
  match r.peek? with
  | some t => ts.contains t
  | none => true

/-- Notes the anchor of a node that starts here. -/
def define (r : Reading) (name : String) : Reading :=
  let number := r.names.length
  { r with
    names := (name, number) :: r.names.filter fun e => e.1 != name
    anchors := (number, r.anchors.length) :: r.anchors }

end Reading

/-! ## 3. Nodes -/

mutual

/-- A node. `block` allows block collections, `indentless` a block sequence that is not indented
    further than the key before it. -/
def node : Nat → (block indentless : Bool) → Reading → Option (Node × Reading)
  | 0, _, _, _ => none
  | fuel + 1, block, indentless, r =>
    match r.peek? with
    | some (.alias name) => do
      let number ← r.names.lookup name
      some (.alias number, r.next)
    | some (.anchor name) => do
      let k := r.anchors.length
      let r := r.next.define name
      let (n, r) ← content fuel block indentless true r
      some (n, { r with anchored := (k, n) :: r.anchored })
    | _ => content fuel block indentless false r

/-- A node after its anchor, if it has one. -/
def content : Nat → (block indentless anchored : Bool) → Reading → Option (Node × Reading)
  | 0, _, _, _, _ => none
  | fuel + 1, block, indentless, anchored, r =>
    match r.peek? with
    | some .blockEntry =>
      if indentless then entries fuel [] r
      else if anchored then some (.empty, r) else none
    | some (.scalar plain text) => some (.scalar plain text, r.next)
    | some .flowSeqStart => flowItems fuel true [] r.next
    | some .flowMapStart => flowPairs fuel true [] r.next
    | some .blockSeqStart =>
      if block then items fuel [] r.next else if anchored then some (.empty, r) else none
    | some .blockMapStart =>
      if block then pairs fuel [] r.next else if anchored then some (.empty, r) else none
    | _ => if anchored then some (.empty, r) else none

/-- The items of a block sequence, up to its end. -/
def items : Nat → List Node → Reading → Option (Node × Reading)
  | 0, _, _ => none
  | fuel + 1, done, r =>
    match r.peek? with
    | some .blockEntry =>
      let r := r.next
      if r.stops [.blockEntry, .blockEnd] then items fuel (.empty :: done) r
      else do
        let (n, r) ← node fuel true false r
        items fuel (n :: done) r
    | some .blockEnd => some (.seq done.reverse, r.next)
    | _ => none

/-- The items of a block sequence without an indentation of its own. -/
def entries : Nat → List Node → Reading → Option (Node × Reading)
  | 0, _, _ => none
  | fuel + 1, done, r =>
    match r.peek? with
    | some .blockEntry =>
      let r := r.next
      if r.stops [.blockEntry, .key, .value, .blockEnd] then entries fuel (.empty :: done) r
      else do
        let (n, r) ← node fuel true false r
        entries fuel (n :: done) r
    | _ => some (.seq done.reverse, r)

/-- The entries of a block mapping, up to its end. -/
def pairs : Nat → List (Node × Node) → Reading → Option (Node × Reading)
  | 0, _, _ => none
  | fuel + 1, done, r =>
    match r.peek? with
    | some .key => do
      let r := r.next
      let (k, r) ←
        if r.stops [.key, .value, .blockEnd] then some (.empty, r) else node fuel true true r
      let (v, r) ← blockValue fuel r
      pairs fuel ((k, v) :: done) r
    | some .blockEnd => some (.map done.reverse, r.next)
    | _ => none

/-- The value of a block mapping's entry. -/
def blockValue : Nat → Reading → Option (Node × Reading)
  | 0, _ => none
  | fuel + 1, r =>
    match r.peek? with
    | some .value =>
      let r := r.next
      if r.stops [.key, .value, .blockEnd] then some (.empty, r) else node fuel true true r
    | _ => some (.empty, r)

/-- The items of a flow sequence, up to its bracket. -/
def flowItems : Nat → (first : Bool) → List Node → Reading → Option (Node × Reading)
  | 0, _, _, _ => none
  | fuel + 1, first, done, r =>
    if r.peek? == some .flowSeqEnd then some (.seq done.reverse, r.next)
    else do
      let r ← if first then some r else if r.peek? == some .flowEntry then some r.next else none
      match r.peek? with
      | some .flowSeqEnd => some (.seq done.reverse, r.next)
      | some .key => do
        let r := r.next
        let (k, r) ←
          if r.stops [.value, .flowEntry, .flowSeqEnd] then some (.empty, r.next)
          else node fuel false false r
        let (v, r) ← flowValue fuel .flowSeqEnd r
        flowItems fuel false (.map [(k, v)] :: done) r
      | _ => do
        let (n, r) ← node fuel false false r
        flowItems fuel false (n :: done) r

/-- The entries of a flow mapping, up to its brace. -/
def flowPairs : Nat → (first : Bool) → List (Node × Node) → Reading → Option (Node × Reading)
  | 0, _, _, _ => none
  | fuel + 1, first, done, r =>
    if r.peek? == some .flowMapEnd then some (.map done.reverse, r.next)
    else do
      let r ← if first then some r else if r.peek? == some .flowEntry then some r.next else none
      match r.peek? with
      | some .flowMapEnd => some (.map done.reverse, r.next)
      | some .key => do
        let r := r.next
        let (k, r) ←
          if r.stops [.value, .flowEntry, .flowMapEnd] then some (.empty, r)
          else node fuel false false r
        let (v, r) ← flowValue fuel .flowMapEnd r
        flowPairs fuel false ((k, v) :: done) r
      | _ => do
        let (k, r) ← node fuel false false r
        flowPairs fuel false ((k, .empty) :: done) r

/-- The value of an entry in a flow collection with a given end. -/
def flowValue : Nat → (close : Token) → Reading → Option (Node × Reading)
  | 0, _, _ => none
  | fuel + 1, close, r =>
    match r.peek? with
    | some .value =>
      let r := r.next
      if r.stops [.flowEntry, close] then some (.empty, r) else node fuel false false r
    | _ => some (.empty, r)

end

/-! ## 4. Documents -/

/-- The tree of a document whose start, if it has a mark, has been read. -/
def rootNode (r : Reading) : Option (Node × Reading) :=
  node (4 * r.rest.length + 8) true false r

/-- The document of a list of tokens: exactly one, and nothing after its end. -/
def Document.ofTokens? (tokens : List Token) : Option Document := do
  let r : Reading := { rest := tokens }
  let (n, r) ←
    match r.peek? with
    | none => some (.empty, r)
    | some .documentStart =>
      let r := r.next
      if r.stops [.documentStart, .documentEnd] then some (.empty, r) else rootNode r
    | some _ => rootNode r
  match r.rest.dropWhile fun t => t == .documentEnd with
  | [] => some ⟨n, r.anchors, r.anchored⟩
  | _ :: _ => none

/-- The document of a text. -/
def Document.read? (text : String) : Option Document := (tokens? text).bind Document.ofTokens?

end InfraDiagram.Yaml
