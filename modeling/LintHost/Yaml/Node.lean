/-
A configuration text as tagged nodes.

A node carries the tag that decides how its value is built.  A tag is written out, or follows from
the kind of the node and, for a plain scalar, from its text.  Nodes are numbered in the order in
which they begin, and a collection refers to what it holds by number: an anchor names a node for the
aliases after it, once in a text, so that a node may be held in several places, and in itself.
Every node and every entry takes a token, so the number of tokens bounds the depth of the
recursion.
-/
import LintHost.Yaml.Token
import LintHost.Yaml.PlainTag

namespace LintHost.Yaml

/-- What a node holds: its text, or the numbers of other nodes. -/
inductive Content where
  | scalar (text : List Char)
  | seq (items : List Nat)
  | map (entries : List (Nat × Nat))
deriving DecidableEq, Repr, Inhabited

/-- A tagged node. -/
structure Node where
  tag : Tag
  content : Content
deriving DecidableEq, Repr, Inhabited

/-- Nodes by their numbers. -/
abbrev Nodes := Array Node

/-- The node that is left out. -/
def Node.absent : Node := ⟨.null, .scalar []⟩

/-- The node of a number. -/
def Nodes.at (ns : Nodes) (i : Nat) : Node := ns.getD i Node.absent

/-- What is known while nodes are read: the tokens left, the nodes so far, the anchored ones, the
collections around, whether an alias has named one of those, the tag handles, and how many
collections there is room for inside each other. -/
structure Reading where
  tokens : List Token
  nodes : Nodes
  anchors : List (List Char × Nat)
  around : Array Nat
  isKnotted : Bool
  handles : List (List Char × List Char)
  room : Nat

namespace Reading

/-- The handles that need no directive. -/
def standardHandles : List (List Char × List Char) :=
  [("!".toList, "!".toList), ("!!".toList, Tag.standard)]

/-- The reading of a document from its first token on. -/
def start (room : Nat) (tokens : List Token) (handles : List (List Char × List Char)) : Reading :=
  ⟨tokens, #[], [], #[], false, handles, room⟩

/-- The next token. -/
def peek (r : Reading) : Token := r.tokens.headD .finish

/-- Passes a token. -/
def step (r : Reading) : Reading := { r with tokens := r.tokens.drop 1 }

/-- Whether the next token is one of these. -/
def at? (r : Reading) (ts : List Token) : Bool := ts.contains r.peek

/-- What is wrong where the next token is none that may stand here. -/
def fault (r : Reading) : Error :=
  match r.peek with
  | .fault e => e
  | _ => .malformed

/-- Passes a token that has to be there. -/
def expect (r : Reading) (t : Token) : Except Error Reading :=
  if r.peek = t then .ok r.step else .error r.fault

/-- Adds a node, and names it for the aliases to come. -/
def add (r : Reading) (anchor : Option (List Char)) (n : Node) : Nat × Reading :=
  let i := r.nodes.size
  let named := match anchor with
    | some a => (a, i) :: r.anchors
    | none => r.anchors
  (i, { r with nodes := r.nodes.push n, anchors := named })

/-- Adds the node that is left out. -/
def addAbsent (r : Reading) : Nat × Reading := r.add none Node.absent

/-- Writes a node anew. -/
def write (r : Reading) (i : Nat) (n : Node) : Reading :=
  { r with nodes := r.nodes.setIfInBounds i n }

/-- Goes into a collection, and out of it again. -/
def enter (r : Reading) (i : Nat) : Reading := { r with around := r.around.push i }
def leave (r : Reading) : Reading := { r with around := r.around.pop }

/-- Passes an alias of a node. -/
def passAlias (r : Reading) (i : Nat) : Reading :=
  { r.step with isKnotted := r.isKnotted || r.around.contains i }

/-- The anchor and the tag in front of a node, in either order. -/
def properties (r : Reading) :
    Option (List Char) × Option (Option (List Char) × List Char) × Reading :=
  match r.peek with
  | .anchor a =>
    match r.step.peek with
    | .tag h s => (some a, some (h, s), r.step.step)
    | _ => (some a, none, r.step)
  | .tag h s =>
    match r.step.peek with
    | .anchor a => (some a, some (h, s), r.step.step)
    | _ => (none, some (h, s), r.step)
  | _ => (none, none, r)

/-- The full text of a tag. -/
def expand (r : Reading) (handle : Option (List Char)) (suffix : List Char) :
    Except Error (List Char) :=
  match handle with
  | none => .ok suffix
  | some h =>
    match r.handles.lookup h with
    | some text => .ok (text ++ suffix)
    | none => .error .malformed

end Reading

/-- Where a node stands: whether block collections may begin there, and whether a sequence may
begin without standing further in. -/
inductive Place where
  | flow
  | block
  | indentless
deriving DecidableEq, Repr

/-- The tag of a collection: the one written, unless it is missing or a lone exclamation mark. -/
def collectionTag (written : Option (List Char)) (standard : Tag) : Tag :=
  match written with
  | none => standard
  | some t => if t = "!".toList then standard else Tag.ofText t

/-- The tag of a scalar. -/
def scalarTag (written : Option (List Char)) (plain : Bool) (text : List Char) : Tag :=
  match written with
  | none => if plain then Tag.ofPlain text else .str
  | some t => if t = "!".toList then Tag.ofPlain text else Tag.ofText t

/-- A node of which only the anchor or the tag is there. -/
def readEmpty (anchor written : Option (List Char)) (r : Reading) : Except Error (Nat × Reading) :=
  if anchor.isNone && written.isNone then .error r.fault
  else .ok (r.add anchor ⟨scalarTag written written.isNone [], .scalar []⟩)

mutual

/-- Reads a node and gives its number. -/
def readNode : Nat → Place → Reading → Except Error (Nat × Reading)
  | 0, _, _ => .error .malformed
  | fuel + 1, place, r =>
    if r.around.size > r.room then .error .tooDeep
    else
      match r.peek with
      | .alias a =>
        match r.anchors.lookup a with
        | some i => .ok (i, r.passAlias i)
        | none => .error .malformed
      | _ => do
        let (anchor, written, r) := r.properties
        let written ← match written with
          | none => pure none
          | some (h, s) => some <$> r.expand h s
        let seqOf (read : Reading → Except Error (List Nat × Reading)) (r : Reading) :
            Except Error (Nat × Reading) := do
          let tag := collectionTag written .seq
          let (i, r) := r.add anchor ⟨tag, .seq []⟩
          let (items, r) ← read (r.enter i)
          .ok (i, r.leave.write i ⟨tag, .seq items⟩)
        let mapOf (read : Reading → Except Error (List (Nat × Nat) × Reading)) (r : Reading) :
            Except Error (Nat × Reading) := do
          let tag := collectionTag written .map
          let (i, r) := r.add anchor ⟨tag, .map []⟩
          let (entries, r) ← read (r.enter i)
          .ok (i, r.leave.write i ⟨tag, .map entries⟩)
        match r.peek with
        | .fault e => .error e
        | t =>
          if anchor.any fun a => (r.anchors.lookup a).isSome then .error .malformed
          else
            match t with
            | .entry =>
              if place = .indentless then seqOf (readIndentless fuel) r
              else readEmpty anchor written r
            | .scalar text plain =>
              .ok (r.step.add anchor ⟨scalarTag written plain text, .scalar text⟩)
            | .openSequence => seqOf (readFlowItems fuel true) r.step
            | .openMapping => mapOf (readFlowEntries fuel true) r.step
            | .sequenceStart =>
              if place = .flow then readEmpty anchor written r
              else seqOf (readBlockItems fuel) r.step
            | .mappingStart =>
              if place = .flow then readEmpty anchor written r
              else mapOf (readBlockEntries fuel) r.step
            | _ => readEmpty anchor written r

/-- Reads a node, unless one of the tokens shows that it is left out. -/
def readUnless : Nat → Place → List Token → Reading → Except Error (Nat × Reading)
  | 0, _, _, _ => .error .malformed
  | fuel + 1, place, ends, r => if r.at? ends then .ok r.addAbsent else readNode fuel place r

/-- Reads the value after a key, unless it is left out. -/
def readValue : Nat → Place → List Token → Reading → Except Error (Nat × Reading)
  | 0, _, _, _ => .error .malformed
  | fuel + 1, place, ends, r =>
    if r.peek = .value then readUnless fuel place ends r.step else .ok r.addAbsent

/-- The items of a block sequence up to its end. -/
def readBlockItems : Nat → Reading → Except Error (List Nat × Reading)
  | 0, _ => .error .malformed
  | fuel + 1, r =>
    if r.peek = .entry then do
      let (i, r) ← readUnless fuel .block [.entry, .blockEnd] r.step
      let (more, r) ← readBlockItems fuel r
      .ok (i :: more, r)
    else do
      let r ← r.expect .blockEnd
      .ok ([], r)

/-- The items of a block sequence that stands no further in than its key. -/
def readIndentless : Nat → Reading → Except Error (List Nat × Reading)
  | 0, _ => .error .malformed
  | fuel + 1, r =>
    if r.peek = .entry then do
      let (i, r) ← readUnless fuel .block [.entry, .key, .value, .blockEnd] r.step
      let (more, r) ← readIndentless fuel r
      .ok (i :: more, r)
    else .ok ([], r)

/-- The entries of a block mapping up to its end. -/
def readBlockEntries : Nat → Reading → Except Error (List (Nat × Nat) × Reading)
  | 0, _ => .error .malformed
  | fuel + 1, r =>
    let ends := [.key, .value, .blockEnd]
    if r.peek = .key then do
      let (k, r) ← readUnless fuel .indentless ends r.step
      let (v, r) ← readValue fuel .indentless ends r
      let (more, r) ← readBlockEntries fuel r
      .ok ((k, v) :: more, r)
    else do
      let r ← r.expect .blockEnd
      .ok ([], r)

/-- The items of a sequence in brackets up to the closing one; an entry among them is a mapping
of its own. -/
def readFlowItems : Nat → Bool → Reading → Except Error (List Nat × Reading)
  | 0, _, _ => .error .malformed
  | fuel + 1, first, r =>
    if r.peek = .closeSequence then .ok ([], r.step)
    else do
      let r ← if first then pure r else r.expect .comma
      if r.peek = .key then
        let (i, r) := r.add none ⟨.map, .map []⟩
        let (k, r) ← readUnless fuel .flow [.value, .comma, .closeSequence] (r.enter i).step
        let (v, r) ← readValue fuel .flow [.comma, .closeSequence] r
        let (more, r) ← readFlowItems fuel false (r.leave.write i ⟨.map, .map [(k, v)]⟩)
        .ok (i :: more, r)
      else if r.peek = .closeSequence then .ok ([], r.step)
      else
        let (i, r) ← readNode fuel .flow r
        let (more, r) ← readFlowItems fuel false r
        .ok (i :: more, r)

/-- The entries of a mapping in brackets up to the closing one. -/
def readFlowEntries : Nat → Bool → Reading → Except Error (List (Nat × Nat) × Reading)
  | 0, _, _ => .error .malformed
  | fuel + 1, first, r =>
    if r.peek = .closeMapping then .ok ([], r.step)
    else do
      let r ← if first then pure r else r.expect .comma
      if r.peek = .key then
        let (k, r) ← readUnless fuel .flow [.value, .comma, .closeMapping] r.step
        let (v, r) ← readValue fuel .flow [.comma, .closeMapping] r
        let (more, r) ← readFlowEntries fuel false r
        .ok ((k, v) :: more, r)
      else if r.peek = .closeMapping then .ok ([], r.step)
      else
        let (k, r) ← readNode fuel .flow r
        let (v, r) := r.addAbsent
        let (more, r) ← readFlowEntries fuel false r
        .ok ((k, v) :: more, r)

end

/-- The fault that a list of tokens begins with, if it begins with one. -/
def faultAt (ts : List Token) : Error :=
  match ts with
  | .fault e :: _ => e
  | _ => .malformed

/-- Reads the directives in front of a document. -/
def readDirectives : List Token → Bool → List (List Char × List Char) →
    Except Error (List (List Char × List Char) × List Token)
  | .version major :: rest, versioned, handles =>
    if versioned || major ≠ ['1'] then .error .malformed else readDirectives rest true handles
  | .tagPrefix handle text :: rest, versioned, handles =>
    if (handles.lookup handle).isSome then .error .malformed
    else readDirectives rest versioned ((handle, text) :: handles)
  | .directive :: rest, versioned, handles => readDirectives rest versioned handles
  | rest, _, handles => .ok (handles ++ Reading.standardHandles, rest)

/-- Whether a token can only stand between documents. -/
def Token.isBetween : Token → Bool
  | .version _ | .tagPrefix _ _ | .directive | .documentStart | .documentEnd | .finish => true
  | _ => false

/-- A document: its nodes, the number of the outermost one, and whether one of them is named inside
itself. -/
structure Document where
  nodes : Nodes
  root : Nat
  isKnotted : Bool
deriving DecidableEq, Repr, Inhabited

/-- Reads the node of a document. -/
def readRoot (fuel : Nat) (r : Reading) : Except Error (Document × List Token) := do
  let (i, r) ← readNode fuel .block r
  .ok (⟨r.nodes, i, r.isKnotted⟩, r.tokens)

/-- The document of a text, with room for so many collections inside each other: `none` for a text
without one, and an error for a text with more than one. -/
def Document.ofTokens (room : Nat) (ts : List Token) : Except Error (Option Document) := do
  let fuel := 5 * ts.length + 8
  let explicit (t : Token) : Bool := t.isBetween && t != .documentEnd
  let (d, rest) ←
    if ts.head?.any explicit then
      let ts := ts.dropWhile (· == .documentEnd)
      if ts.head? == some .finish then pure (none, [])
      else do
        let (handles, rest) ← readDirectives ts false []
        match rest with
        | .documentStart :: rest =>
          if rest.head?.any Token.isBetween then pure (some ⟨#[Node.absent], 0, false⟩, rest)
          else
            let (d, rest) ← readRoot fuel (Reading.start room rest handles)
            pure (some d, rest)
        | rest => .error (faultAt rest)
    else
      let (d, rest) ← readRoot fuel (Reading.start room ts Reading.standardHandles)
      pure (some d, rest)
  let rest := rest.dropWhile (· == .documentEnd)
  if rest.isEmpty || rest.head? == some .finish then .ok d else .error (faultAt rest)

end LintHost.Yaml
