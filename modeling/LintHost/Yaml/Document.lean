/-
The value of a configuration text.

Values are built level by level: what a collection holds is looked at only after everything around
the collection has been built, and a node that is held in several places is built once, where it
is met first.  An entry whose key is a merge mark brings in the entries of the mappings it names,
in front of the mapping's own; of equal keys the last value stands.  When every node has been met
the values are put together, each once.  Where a node is named inside itself, the collections of the
document become the layers of a knot.
-/
import LintHost.Yaml.Node
import LintHost.Yaml.Scalar

namespace LintHost.Yaml

namespace Nodes

/-- The entries of a mapping. -/
def entries (ns : Nodes) (i : Nat) : List (Nat × Nat) :=
  match (ns.at i).content with
  | .map es => es
  | _ => []

/-- Writes the entries of a mapping anew. -/
def setEntries (ns : Nodes) (i : Nat) (es : List (Nat × Nat)) : Nodes :=
  ns.setIfInBounds i ⟨(ns.at i).tag, .map es⟩

/-- Whether the key of an entry has a tag. -/
def keyHas (ns : Nodes) (t : Tag) (e : Nat × Nat) : Bool := (ns.at e.1).tag = t

/-- A default mark that is a key stands for its text. -/
def plainKeys (ns : Nodes) (es : List (Nat × Nat)) : Nodes :=
  es.foldl (fun ns e =>
    if ns.keyHas .default e then ns.setIfInBounds e.1 { ns.at e.1 with tag := .str } else ns) ns

/-- Brings the entries that the merge marks of a mapping name in front of its own; `merged` are
those brought in so far. A mapping that is named is merged first; of a list of mappings the last
comes first. -/
def merge : Nat → List (Nat × Nat) → Nodes → Nat → Except Error Nodes
  | 0, _, _, _ => .error .malformed
  | fuel + 1, merged, ns, i =>
    let own := ns.entries i
    match own.span fun e => !ns.keyHas .merge e with
    | (_, []) =>
      let ns := ns.plainKeys own
      .ok (if merged.isEmpty then ns else ns.setEntries i (merged ++ own))
    | (front, (_, source) :: rest) =>
      let ns := ns.setEntries i (front ++ rest)
      match (ns.at source).content with
      | .scalar _ => .error .malformed
      | .map _ => do
        let ns ← merge fuel [] ns source
        merge fuel (merged ++ ns.entries source) ns i
      | .seq items => do
        let (ns, sources) ← items.foldlM (fun (ns, sources) item =>
          match (ns.at item).content with
          | .map _ => do
            let ns ← merge fuel [] ns item
            .ok (ns, ns.entries item :: sources)
          | _ => .error .malformed) (ns, [])
        merge fuel (merged ++ sources.flatten) ns i

/-- The number of entries of all mappings. -/
def entryCount (ns : Nodes) : Nat :=
  ns.foldl (fun n node => match node.content with
    | .map es => n + es.length
    | _ => n) 0

/-- The text of a node that has to be a scalar; a mapping with a default entry stands for it. -/
def text (ns : Nodes) : Nat → Nat → Except Error (List Char)
  | 0, _ => .error .tooDeep
  | fuel + 1, i =>
    match (ns.at i).content with
    | .scalar s => .ok s
    | .seq _ => .error .malformed
    | .map es =>
      match es.find? (ns.keyHas .default) with
      | some e => text ns fuel e.2
      | none => .error .malformed

end Nodes

/-- Whether values of the tag are collections. -/
def Tag.isCollection : Tag → Bool
  | .seq | .map | .set | .orderedMap | .pairs => true
  | _ => false

/-! ### Meeting the nodes -/

/-- What is known while nodes are met: which ones have been, the values of scalars among them, and
the collections among them that are still to be looked into, the latest first. -/
structure Building where
  file : String
  nodes : Nodes
  /-- A bound on the merges of one mapping. -/
  merges : Nat
  met : Array Bool
  scalars : Array (Option Value)
  waiting : List Nat

namespace Building

/-- Nothing has been met. -/
def start (file : String) (ns : Nodes) : Building :=
  ⟨file, ns, ns.size + ns.entryCount + 1, Array.replicate ns.size false,
    Array.replicate ns.size none, []⟩

/-- The value of a scalar. -/
def scalarValue (b : Building) (i : Nat) : Except Error Value := do
  let text := b.nodes.text (b.nodes.size + 1) i
  match (b.nodes.at i).tag with
  | .null => (fun _ => .null) <$> text
  | .str => (fun s => .str (String.ofList s)) <$> text
  | .bool => text >>= boolValue
  | .int => text >>= intValue
  | .float => text >>= floatValue ⟨b.file, i⟩
  | .moment => do
    let s ← text
    match (b.nodes.at i).content with
    | .scalar _ => momentValue s
    | _ => .error .nestedMoment
  | .binary => text >>= binaryValue
  | _ => .error .malformed

/-- Meets a node. -/
def meet (b : Building) (i : Nat) : Except Error Building :=
  if b.met.getD i true then .ok b
  else
    let b := { b with met := b.met.setIfInBounds i true }
    if (b.nodes.at i).tag.isCollection then .ok { b with waiting := i :: b.waiting }
    else do
      let v ← b.scalarValue i
      .ok { b with scalars := b.scalars.setIfInBounds i (some v) }

/-- Meets a key: a collection is none. -/
def meetKey (b : Building) (k : Nat) : Except Error Building := do
  let b ← b.meet k
  if (b.nodes.at k).tag.isCollection then .error .malformed else .ok b

/-- Meets a pair of an ordered mapping: a mapping with a single entry. -/
def meetPair (b : Building) (i : Nat) : Except Error Building :=
  match (b.nodes.at i).content with
  | .map [(k, v)] => do (← b.meet k).meet v
  | _ => .error .malformed

/-- Looks into a collection. -/
def lookInto (b : Building) (i : Nat) : Except Error Building :=
  let n := b.nodes.at i
  match n.content with
  | .seq items =>
    match n.tag with
    | .seq => items.foldlM meet b
    | .orderedMap | .pairs => items.foldlM meetPair b
    | _ => .error .malformed
  | .map _ =>
    match n.tag with
    | .map | .set => do
      let nodes ← Nodes.merge b.merges [] b.nodes i
      (nodes.entries i).foldlM (fun b e => do (← b.meetKey e.1).meet e.2) { b with nodes }
    | _ => .error .malformed
  | .scalar _ => .error .malformed

/-- Looks into collections, level by level; each level has a node that was not met before. -/
def levels : Nat → Building → Except Error Building
  | 0, b => .ok b
  | fuel + 1, b =>
    if b.waiting.isEmpty then .ok b
    else do
      let b ← b.waiting.reverse.foldlM lookInto { b with waiting := [] }
      levels fuel b

end Building

/-! ### Putting values together -/

/-- Entries put one after the other: of equal keys the first spelling and the last value. -/
def putAll (entries : List (Value × Value)) : List (Value × Value) :=
  entries.foldl (fun es e => Value.put e.1 e.2 es) []

namespace Building

/-- The values of nodes so far. -/
abbrev Settled := StateM (Array (Option Value))

/-- The value of a scalar that was met. -/
def scalarAt (b : Building) (i : Nat) : Value := (b.scalars.getD i none).getD .null

/-- The value of a collection from the values of what it holds. -/
def assemble (tag : Tag) (keys : List Value) (values : List Value) : Value :=
  match tag with
  | .map => .map (putAll (keys.zip values))
  | .set => .set ((putAll (keys.zip values)).map (·.1))
  | _ => .list values

/-! #### As a tree -/

/-- The value of a node in a document without knots. -/
def valueAt (b : Building) : Nat → Nat → Settled Value
  | 0, _ => pure .null
  | fuel + 1, i => do
    let n := b.nodes.at i
    if !n.tag.isCollection then pure (b.scalarAt i)
    else
      match (← get).getD i none with
      | some v => pure v
      | none => do
        let pairOf (item : Nat) : Settled Value := do
          match b.nodes.entries item with
          | [(k, v)] => return .pair (← b.valueAt fuel k) (← b.valueAt fuel v)
          | _ => pure .null
        let (keys, values) ← match n.content with
          | .scalar _ => pure ([], [])
          | .seq items =>
            if n.tag = .seq then pure ([], ← items.mapM (b.valueAt fuel))
            else pure ([], ← items.mapM pairOf)
          | .map es =>
            pure (es.map fun e => b.scalarAt e.1, ← es.mapM fun e => b.valueAt fuel e.2)
        let v := assemble n.tag keys values
        modify fun settled => settled.setIfInBounds i (some v)
        pure v

/-! #### As a knot -/

/-- A part of a layer: a scalar, or a tie to the layer of the node's number. -/
def partAt (b : Building) (i : Nat) : Value :=
  if (b.nodes.at i).tag.isCollection then .tie i else b.scalarAt i

/-- The layers of the pairs that a node holds. -/
def pairsAt (b : Building) (i : Nat) : List Value :=
  let n := b.nodes.at i
  match n.tag, n.content with
  | .orderedMap, .seq items | .pairs, .seq items =>
    items.map fun item =>
      match b.nodes.entries item with
      | [(k, v)] => .pair (b.partAt k) (b.partAt v)
      | _ => .null
  | _, _ => []

/-- The layer of a node; the layers of its pairs are numbered from `next` on. -/
def layerAt (b : Building) (i next : Nat) : Value :=
  let n := b.nodes.at i
  match n.tag, n.content with
  | .seq, .seq items => assemble .seq [] (items.map b.partAt)
  | tag, .seq items => assemble tag [] ((List.range items.length).map fun k => .tie (next + k))
  | tag, .map es => assemble tag (es.map fun e => b.scalarAt e.1) (es.map fun e => b.partAt e.2)
  | _, .scalar _ => .null

/-- The layers of all nodes in their order, and those of the pairs after them. -/
def layers (b : Building) : List Value :=
  let size := b.nodes.size
  let (own, pairs) := (List.range size).foldl (fun (own, pairs) i =>
    (own.push (b.layerAt i (size + pairs.size)), pairs ++ b.pairsAt i)) ((#[], #[]))
  (own ++ pairs).toList

end Building

/-- The value of a document of a file. -/
def Document.value (file : String) (d : Document) : Except Error Value := do
  let size := d.nodes.size
  let b ← (Building.start file d.nodes).meet d.root
  let b ← b.levels (size + 1)
  if d.isKnotted then .ok (Value.loosen b.layers (b.partAt d.root))
  else .ok ((b.valueAt (size + 1) d.root).run (Array.replicate size none)).1

/-- The value of the text of a configuration file, as far as it can be read and with room for so
many collections inside each other; a text without a document has none. -/
def valueOf (room : Nat) (file : String) (text : Text.Portion) : Except Error Value := do
  match ← Document.ofTokens room (Token.ofSource (.ofPortion text)) with
  | some d => d.value file
  | none => .ok .null

end LintHost.Yaml
