import BlockTree.Yaml.Node
import BlockTree.Yaml.Token.Lexer

/-! The grammar of tokens: from a stream of them to the node of its only document. An alias stands
for the node of its anchor, which is known from its beginning on. -/
namespace BlockTree.Yaml

/-- What is still to be read, the nodes so far, the nodes of anchors, the tag handles, and the
number of collections that are open. -/
structure Reading where
  tokens : List Token
  nodes : Nodes
  anchors : List (String × Address)
  handles : List (String × String)
  depth : Nat

namespace Reading

abbrev Parse := StateT Reading (Except Failure)

def peek : Parse Token := do
  match (← get).tokens.headD (.broken .yaml) with
  | .broken f => throw f
  | t => return t

def advance : Parse Unit := modify fun r => { r with tokens := r.tokens.tail }

def tagName (handle : Option String) (suffix : String) : Parse String := do
  match handle with
  | none => return suffix
  | some h => match (← get).handles.lookup h with
    | some target => return target ++ suffix
    | none => throw .yaml

def anchor? : Parse (Option String) := do
  match ← peek with
  | .anchor name => do advance; return some name
  | _ => return none

def tag? : Parse (Option (Option String × String)) := do
  match ← peek with
  | .tag h s => do advance; return some (h, s)
  | _ => return none

def properties : Parse (Option String × Option String) := do
  let first ← anchor?
  let tag ← tag?
  let anchor ← if first.isSome || tag.isNone then pure first else anchor?
  match tag with
  | some (h, s) => return (anchor, some (← tagName h s))
  | none => return (anchor, none)

def add (anchor : Option String) (n : Node) : Parse Address := do
  let r ← get
  let a := r.nodes.size
  match anchor with
  | none => set { r with nodes := r.nodes.push n }
  | some name =>
    if (r.anchors.lookup name).isSome then throw .yaml
    set { r with nodes := r.nodes.push n, anchors := (name, a) :: r.anchors }
  return a

def depthLimit : Nat := 488

def collect (anchor : Option String) (tag : Tag) (content : Parse Content) : Parse Address := do
  let a ← add anchor ⟨tag, .scalar ""⟩
  if depthLimit ≤ (← get).depth then throw .endless
  modify fun r => { r with depth := r.depth + 1 }
  let c ← content
  modify fun r => { r with nodes := r.nodes.setContent a c, depth := r.depth - 1 }
  return a

def aliased (name : String) : Parse Address := do
  match (← get).anchors.lookup name with
  | some a => return a
  | none => throw .yaml

/-- A lone exclamation mark is no tag of its own: it leaves the text to show one. -/
def scalarTag (tag : Option String) (isPlain : Bool) (text : String) : Tag :=
  match tag with
  | none => if isPlain then .implicit text else .str
  | some "!" => .implicit text
  | some t => .named t

def collectionTag (tag : Option String) (default : Tag) : Tag :=
  match tag with
  | none | some "!" => default
  | some t => .named t

def emptyNode : Parse Address := add none ⟨.implicit "", .scalar ""⟩

def endsEntry (indentless : Bool) : Token → Bool
  | .entry | .blockEnd => true
  | .key | .value => indentless
  | _ => false

def endsPair : Token → Bool
  | .key | .value | .blockEnd => true
  | _ => false

def endsFlow (close : Token → Bool) (t : Token) : Bool :=
  match t with
  | .comma => true
  | t => close t

def isSequenceClose : Token → Bool
  | .sequenceClose => true
  | _ => false

def isMappingClose : Token → Bool
  | .mappingClose => true
  | _ => false

def isValue : Token → Bool
  | .value => true
  | _ => false

def isKey : Token → Bool
  | .key => true
  | _ => false

def isComma : Token → Bool
  | .comma => true
  | _ => false

def takeIf (p : Token → Bool) : Parse Bool := do
  if p (← peek) then advance; return true else return false

def separator (first : Bool) : Parse Unit := do
  unless first do
    unless ← takeIf isComma do throw .yaml

def absent (anchor tag : Option String) : Parse Address :=
  if anchor.isSome || tag.isSome then add anchor ⟨scalarTag tag true "", .scalar ""⟩
  else throw .yaml

mutual
/-- A node. In a block context block collections may follow; where `indentless`, also entries of a
sequence that is not indented. -/
def node (block indentless : Bool) : Nat → Parse Address
  | 0 => throw .yaml
  | fuel + 1 => do
    match ← peek with
    | .alias name => do advance; aliased name
    | _ =>
      let (anchor, tag) ← properties
      match ← peek with
      | .scalar text isPlain => do
        advance
        add anchor ⟨scalarTag tag isPlain text, .scalar text⟩
      | .ragged text => do
        advance
        add anchor ⟨scalarTag tag false text.text, .ragged text⟩
      | .sequenceOpen => collect anchor (collectionTag tag .seq) do
        advance
        return .sequence (← flowItems true fuel)
      | .mappingOpen => collect anchor (collectionTag tag .map) do
        advance
        return .mapping (← flowPairs true fuel)
      | .entry =>
        if indentless then collect anchor (collectionTag tag .seq) do
          return .sequence (← entries true fuel)
        else absent anchor tag
      | .blockSequence =>
        if block then collect anchor (collectionTag tag .seq) do
          advance
          return .sequence (← entries false fuel)
        else absent anchor tag
      | .blockMapping =>
        if block then collect anchor (collectionTag tag .map) do
          advance
          return .mapping (← pairs fuel)
        else absent anchor tag
      | _ => absent anchor tag

def entries (indentless : Bool) : Nat → Parse (List Address)
  | 0 => throw .yaml
  | fuel + 1 => do
    match ← peek with
    | .entry => do
      advance
      let n ← if endsEntry indentless (← peek) then emptyNode else node true false fuel
      return n :: (← entries indentless fuel)
    | .blockEnd =>
      unless indentless do advance
      return []
    | _ => if indentless then return [] else throw .yaml

def pairs : Nat → Parse Nodes.Entries
  | 0 => throw .yaml
  | fuel + 1 => do
    match ← peek with
    | .key => do
      advance
      let k ← if endsPair (← peek) then emptyNode else node true true fuel
      let v ← if ← takeIf isValue then
          if endsPair (← peek) then emptyNode else node true true fuel
        else emptyNode
      return (k, v) :: (← pairs fuel)
    | .blockEnd => do advance; return []
    | _ => throw .yaml

def flowValue (close : Token → Bool) : Nat → Parse Address
  | 0 => throw .yaml
  | fuel + 1 => do
    if ← takeIf isValue then
      if endsFlow close (← peek) then emptyNode else node false false fuel
    else emptyNode

def flowKey (close : Token → Bool) : Nat → Parse Address
  | 0 => throw .yaml
  | fuel + 1 => do
    let t ← peek
    if isValue t || endsFlow close t then emptyNode else node false false fuel

/-- The items of a sequence in brackets; a pair is a mapping of its own. -/
def flowItems (first : Bool) : Nat → Parse (List Address)
  | 0 => throw .yaml
  | fuel + 1 => do
    if ← takeIf isSequenceClose then return []
    separator first
    if ← takeIf isSequenceClose then return []
    let n ← if ← takeIf isKey then collect none .map do
        let k ← flowKey isSequenceClose fuel
        return .mapping [(k, ← flowValue isSequenceClose fuel)]
      else node false false fuel
    return n :: (← flowItems false fuel)

/-- The pairs of a mapping in braces; a node without a mark is a key without a value. -/
def flowPairs (first : Bool) : Nat → Parse Nodes.Entries
  | 0 => throw .yaml
  | fuel + 1 => do
    if ← takeIf isMappingClose then return []
    separator first
    if ← takeIf isMappingClose then return []
    let e ← if ← takeIf isKey then do
        let k ← flowKey isMappingClose fuel
        pure (k, ← flowValue isMappingClose fuel)
      else do
        let k ← node false false fuel
        pure (k, ← emptyNode)
    return e :: (← flowPairs false fuel)
end

def standardHandles : List (String × String) := [("!", "!"), ("!!", Tag.core)]

/-- Directives before a document: one version at most, which must be 1, and every handle once. -/
def directives (version : Bool) : Nat → Parse Unit
  | 0 => throw .yaml
  | fuel + 1 => do
    match ← peek with
    | .directive (.version major) => do
      advance
      if version || major ≠ 1 then throw .yaml
      directives true fuel
    | .directive (.handle name target) => do
      advance
      let r ← get
      if (r.handles.lookup name).isSome then throw .yaml
      set { r with handles := (name, target) :: r.handles }
      directives version fuel
    | .directive .other => do advance; directives version fuel
    | _ => return

def isDocumentEnd : Token → Bool
  | .documentEnd => true
  | _ => false

def isStreamEnd : Token → Bool
  | .streamEnd => true
  | _ => false

def endsDocument : Token → Bool
  | .directive _ | .documentStart | .documentEnd | .streamEnd => true
  | _ => false

def streamEnd (fuel : Nat) : Parse Unit := do
  match fuel with
  | 0 => throw .yaml
  | fuel + 1 =>
    if ← takeIf isDocumentEnd then streamEnd fuel
    else unless isStreamEnd (← peek) do throw .yaml

def document (fuel : Nat) : Parse (Option Address) := do
  match ← peek with
  | .streamEnd => return none
  | .directive _ | .documentStart => do
    directives false fuel
    modify fun r => { r with handles := r.handles ++ standardHandles }
    match ← peek with
    | .documentStart => advance
    | _ => throw .yaml
    let n ← if endsDocument (← peek) then emptyNode else node true false fuel
    streamEnd fuel
    return some n
  | _ => do
    modify fun r => { r with handles := standardHandles }
    let n ← node true false fuel
    streamEnd fuel
    return some n

end Reading

/-- The nodes of a stream of tokens, with that of the document; every two steps take a token. -/
def Node.ofTokens? (ts : List Token) : Except Failure (Option (Nodes × Address)) := do
  let (root, r) ← (Reading.document (4 * ts.length + 8)).run ⟨ts, #[], [], [], 0⟩
  return root.map fun a => (r.nodes, a)

end BlockTree.Yaml
