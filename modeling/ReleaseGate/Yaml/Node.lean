import ReleaseGate.Binary64.Numeral
import ReleaseGate.Document
import ReleaseGate.Yaml.Token

/-!
# Nodes of a YAML text

A text holds one document, and a document is one node. An alias stands for the node of the last
anchor of its name.

* `Node.read?`: the node of a text.
* As a document, a record is a mapping whose keys are scalars, any scalar is a text, and truth
  values and numbers are written without quotes. Where a list, map or record is asked for, nothing
  at all is an empty one.
-/

namespace ReleaseGate.Yaml

/-- A node. -/
inductive Node where
  | scalar (style : ScalarStyle) (tag : Option String) (content : String)
  | sequence (items : List Node)
  | mapping (entries : List (Node × Node))
  /-- The node of a text without a document. -/
  | nothing
  /-- An alias inside the node that it stands for. -/
  | cycle

/-- The node where nothing is written. -/
def Node.empty (tag : Option String) : Node := .scalar .plain tag ""

/-! ## Tokens to come -/

/-- The tokens to come, and the nodes with anchors so far. -/
structure Stream where
  tokens : List Token
  /-- The number of each anchor, the last one first. -/
  anchors : List (String × Nat) := []
  /-- The nodes of anchors, as far as they are complete. -/
  nodes : List (Nat × Node) := []
  /-- What each handle of a tag stands for. -/
  handles : List (String × String) := [("!", "!"), ("!!", "tag:yaml.org,2002:")]

/-- Something read from the tokens to come. -/
abbrev Reading (α : Type) := StateT Stream Option α

namespace Reading

/-- The next token. -/
def peek : Reading (Option Token) := return (← get).tokens.head?

/-- Go on behind the next token. -/
def skip : Reading Unit := modify fun s => { s with tokens := s.tokens.drop 1 }

/-- Whether the next token is of a kind; the end of the tokens is of none. -/
def isNext (kind : Token → Bool) : Reading Bool := return (← peek).any kind

/-- What a tag says in full. -/
def fullTag (tag : Tag) : Reading String := do
  if tag.handle = "" then return tag.suffix
  else
    let start ← ((← get).handles.lookup tag.handle : Option String)
    return start ++ tag.suffix

/-- The anchor before a node. -/
def anchor? : Reading (Option String) := do
  match ← peek with
  | some (.anchor name) => do
    skip
    return some name
  | _ => return none

/-- The tag before a node. -/
def tag? : Reading (Option String) := do
  match ← peek with
  | some (.tag tag) => do
    skip
    return some (← fullTag tag)
  | _ => return none

/-- The anchor and the tag before a node, in either order. -/
def properties : Reading (Option String × Option String) := do
  match ← anchor? with
  | some name => return (some name, ← tag?)
  | none => do
    let tag ← tag?
    if tag.isSome then return (← anchor?, tag) else return (none, none)

/-- The number of a new anchor. -/
def openAnchor : Option String → Reading (Option Nat)
  | none => return none
  | some name => do
    let s ← get
    let number := s.anchors.length
    set { s with anchors := (name, number) :: s.anchors }
    return some number

/-- The node of an anchor is complete. -/
def closeAnchor (node : Node) : Option Nat → Reading Unit
  | none => return ()
  | some number => modify fun s => { s with nodes := (number, node) :: s.nodes }

/-- The node that an alias stands for. -/
def aliased (name : String) : Reading Node := do
  let s ← get
  let number ← (s.anchors.lookup name : Option Nat)
  return (s.nodes.lookup number).getD .cycle

end Reading

/-! ## Kinds of tokens -/

namespace Token

/-- What ends an item of a block sequence. -/
def endsBlockItem : Token → Bool
  | blockEntry | blockEnd => true
  | _ => false

/-- What ends a key or value of a block mapping. -/
def endsBlockPart : Token → Bool
  | key | value | blockEnd => true
  | _ => false

/-- What ends an item of a sequence that is not deeper than the mapping around it. -/
def endsLevelItem (token : Token) : Bool := token.endsBlockItem || token.endsBlockPart

/-- What ends a key between brackets. -/
def endsSequenceKey : Token → Bool
  | value | flowEntry | flowSequenceEnd => true
  | _ => false

/-- What ends a value between brackets. -/
def endsSequenceValue : Token → Bool
  | flowEntry | flowSequenceEnd => true
  | _ => false

/-- What ends a key between braces. -/
def endsMappingKey : Token → Bool
  | value | flowEntry | flowMappingEnd => true
  | _ => false

/-- What ends a value between braces. -/
def endsMappingValue : Token → Bool
  | flowEntry | flowMappingEnd => true
  | _ => false

/-- The colon before a value. -/
def isValue : Token → Bool
  | value => true
  | _ => false

/-- What does not belong to the node of a document. -/
def endsDocument : Token → Bool
  | directive _ | documentStart | documentEnd => true
  | _ => false

end Token

/-! ## Nodes -/

open Reading

/-- Nothing, if a token says so, or else a node. -/
def orEmpty (ends : Token → Bool) (node : Reading Node) : Reading Node := do
  if ← isNext ends then return .empty none else node

/-- A value behind its colon, if there is one. -/
def valueOr (ends : Token → Bool) (node : Reading Node) : Reading Node := do
  if ← isNext Token.isValue then do
    skip
    orEmpty ends node
  else return .empty none

mutual

/-- A node. It may be a block only where blocks are allowed, and a sequence that is not deeper than
the mapping around it only as a part of that mapping. -/
def readNode (block level : Bool) : (fuel : Nat) → Reading Node
  | 0 => failure
  | fuel + 1 => do
    match ← peek with
    | some (.alias name) => do
      skip
      aliased name
    | _ => do
      let (anchor, tag) ← properties
      let number ← openAnchor anchor
      let node ← match ← peek, block, level with
        | some (.scalar style content), _, _ => do
          skip
          pure (Node.scalar style tag content)
        | some .flowSequence, _, _ => do
          skip
          Node.sequence <$> readFlowItems true fuel
        | some .flowMapping, _, _ => do
          skip
          Node.mapping <$> readFlowPairs true fuel
        | some .blockSequence, true, _ => do
          skip
          Node.sequence <$> readBlockItems fuel
        | some .blockMapping, true, _ => do
          skip
          Node.mapping <$> readBlockPairs fuel
        | some .blockEntry, _, true => Node.sequence <$> readLevelItems fuel
        | _, _, _ =>
          if anchor.isSome || tag.isSome then pure (Node.empty tag) else failure
      closeAnchor node number
      return node

/-- The items of a block sequence. -/
def readBlockItems : (fuel : Nat) → Reading (List Node)
  | 0 => failure
  | fuel + 1 => do
    match ← peek with
    | some .blockEntry => do
      skip
      let item ← orEmpty Token.endsBlockItem (readNode true false fuel)
      return item :: (← readBlockItems fuel)
    | some .blockEnd => do
      skip
      return []
    | _ => failure

/-- The items of a sequence that is not deeper than the mapping around it. -/
def readLevelItems : (fuel : Nat) → Reading (List Node)
  | 0 => failure
  | fuel + 1 => do
    match ← peek with
    | some .blockEntry => do
      skip
      let item ← orEmpty Token.endsLevelItem (readNode true false fuel)
      return item :: (← readLevelItems fuel)
    | _ => return []

/-- The keys and values of a block mapping. -/
def readBlockPairs : (fuel : Nat) → Reading (List (Node × Node))
  | 0 => failure
  | fuel + 1 => do
    match ← peek with
    | some .key => do
      skip
      let key ← orEmpty Token.endsBlockPart (readNode true true fuel)
      let value ← valueOr Token.endsBlockPart (readNode true true fuel)
      return (key, value) :: (← readBlockPairs fuel)
    | some .blockEnd => do
      skip
      return []
    | _ => failure

/-- The items between brackets. One with a key is a mapping of its own; where that key is empty, the
token behind it goes with it. -/
def readFlowItems (isFirst : Bool) : (fuel : Nat) → Reading (List Node)
  | 0 => failure
  | fuel + 1 => do
    if ← isNext (fun | .flowSequenceEnd => true | _ => false) then do
      skip
      return []
    else do
      if !isFirst then
        if ← isNext (fun | .flowEntry => true | _ => false) then skip else failure
      match ← peek with
      | some .flowSequenceEnd => do
        skip
        return []
      | some .key => do
        skip
        let key ←
          if ← isNext Token.endsSequenceKey then do
            skip
            pure (Node.empty none)
          else readNode false false fuel
        let value ← valueOr Token.endsSequenceValue (readNode false false fuel)
        return .mapping [(key, value)] :: (← readFlowItems false fuel)
      | _ => do
        let item ← readNode false false fuel
        return item :: (← readFlowItems false fuel)

/-- The keys and values between braces. -/
def readFlowPairs (isFirst : Bool) : (fuel : Nat) → Reading (List (Node × Node))
  | 0 => failure
  | fuel + 1 => do
    if ← isNext (fun | .flowMappingEnd => true | _ => false) then do
      skip
      return []
    else do
      if !isFirst then
        if ← isNext (fun | .flowEntry => true | _ => false) then skip else failure
      match ← peek with
      | some .flowMappingEnd => do
        skip
        return []
      | some .key => do
        skip
        let key ← orEmpty Token.endsMappingKey (readNode false false fuel)
        let value ← valueOr Token.endsMappingValue (readNode false false fuel)
        return (key, value) :: (← readFlowPairs false fuel)
      | _ => do
        let key ← readNode false false fuel
        return (key, .empty none) :: (← readFlowPairs false fuel)

end

/-! ## Documents -/

/-- Directives: the version, which is 1.1 or 1.2, at most once, and each handle at most once. -/
def readDirectives : (versions : Nat) → (handles : List (String × String)) → List Token →
    Option (List (String × String) × List Token)
  | versions, handles, .directive (.version major minor) :: rest =>
    if versions = 0 ∧ major = 1 ∧ (minor = 1 ∨ minor = 2) then readDirectives 1 handles rest
    else none
  | versions, handles, .directive (.tag handle start) :: rest =>
    if (handles.lookup handle).isSome then none
    else readDirectives versions ((handle, start) :: handles) rest
  | _, handles, tokens => some (handles, tokens)

/-- The node of a document, behind its start. -/
def readContent (fuel : Nat) : Reading Node := do
  match ← peek with
  | none => return .empty none
  | some token =>
    if token.endsDocument then return .empty none else readNode true false fuel

/-- The node of the only document. -/
def readDocument (tokens : List Token) : Option Node := do
  let fuel := 2 * tokens.length + 2
  let (node, stream) ← match tokens with
    | [] => some (.nothing, { tokens := [] })
    | .directive _ :: _ | .documentStart :: _ => do
      match ← readDirectives 0 [] tokens with
      | (handles, .documentStart :: rest) =>
        let standard := ({ tokens := [] : Stream }).handles
        (readContent fuel).run { tokens := rest, handles := handles ++ standard }
      | _ => none
    | tokens => (readNode true false fuel).run { tokens }
  match stream.tokens.dropWhile (fun | .documentEnd => true | _ => false) with
  | [] => some node
  | _ => none

/-- The node of a text. -/
def Node.read? (text : String) : Option Node := (Token.readAll? text).bind readDocument

/-! ## Nodes as documents -/

namespace Node

/-- Whether a scalar without quotes stands for nothing. -/
def isNullWord (content : String) : Bool := ["", "null", "Null", "NULL", "~"].contains content

/-- A number without quotes: a decimal numeral, or a word behind a dot. -/
def realOfText? (content : String) : Option Binary64 :=
  let unsigned? : Option (List Char) := match content.toList with
    | '+' :: '+' :: _ => none
    | '+' :: '-' :: _ => none
    | '+' :: rest => some rest
    | chars => some chars
  unsigned?.bind fun unsigned =>
    if [".inf", ".Inf", ".INF"].contains (String.ofList unsigned) then
      some (Binary64.infinity false)
    else if ["-.inf", "-.Inf", "-.INF"].contains content then some (Binary64.infinity true)
    else if [".nan", ".NaN", ".NAN"].contains content then some .nan
    else (Numeral.read? unsigned).bind fun numeral =>
      let value := numeral.toBinary64
      if value.isFinite then some value else none

/-- A scalar that is not a text for sure: one without quotes, or lines with a tag that says so. -/
def unquoted? (kind : String) : Node → Option String
  | scalar .plain _ content => some content
  | scalar .literal (some tag) content =>
    if tag = "tag:yaml.org,2002:" ++ kind then some content else none
  | _ => none

/-- The tag of a choice: what stands behind an exclamation mark, or else the text. -/
def choice? : Node → Option String
  | scalar style tag content =>
    match (tag.getD "").toList with
    | '!' :: name =>
      if style = .plain ∧ isNullWord content then some (String.ofList name) else none
    | _ => some content
  | _ => none

/-- Any scalar as a text. -/
def text? : Node → Option String
  | scalar _ _ content => some content
  | _ => none

/-- Whether nothing is written. -/
def isEmpty : Node → Bool
  | nothing => true
  | scalar .plain _ content => content = ""
  | _ => false

/-- The items of a sequence. -/
def items? : Node → Option (List Node)
  | sequence items => some items
  | node => if node.isEmpty then some [] else none

/-- The entries of a mapping whose keys are scalars. -/
def entries? : Node → Option (List (String × Node))
  | mapping entries => entries.mapM fun (key, value) => key.text?.map (·, value)
  | node => if node.isEmpty then some [] else none

instance : Document Node where
  text? := text?
  tag? := choice?
  flag? node := (node.unquoted? "bool").bind fun content =>
    if ["true", "True", "TRUE"].contains content then some true
    else if ["false", "False", "FALSE"].contains content then some false
    else none
  real? node := (node.unquoted? "float").bind realOfText?
  items? := items?
  entries? := entries?
  record? keys node := node.entries?.bind (Fields.known keys)

end Node

end ReleaseGate.Yaml
