import FuzzLedger.Yaml.Token

/-!
# YAML documents

`Document.ofText` reads a text that holds at most one document.  A node is a scalar, of which it is
kept how it was written and with which tag, a sequence or a mapping with its members in order.  A
place where a value may stand and none does holds an empty plain scalar.

A node may be given a name (an anchor) and be referred to by it afterwards.  References are kept as
numbers (`Anchors`), and `Document.follow` goes from a reference to its node, which may hold the
reference itself.
-/

set_option autoImplicit false

namespace FuzzLedger.Yaml

/-- A value of a YAML document. -/
inductive Node where
  | scalar (tag : Option String) (style : Style) (text : String)
  | seq (items : List Node)
  | map (members : List (Node × Node))
  | reference (number : Nat)

/-- What stands where nothing is written. -/
def Node.nothing : Node := .scalar none .plain ""

/-! ## Named nodes -/

/-- The nodes that have been given names.  A name gets as its number how many names there are; one
that is given again has a new number then, which a later name may get too, and of the nodes with one
number the last counts. -/
structure Anchors where
  /-- The numbers of the names. -/
  numbers : List (String × Nat) := []
  /-- The numbers in the order in which they were given out, the last first. -/
  given : List Nat := []
  /-- The nodes that are complete, each with how many numbers had been given out before it. -/
  nodes : List (Nat × Node) := []

namespace Anchors

/-- Gives a number to a name; answers how many had been given out before. -/
def name (a : Anchors) (name : String) : Anchors × Nat :=
  let number := a.numbers.length
  ({ a with
      numbers := (name, number) :: a.numbers.filter fun entry => entry.1 != name
      given := number :: a.given }, a.given.length)

/-- Records the node of a name. -/
def complete (a : Anchors) (place : Nat) (node : Node) : Anchors :=
  { a with nodes := (place, node) :: a.nodes }

/-- The node with a number. -/
def node? (a : Anchors) (number : Nat) : Option Node :=
  match a.given.findIdx? (· == number) with
  | some fromEnd => a.nodes.lookup (a.given.length - 1 - fromEnd)
  | none => none

end Anchors

/-- A document. -/
structure Document where
  root : Node
  anchors : Anchors

/-- The node that stands in a place, or is referred to there. -/
def Document.follow (d : Document) : Node → Node
  | .reference number => (d.anchors.node? number).getD .nothing
  | node => node

/-! ## Reading tokens -/

/-- How far a document has been read. -/
structure Progress where
  /-- The tokens still to come. -/
  tokens : List Token
  /-- For what handles of tags stand. -/
  handles : List (String × String)
  anchors : Anchors := {}

/-- A reader of tokens. -/
abbrev Parse (α : Type) := StateT Progress (Except Refusal) α

/-- Goes on to the given tokens. -/
def goTo (tokens : List Token) : Parse Unit := modify fun p => { p with tokens }

/-- Goes over a token. -/
def advance : Parse Unit := modify fun p => { p with tokens := p.tokens.drop 1 }

/-- Whether the next token is one of these. -/
def nextIn (options : List Token) : Parse Bool := do
  match (← get).tokens with
  | [] => return false
  | t :: _ => return options.contains t

/-- Goes over the next token, which must be the given one. -/
def expect (token : Token) : Parse Unit := do
  if ← nextIn [token] then advance else throw .refused

/-- What stands before a node. -/
structure Properties where
  anchor : Option String := none
  tag : Option String := none

/-- A tag in full. -/
def fullTag (handle rest : String) : Parse String := do
  if handle.isEmpty then return rest
  else
    match (← get).handles.lookup handle with
    | some start => return start ++ rest
    | none => throw .refused

/-- The properties of a node, in either order. -/
def parseProperties : Parse Properties := do
  match (← get).tokens with
  | .anchor name :: .tag handle rest :: tokens =>
    goTo tokens
    return { anchor := some name, tag := some (← fullTag handle rest) }
  | .tag handle rest :: .anchor name :: tokens =>
    goTo tokens
    return { anchor := some name, tag := some (← fullTag handle rest) }
  | .anchor name :: tokens =>
    goTo tokens
    return { anchor := some name }
  | .tag handle rest :: tokens =>
    goTo tokens
    return { tag := some (← fullTag handle rest) }
  | _ => return {}

/-- Gives the node that follows its name, if it has one. -/
def beginNode : Option String → Parse (Option Nat)
  | none => return none
  | some name => do
    let p ← get
    let (anchors, place) := p.anchors.name name
    set { p with anchors }
    return some place

/-- Records the node of the name that was given before it. -/
def endNode (place : Option Nat) (node : Node) : Parse Unit :=
  match place with
  | none => return ()
  | some place => modify fun p => { p with anchors := p.anchors.complete place node }

/-- A reference to a node that has been given the name. -/
def parseReference (name : String) : Parse Node := do
  match (← get).anchors.numbers.lookup name with
  | some number => return .reference number
  | none => throw .refused

/-- The tag that says nothing about the kind of a scalar. -/
def plainTag : String := "!"

mutual

/-- A node.  In block context (`block`) a block collection may begin here; where a mapping's value
may stand (`indentless`) also a sequence that is not indented. -/
def parseNode : Nat → (block indentless : Bool) → Parse Node
  | 0, _, _ => throw .refused
  | steps + 1, block, indentless => do
    match (← get).tokens with
    | .reference name :: tokens => do
      goTo tokens
      parseReference name
    | _ => do
      let properties ← parseProperties
      let place ← beginNode properties.anchor
      let node ← parseContent steps block indentless properties
      endNode place node
      return node

/-- A node after its properties.  If there are any, the rest may be missing. -/
def parseContent : Nat → (block indentless : Bool) → Properties → Parse Node
  | 0, _, _, _ => throw .refused
  | steps + 1, block, indentless, properties => do
    match (← get).tokens with
    | .scalar style text :: tokens => do
      goTo tokens
      return .scalar (properties.tag.filter (· != plainTag)) style text
    | .flowSequenceStart :: tokens => do
      goTo tokens
      return .seq (← parseFlowItems steps true)
    | .flowMappingStart :: tokens => do
      goTo tokens
      return .map (← parseFlowMembers steps true)
    | token :: tokens =>
      if indentless && token == .blockEntry then return .seq (← parseIndentless steps)
      else if block && token == .blockSequenceStart then
        goTo tokens
        return .seq (← parseBlockItems steps)
      else if block && token == .blockMappingStart then
        goTo tokens
        return .map (← parseBlockMembers steps)
      else if properties.anchor.isSome || properties.tag.isSome then
        return .scalar properties.tag .plain ""
      else throw .refused
    | [] => throw .refused

/-- A node, or nothing if one of the given tokens is next. -/
def parseOptional : Nat → (block indentless : Bool) → List Token → Parse Node
  | 0, _, _, _ => throw .refused
  | steps + 1, block, indentless, stops => do
    if ← nextIn stops then return .nothing else parseNode steps block indentless

/-- The entries of a block sequence and its end. -/
def parseBlockItems : Nat → Parse (List Node)
  | 0 => throw .refused
  | steps + 1 => do
    if ← nextIn [.blockEntry] then
      advance
      let head ← parseOptional steps true false [.blockEntry, .blockEnd]
      let tail ← parseBlockItems steps
      return head :: tail
    else
      expect .blockEnd
      return []

/-- The entries of a sequence that is indented no deeper than the mapping it stands in. -/
def parseIndentless : Nat → Parse (List Node)
  | 0 => throw .refused
  | steps + 1 => do
    if ← nextIn [.blockEntry] then
      advance
      let head ← parseOptional steps true false [.blockEntry, .key, .value, .blockEnd]
      let tail ← parseIndentless steps
      return head :: tail
    else return []

/-- The members of a block mapping and its end. -/
def parseBlockMembers : Nat → Parse (List (Node × Node))
  | 0 => throw .refused
  | steps + 1 => do
    if ← nextIn [.key] then
      advance
      let k ← parseOptional steps true true [.key, .value, .blockEnd]
      let v ← parseValue steps true [.key, .value, .blockEnd]
      let tail ← parseBlockMembers steps
      return (k, v) :: tail
    else
      expect .blockEnd
      return []

/-- The value of a member, if there is one before the given tokens. -/
def parseValue : Nat → (block : Bool) → List Token → Parse Node
  | 0, _, _ => throw .refused
  | steps + 1, block, stops => do
    if ← nextIn [.value] then
      advance
      parseOptional steps block block stops
    else return .nothing

/-- The elements of a flow sequence and its end.  An element may be a mapping of one member; if its
key is marked and empty, the token after the mark goes with it. -/
def parseFlowItems : Nat → (first : Bool) → Parse (List Node)
  | 0, _ => throw .refused
  | steps + 1, first => do
    if ← nextIn [.flowSequenceEnd] then
      advance
      return []
    else
      if !first then expect .flowEntry
      if ← nextIn [.flowSequenceEnd] then
        advance
        return []
      else
        let head ←
          if ← nextIn [.key] then do
            advance
            let k ←
              if ← nextIn [.value, .flowEntry, .flowSequenceEnd] then do
                advance
                pure .nothing
              else parseNode steps false false
            let v ← parseValue steps false [.flowEntry, .flowSequenceEnd]
            pure (.map [(k, v)])
          else parseNode steps false false
        let tail ← parseFlowItems steps false
        return head :: tail

/-- The members of a flow mapping and its end. -/
def parseFlowMembers : Nat → (first : Bool) → Parse (List (Node × Node))
  | 0, _ => throw .refused
  | steps + 1, first => do
    if ← nextIn [.flowMappingEnd] then
      advance
      return []
    else
      if !first then expect .flowEntry
      if ← nextIn [.flowMappingEnd] then
        advance
        return []
      else
        let member ←
          if ← nextIn [.key] then do
            advance
            let k ← parseOptional steps false false [.value, .flowEntry, .flowMappingEnd]
            let v ← parseValue steps false [.flowEntry, .flowMappingEnd]
            pure (k, v)
          else do
            let k ← parseNode steps false false
            pure (k, .nothing)
        let tail ← parseFlowMembers steps false
        return member :: tail

end

/-! ## Whole texts -/

/-- For what handles stand if nothing else is said. -/
def commonHandles : List (String × String) := [("!", "!"), ("!!", "tag:yaml.org,2002:")]

/-- The directives before a document: at most one version, and each handle once.  Answers for what
handles stand, and the tokens that follow. -/
def readDirectives :
    (versioned : Bool) → List (String × String) → List Token →
      Scan (List (String × String) × List Token)
  | versioned, handles, .versionRule major minor :: tokens =>
    if versioned || major != 1 || !(minor == 1 || minor == 2) then refuse
    else readDirectives true handles tokens
  | versioned, handles, .tagRule handle start :: tokens =>
    if handles.any (·.1 == handle) then refuse
    else readDirectives versioned (handles ++ [(handle, start)]) tokens
  | _, handles, tokens => .ok (handles ++ commonHandles, tokens)

/-- After a document only end markers may follow. -/
def endsStream : List Token → Bool
  | [.streamEnd] => true
  | .documentEnd :: rest => endsStream rest
  | _ => false

/-- Reads the root of a document from the tokens of a text, which must be its only one. -/
def parseDocument (tokens : List Token) (handles : List (String × String)) (root : Parse Node) :
    Scan Document := do
  let (root, p) ← root.run { tokens, handles }
  if endsStream p.tokens then return { root, anchors := p.anchors } else refuse

/-- The only document of a stream of tokens, if there is one.  Directives have to be followed by the
start marker. -/
def parseStream (tokens : List Token) : Scan (Option Document) := do
  let steps := 4 * tokens.length + 4
  match ← readDirectives false [] tokens with
  | (_, [.streamEnd]) => if tokens == [.streamEnd] then return none else refuse
  | (handles, .documentStart :: rest) =>
    return some (← parseDocument rest handles
      (parseOptional steps true false [.documentStart, .documentEnd, .streamEnd]))
  | (handles, rest) =>
    if rest.length < tokens.length then refuse
    else return some (← parseDocument tokens handles (parseNode steps true false))

/-- The only document of a text; `none` if the text holds nothing. -/
def Document.ofText (text : String) : Scan (Option Document) := do
  parseStream (← Token.scan text)

end FuzzLedger.Yaml
