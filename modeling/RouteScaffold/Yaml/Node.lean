import RouteScaffold.Yaml.Token

/-!
# YAML nodes

A document is a node: a scalar, a list, a mapping or an alias.  Nodes may be anchored, and the
anchors are numbered: an anchor's number is the count of different anchor names met before it, and an
alias carries the number its name had when the alias was met.

`Node.ofTokens?` reads the token sequence of a stream with at most one document.  It gives nothing
when the tokens do not form one.
-/

namespace RouteScaffold.Yaml

/-- A node of a document. -/
inductive Node where
  | scalar (anchor : Option Nat) (tag : Option Tag) (text : List Char) (plain : Bool)
  | list (anchor : Option Nat) (tag : Option Tag) (items : List Node)
  | mapping (anchor : Option Nat) (tag : Option Tag) (entries : List (Node × Node))
  | aliasOf (anchor : Nat)
  deriving Inhabited

namespace Node

/-- The node that stands where the text has none. -/
def absent : Node := scalar none none [] true

/-- The anchor and the tag of a node. -/
structure Properties where
  anchor : Option Nat := none
  tag : Option Tag := none

/-- What is left of the token sequence, and the names known so far. -/
structure Source where
  tokens : List Token
  /-- The numbers of the anchor names. -/
  anchors : List (List Char × Nat) := []
  /-- What the tag handles stand for. -/
  handles : List (List Char × Tag)

/-- A step of the reader. -/
abbrev Step := StateT Source Option

namespace Step

/-- The step that gives nothing. -/
def reject {α : Type} : Step α := fun _ => none

/-- The next token. -/
def next : Step (Option Token) := fun source => some (source.tokens.head?, source)

/-- Goes past the next token. -/
def skip : Step Unit := fun source => some ((), { source with tokens := source.tokens.drop 1 })

/-- Goes past the next token, which has to be a certain one. -/
def expect (token : Token) : Step Unit := do
  if (← next) = some token then skip else reject

/-- Whether the next token is one of the given ones. -/
def nextIn (tokens : List Token) : Step Bool := do
  return (← next).any tokens.contains

/-- The number of a new anchor. -/
def defineAnchor (name : List Char) : Step Nat := fun source =>
  let number := source.anchors.length
  if source.anchors.any (·.1 = name) then
    some (number, { source with
      anchors := source.anchors.map fun known => if known.1 = name then (name, number) else known })
  else
    some (number, { source with anchors := (name, number) :: source.anchors })

/-- The number of an anchor that an alias names. -/
def findAnchor (name : List Char) : Step Nat := fun source =>
  (source.anchors.lookup name).map fun number => (number, source)

/-- The tag that a handle and a suffix denote. -/
def resolveTag (handle : List Char) (suffix : Tag) : Step Tag := fun source =>
  if handle.isEmpty then some (suffix, source)
  else (source.handles.lookup handle).map fun meaning => (meaning ++ suffix, source)

end Step

open Step

/-- Reads an anchor, if one is next. -/
def anchorProperty : Step (Option Nat) := do
  match ← next with
  | some (.anchor name) =>
    skip
    return some (← defineAnchor name)
  | _ => return none

/-- Reads a tag as it is written, if one is next. -/
def tagProperty : Step (Option (List Char × Tag)) := do
  match ← next with
  | some (.tag handle suffix) =>
    skip
    return some (handle, suffix)
  | _ => return none

/-- Reads an anchor and a tag in either order. -/
def properties : Step Properties := do
  match ← anchorProperty with
  | some anchor =>
    let tag ← tagProperty
    let tag ← tag.mapM fun (handle, suffix) => resolveTag handle suffix
    return { anchor := some anchor, tag }
  | none =>
    let tag ← tagProperty
    let anchor ← anchorProperty
    let tag ← tag.mapM fun (handle, suffix) => resolveTag handle suffix
    return { anchor, tag }

/-- The tokens in front of which a key or a value of a block mapping is absent. -/
def blockMappingStops : List Token := [.key, .value, .closeBlock]

mutual

/-- Reads a node.  Blocks may only begin where `block` holds, and a list whose dashes stand at the
column of the mapping around it only where `indentless` holds. -/
def read (fuel : Nat) (block indentless : Bool) : Step Node := do
  match fuel with
  | 0 => reject
  | fuel + 1 =>
    match ← next with
    | some (.aliasOf name) =>
      skip
      return .aliasOf (← findAnchor name)
    | _ =>
      let ⟨anchor, tag⟩ ← properties
      match ← next with
      | some .blockEntry =>
        if indentless then return .list anchor tag (← indentlessItems fuel)
        else absentWith anchor tag
      | some (.scalar text plain) =>
        skip
        return .scalar anchor tag text plain
      | some .openFlowSequence =>
        skip
        return .list anchor tag (← flowItems fuel true)
      | some .openFlowMapping =>
        skip
        return .mapping anchor tag (← flowEntries fuel true)
      | some .openBlockSequence =>
        if block then
          skip
          return .list anchor tag (← blockItems fuel)
        else absentWith anchor tag
      | some .openBlockMapping =>
        if block then
          skip
          return .mapping anchor tag (← blockEntries fuel)
        else absentWith anchor tag
      | _ => absentWith anchor tag

/-- The absent node, which needs an anchor or a tag to stand for it. -/
def absentWith (anchor : Option Nat) (tag : Option Tag) : Step Node :=
  if anchor.isSome || tag.isSome then return .scalar anchor tag [] true else reject

/-- Reads a node unless one of the given tokens is next. -/
def readUnless (fuel : Nat) (stops : List Token) (block indentless : Bool) : Step Node := do
  match fuel with
  | 0 => reject
  | fuel + 1 =>
    if ← nextIn stops then return absent else read fuel block indentless

/-- Reads the items of a block sequence and its end. -/
def blockItems (fuel : Nat) : Step (List Node) := do
  match fuel with
  | 0 => reject
  | fuel + 1 =>
    match ← next with
    | some .blockEntry =>
      skip
      let item ← readUnless fuel [.blockEntry, .closeBlock] true false
      return item :: (← blockItems fuel)
    | some .closeBlock =>
      skip
      return []
    | _ => reject

/-- Reads the items of a sequence that has no block of its own. -/
def indentlessItems (fuel : Nat) : Step (List Node) := do
  match fuel with
  | 0 => reject
  | fuel + 1 =>
    match ← next with
    | some .blockEntry =>
      skip
      let item ← readUnless fuel [.blockEntry, .key, .value, .closeBlock] true false
      return item :: (← indentlessItems fuel)
    | _ => return []

/-- Reads the entries of a block mapping and its end. -/
def blockEntries (fuel : Nat) : Step (List (Node × Node)) := do
  match fuel with
  | 0 => reject
  | fuel + 1 =>
    match ← next with
    | some .closeBlock =>
      skip
      return []
    | some .key =>
      skip
      let key ← readUnless fuel blockMappingStops true true
      let value ← blockValue fuel
      return (key, value) :: (← blockEntries fuel)
    | _ => reject

/-- Reads the value of an entry of a block mapping. -/
def blockValue (fuel : Nat) : Step Node := do
  match fuel with
  | 0 => reject
  | fuel + 1 =>
    if (← next) = some .value then
      skip
      readUnless fuel blockMappingStops true true
    else
      return absent

/-- Reads the items of a flow sequence and its end; every item but the first follows a comma. -/
def flowItems (fuel : Nat) (first : Bool) : Step (List Node) := do
  match fuel with
  | 0 => reject
  | fuel + 1 =>
    if (← next) = some .closeFlowSequence then
      skip
      return []
    else
      if !first then expect .flowEntry
      match ← next with
      | some .closeFlowSequence =>
        skip
        return []
      | some .key =>
        skip
        let item ← flowPair fuel
        return item :: (← flowItems fuel false)
      | _ =>
        let item ← read fuel false false
        return item :: (← flowItems fuel false)

/-- Reads a mapping of one entry that is an item of a flow sequence, after its key's mark.  Where the
key is absent, the token in its place is passed over. -/
def flowPair (fuel : Nat) : Step Node := do
  match fuel with
  | 0 => reject
  | fuel + 1 =>
    let key ←
      if ← nextIn [.value, .flowEntry, .closeFlowSequence] then
        skip
        pure absent
      else
        read fuel false false
    let value ←
      if (← next) = some .value then
        skip
        readUnless fuel [.flowEntry, .closeFlowSequence] false false
      else
        pure absent
    return .mapping none none [(key, value)]

/-- Reads the entries of a flow mapping and its end; every entry but the first follows a comma. -/
def flowEntries (fuel : Nat) (first : Bool) : Step (List (Node × Node)) := do
  match fuel with
  | 0 => reject
  | fuel + 1 =>
    if (← next) = some .closeFlowMapping then
      skip
      return []
    else
      if !first then expect .flowEntry
      match ← next with
      | some .closeFlowMapping =>
        skip
        return []
      | some .key =>
        skip
        let key ← readUnless fuel [.value, .flowEntry, .closeFlowMapping] false false
        let value ←
          if (← next) = some .value then
            skip
            readUnless fuel [.flowEntry, .closeFlowMapping] false false
          else
            pure absent
        return (key, value) :: (← flowEntries fuel false)
      | _ =>
        let key ← read fuel false false
        return (key, absent) :: (← flowEntries fuel false)

end

/-! ## Documents -/

/-- The handles that every document knows. -/
def commonHandles : List (List Char × Tag) :=
  [(['!'], Tag.lone), (['!', '!'], Tag.ofText "tag:yaml.org,2002:")]

/-- Reads the directives of a document: the handles they define, and the tokens after them. -/
def directives (seenVersion : Bool) (handles : List (List Char × Tag)) :
    List Token → Option (List (List Char × Tag) × List Token)
  | .version major minor :: rest =>
    if !seenVersion && major == 1 && (minor == 1 || minor == 2) then directives true handles rest
    else none
  | .handle handle meaning :: rest =>
    if handles.any (·.1 = handle) then none
    else directives seenVersion (handles ++ [(handle, meaning)]) rest
  | rest => some (handles, rest)

/-- Whether a token belongs to the frame of a document. -/
def isFrame : Option Token → Bool
  | none | some .documentStart | some .documentEnd | some (.version ..) | some (.handle ..) => true
  | _ => false

/-- Reads the node of a document whose frame has been read. -/
def content (handles : List (List Char × Tag)) (tokens : List Token) :
    Option (Node × List Token) := do
  let source : Source := { tokens, handles := handles ++ commonHandles }
  let (node, source) ← (read (8 * tokens.length + 16) true false).run source
  some (node, source.tokens)

/-- Reads a document: its directives, its mark and its node. -/
def document (tokens : List Token) : Option (Node × List Token) := do
  let (handles, rest) ← directives false [] tokens
  match rest with
  | .documentStart :: rest =>
    if isFrame rest.head? then some (absent, rest) else content handles rest
  | _ => if rest.length = tokens.length then content [] tokens else none

/-- The document of a stream: `some none` for a stream without one. -/
def ofTokens? (tokens : List Token) : Option (Option Node) :=
  if tokens.isEmpty then
    some none
  else do
    let (node, rest) ← document tokens
    if (rest.dropWhile (· = .documentEnd)).isEmpty then some (some node) else none

end Node

end RouteScaffold.Yaml
