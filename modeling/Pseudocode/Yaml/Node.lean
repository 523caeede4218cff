import Pseudocode.Yaml.Scan

/-!
# YAML documents

The tree that tokens spell. A text holds several documents at most, of which the first is read. A
part of it may have an anchor, and a reference stands for the part with its anchor that was read
last; a reference to a part that is not finished is kept as such.
-/

namespace Pseudocode.Yaml

/-- A part of a document. -/
inductive Node where
  /-- A text with its tag, which is empty if none was written. -/
  | scalar (tag : String) (plain : Bool) (text : String)
  | sequence (items : List Node)
  | mapping (entries : List (Node × Node))
  /-- A reference to an anchored part, or to one that contains the reference. -/
  | reference (name : String) (target : Option Node)

/-- A part for which nothing was written. -/
def Node.empty (tag : String := "") : Node :=
  .scalar tag true ""

/-- What is left to read and what was met before. -/
structure Reading where
  tokens : List Token
  /-- The anchored parts, last first, absent while they are read. -/
  anchors : List (String × Option Node) := []
  /-- What tag handles stand for. -/
  handles : List (String × String) := []

/-- The meanings of the two handles that every document has. -/
def standardHandles : List (String × String) :=
  [("!", "!"), ("!!", "tag:yaml.org,2002:")]

/-- A step of reading, which fails if the tokens spell no document. -/
abbrev Reader := StateT Reading Option

namespace Reader

/-- The next token. -/
def peek : Reader Token := do
  match (← get).tokens with
  | t :: _ => return t
  | [] => failure

/-- Passes over the next token. -/
def skip : Reader Unit :=
  modify fun r => { r with tokens := r.tokens.drop 1 }

/-- Whether the next token is one of some. -/
def sees (ts : List Token) : Reader Bool := do
  return ts.contains (← peek)

/-- Passes over the next token if it is the given one. -/
def skipIf (t : Token) : Reader Bool := do
  if (← peek) = t then
    skip
    return true
  else return false

/-- Passes over the next token, which must be the given one. -/
def expect (t : Token) : Reader Unit := do
  guard (← skipIf t)

/-- Declares an anchor. -/
def declare (anchor : String) (n : Option Node) : Reader Unit :=
  if anchor = "" then pure ()
  else modify fun r => { r with anchors := (anchor, n) :: r.anchors }

/-- An anchor, or the empty text. -/
def anchor : Reader String := do
  match ← peek with
  | .anchor name =>
    skip
    return name
  | _ => return ""

/-- A tag in full, or the empty text. -/
def tag : Reader String := do
  match ← peek with
  | .tag handle suffix =>
    skip
    if handle = "" then return suffix
    else
      match (← get).handles.find? (·.1 = handle) with
      | some (_, meaning) => return meaning ++ suffix
      | none => failure
  | _ => return ""

/-- The anchor and the tag in front of a part, in either order. -/
def properties : Reader (String × String) := do
  let early ← anchor
  let tag ← tag
  let late ← if early = "" then anchor else pure ""
  return (if early = "" then late else early, tag)

mutual

/-- A part of a document. Collections by indentation are read only outside of flow collections, and
a sequence that is indented no further than its key only as a value. -/
def node (fuel : Nat) (block indentless : Bool) : Reader Node :=
  match fuel with
  | 0 => failure
  | fuel + 1 => do
    match ← peek with
    | .reference name =>
      skip
      match (← get).anchors.find? (·.1 = name) with
      | some (_, target) => return .reference name target
      | none => failure
    | _ =>
      let (anchor, tag) ← properties
      match ← peek with
      | .scalar plain text =>
        skip
        let n := Node.scalar (if tag = "!" then "" else tag) plain text
        declare anchor n
        return n
      | t =>
        declare anchor none
        let n ←
          if t = .blockEntry && indentless then pure (Node.sequence (← indentlessItems fuel))
          else if t = .flowSequence then
            skip
            pure (Node.sequence (← flowItems fuel true))
          else if t = .flowMapping then
            skip
            pure (Node.mapping (← flowEntries fuel true))
          else if t = .blockSequence && block then
            skip
            pure (Node.sequence (← blockItems fuel))
          else if t = .blockMapping && block then
            skip
            pure (Node.mapping (← blockEntries fuel))
          else if anchor ≠ "" || tag ≠ "" then pure (Node.empty (if tag = "!" then "" else tag))
          else failure
        declare anchor n
        return n

/-- The items of a block sequence, with its end. -/
def blockItems (fuel : Nat) : Reader (List Node) :=
  match fuel with
  | 0 => failure
  | fuel + 1 => do
    if ← skipIf .blockEntry then
      let item ← if ← sees [.blockEntry, .blockEnd] then pure .empty else node fuel true false
      return item :: (← blockItems fuel)
    else
      expect .blockEnd
      return []

/-- The items of a sequence that is indented like the mapping around it. -/
def indentlessItems (fuel : Nat) : Reader (List Node) :=
  match fuel with
  | 0 => failure
  | fuel + 1 => do
    if ← skipIf .blockEntry then
      let item ←
        if ← sees [.blockEntry, .key, .value, .blockEnd] then pure .empty
        else node fuel true false
      return item :: (← indentlessItems fuel)
    else return []

/-- The entries of a block mapping, with its end. -/
def blockEntries (fuel : Nat) : Reader (List (Node × Node)) :=
  match fuel with
  | 0 => failure
  | fuel + 1 => do
    if ← skipIf .blockEnd then return []
    else
      expect .key
      let key ← blockPart fuel
      let value ← if ← skipIf .value then blockPart fuel else pure .empty
      return (key, value) :: (← blockEntries fuel)

/-- A key or a value of a block mapping. -/
def blockPart (fuel : Nat) : Reader Node :=
  match fuel with
  | 0 => failure
  | fuel + 1 => do
    if ← sees [.key, .value, .blockEnd] then return .empty else node fuel true true

/-- The items of a flow sequence, with its end. -/
def flowItems (fuel : Nat) (first : Bool) : Reader (List Node) :=
  match fuel with
  | 0 => failure
  | fuel + 1 => do
    if ← skipIf .flowSequenceEnd then return []
    else
      if !first then expect .flowEntry
      if ← skipIf .flowSequenceEnd then return []
      else
        let item ←
          if ← skipIf .key then
            let key ←
              if ← sees [.value, .flowEntry, .flowSequenceEnd] then
                skip
                pure .empty
              else node fuel false false
            let value ← flowValue fuel .flowSequenceEnd
            pure (.mapping [(key, value)])
          else node fuel false false
        return item :: (← flowItems fuel false)

/-- The value of an entry in a flow collection, if one is written. -/
def flowValue (fuel : Nat) (last : Token) : Reader Node :=
  match fuel with
  | 0 => failure
  | fuel + 1 => do
    if ← skipIf .value then
      if ← sees [.flowEntry, last] then return .empty else node fuel false false
    else return .empty

/-- The entries of a flow mapping, with its end. -/
def flowEntries (fuel : Nat) (first : Bool) : Reader (List (Node × Node)) :=
  match fuel with
  | 0 => failure
  | fuel + 1 => do
    if ← skipIf .flowMappingEnd then return []
    else
      if !first then expect .flowEntry
      if ← skipIf .flowMappingEnd then return []
      else if ← skipIf .key then
        let key ←
          if ← sees [.value, .flowEntry, .flowMappingEnd] then pure .empty
          else node fuel false false
        let value ← flowValue fuel .flowMappingEnd
        return (key, value) :: (← flowEntries fuel false)
      else
        let key ← node fuel false false
        return (key, .empty) :: (← flowEntries fuel false)

end

/-- The directives in front of a document: one version at most, which is 1.1, and the meanings of
handles, each given once. -/
def directives (fuel : Nat) (version : Bool) : Reader Unit :=
  match fuel with
  | 0 => failure
  | fuel + 1 => do
    match ← peek with
    | .version major minor =>
      guard (!version && major = 1 && minor = 1)
      skip
      directives fuel true
    | .handle name meaning =>
      guard !((← get).handles.any (·.1 = name))
      modify fun r => { r with handles := (name, meaning) :: r.handles }
      skip
      directives fuel version
    | _ => return ()

/-- The first document, with its end, or nothing if the text has none. -/
def document (fuel : Nat) : Reader (Option Node) := do
  if ← sees [.streamEnd] then return none
  else
    let start ← peek
    directives fuel false
    modify fun r => { r with handles := r.handles ++ standardHandles }
    let explicit ← skipIf .documentStart
    guard (explicit || start = (← peek))
    let n ←
      if explicit && (← sees [.documentStart, .documentEnd, .streamEnd]) then pure .empty
      else
        match explicit, ← peek with
        | true, .version _ _ | true, .handle _ _ => pure .empty
        | _, _ => node fuel true false
    let _ ← peek
    return some n

end Reader

/-- The first document of a text: `none` if the text cannot be read, `some none` if it holds none.
-/
def document? (s : String) : Option (Option Node) := do
  let tokens := scan (← characters? s)
  let (n, _) ← (Reader.document (4 * tokens.length + 4)).run { tokens }
  return n

end Pseudocode.Yaml
