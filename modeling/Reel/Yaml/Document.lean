import Reel.Yaml.Node
import Reel.Yaml.Token

/-!
# YAML documents

The node of a text that holds one document: mappings and sequences in block and in flow style,
and scalars. What is left out between two indicators is an empty scalar. The text is read to its
end before any value is made of it.
-/
namespace Reel.Yaml

private abbrev Parsed := Except Fault (Node × List Placed)

/-- Stops at a token, inside of something that began at a place. -/
private def stopAt {α : Type} (context : String) (start : Option Mark) (wanted : String)
    (found : Placed) : Except Fault α :=
  .error (.malformed
    { context, contextMark := start, problem := wanted ++ found.1.name, mark := found.2 })

private def blockWanted : String := "expected <block end>, but found "

private def nodeWanted : String := "expected the node content, but found "

/-- The first token. Where the rest of the text cannot be cut, no reader goes on. -/
def first : List Placed → Except Fault Placed
  | [] => .ok (.streamEnd, ⟨0, 0⟩)
  | (.broken cause, _) :: _ => .error cause
  | token :: _ => .ok token

private def absent (mark : Mark) : Node := .scalar mark "" true

mutual

/-- The node that begins here. `inMapping` allows a sequence that is not indented further. -/
private def node : Nat → (style : String) → (inMapping : Bool) → List Placed → Parsed
  | 0, style, _, tokens => do
    stopAt ("while parsing a " ++ style ++ " node") none nodeWanted (← first tokens)
  | fuel + 1, style, inMapping, tokens => do
    let (token, mark) ← first tokens
    let rest := tokens.drop 1
    match token, inMapping with
    | .scalar text plain, _ => return (.scalar mark text plain, rest)
    | .sequenceStart, _ => blockItems fuel mark false [] rest
    | .mappingStart, _ => blockEntries fuel mark [] rest
    | .flowSequenceStart, _ => flowItems fuel mark true [] rest
    | .flowMappingStart, _ => flowEntries fuel mark true [] rest
    | .entry, true => blockItems fuel mark true [] tokens
    | token, _ => stopAt ("while parsing a " ++ style ++ " node") mark nodeWanted (token, mark)

/-- A node, or an empty scalar where none begins: before one of some tokens. -/
private def nodeUnless (fuel : Nat) (style : String) (inMapping : Bool) (ends : Token → Bool)
    (tokens : List Placed) : Parsed := do
  let (token, mark) ← first tokens
  match fuel with
  | 0 => return (absent mark, tokens)
  | fuel + 1 =>
    if ends token then return (absent mark, tokens) else node fuel style inMapping tokens

/-- The items of a block sequence. One inside a mapping ends where no further dash follows. -/
private def blockItems : Nat → Mark → (inMapping : Bool) → List Node → List Placed → Parsed
  | 0, start, _, items, tokens => .ok (.sequence start items, tokens)
  | fuel + 1, start, inMapping, items, tokens => do
    let (token, mark) ← first tokens
    match token with
    | .entry =>
      let ends : Token → Bool := fun
        | .entry | .blockEnd => true
        | .key | .value => inMapping
        | _ => false
      let (item, rest) ← nodeUnless fuel "block" false ends (tokens.drop 1)
      blockItems fuel start inMapping (items ++ [item]) rest
    | token =>
      if inMapping then return (.sequence start items, tokens)
      else if token = .blockEnd then return (.sequence start items, tokens.drop 1)
      else stopAt "while parsing a block collection" start blockWanted (token, mark)

private def blockEntries : Nat → Mark → List (Node × Node) → List Placed → Parsed
  | 0, start, entries, tokens => .ok (.mapping start entries, tokens)
  | fuel + 1, start, entries, tokens => do
    let ends : Token → Bool := fun
      | .key | .value | .blockEnd => true
      | _ => false
    match ← first tokens with
    | (.key, _) =>
      let (key, rest) ← nodeUnless fuel "block" true ends (tokens.drop 1)
      let (token, mark) ← first rest
      let (value, rest) ←
        if token = .value then nodeUnless fuel "block" true ends (rest.drop 1)
        else pure (absent mark, rest)
      blockEntries fuel start (entries ++ [(key, value)]) rest
    | (.blockEnd, _) => return (.mapping start entries, tokens.drop 1)
    | found => stopAt "while parsing a block mapping" start blockWanted found

/-- The key and value behind a key mark in a flow collection that ends with the given token. -/
private def flowPair : Nat → (closing : Token) → List Placed →
    Except Fault ((Node × Node) × List Placed)
  | 0, _, tokens => do
    let (_, mark) ← first tokens
    return ((absent mark, absent mark), tokens)
  | fuel + 1, closing, tokens => do
    let ends (token : Token) : Bool := token == .flowEntry || token == closing
    let (key, rest) ←
      nodeUnless fuel "flow" false (fun token => ends token || token == .value) tokens
    let (token, mark) ← first rest
    let (value, rest) ←
      if token = .value then nodeUnless fuel "flow" false ends (rest.drop 1)
      else pure (absent mark, rest)
    return ((key, value), rest)

/-- The items of a flow sequence; a key among them makes a mapping of one entry. -/
private def flowItems : Nat → Mark → (isFirst : Bool) → List Node → List Placed → Parsed
  | 0, start, _, items, tokens => .ok (.sequence start items, tokens)
  | fuel + 1, start, isFirst, items, tokens => do
    let found ← first tokens
    if found.1 = .flowSequenceEnd then return (.sequence start items, tokens.drop 1)
    else
      let tokens ← if isFirst then pure tokens
        else if found.1 = .flowEntry then pure (tokens.drop 1)
        else stopAt "while parsing a flow sequence" start "expected ',' or ']', but got " found
      match ← first tokens with
      | (.key, mark) =>
        let (entry, rest) ← flowPair fuel .flowSequenceEnd (tokens.drop 1)
        flowItems fuel start false (items ++ [.mapping mark [entry]]) rest
      | (.flowSequenceEnd, _) => return (.sequence start items, tokens.drop 1)
      | _ =>
        let (item, rest) ← node fuel "flow" false tokens
        flowItems fuel start false (items ++ [item]) rest

/-- The entries of a flow mapping; a node without a colon is a key without a value. -/
private def flowEntries : Nat → Mark → (isFirst : Bool) → List (Node × Node) → List Placed →
    Parsed
  | 0, start, _, entries, tokens => .ok (.mapping start entries, tokens)
  | fuel + 1, start, isFirst, entries, tokens => do
    let found ← first tokens
    if found.1 = .flowMappingEnd then return (.mapping start entries, tokens.drop 1)
    else
      let tokens ← if isFirst then pure tokens
        else if found.1 = .flowEntry then pure (tokens.drop 1)
        else stopAt "while parsing a flow mapping" start "expected ',' or '\x7d', but got " found
      match ← first tokens with
      | (.key, _) =>
        let (entry, rest) ← flowPair fuel .flowMappingEnd (tokens.drop 1)
        flowEntries fuel start false (entries ++ [entry]) rest
      | (.flowMappingEnd, _) => return (.mapping start entries, tokens.drop 1)
      | _ =>
        let (key, rest) ← node fuel "flow" false tokens
        let (_, mark) ← first rest
        flowEntries fuel start false (entries ++ [(key, absent mark)]) rest

end

def skipEnds : List Placed → List Placed
  | (.documentEnd, _) :: rest => skipEnds rest
  | tokens => tokens

/-- The node of the one document among the tokens, if there is a document. -/
def document (tokens : List Placed) : Except Fault (Option Node) := do
  let fuel := 2 * tokens.length + 2
  let (token, _) ← first tokens
  if token = .streamEnd then return none
  else
    let ends : Token → Bool := fun
      | .streamEnd | .documentStart | .documentEnd => true
      | _ => false
    let (root, rest) ←
      if token = .documentStart then nodeUnless fuel "block" false ends (tokens.drop 1)
      else node fuel "block" false tokens
    match ← first (skipEnds rest) with
    | (.streamEnd, _) => return some root
    | (.documentStart, mark) => .error (.malformed
        { context := "expected a single document in the stream", contextMark := root.mark
          problem := "but found another document", mark })
    | found => stopAt "" none "expected '<document start>', but found " found

def plainBreaks : List Char → List Char
  | '\r' :: '\n' :: rest => '\n' :: plainBreaks rest
  | '\r' :: rest => '\n' :: plainBreaks rest
  | c :: rest => c :: plainBreaks rest
  | [] => []

/-- The value of the document among the tokens; no document is an absent value. -/
def documentValue (tokens : List Placed) : Except Fault Value := do
  match ← document tokens with
  | some root => root.toValue
  | none => return .null

def read (source s : String) : Except Fault Value :=
  match (tokens (plainBreaks s.toList)).bind documentValue with
  | .error (.malformed problem) => .error (.malformed { problem with source })
  | outcome => outcome

end Reel.Yaml
