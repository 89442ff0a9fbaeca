import DocTemplate.Yaml.Token
/-!
Nodes of a YAML document, with the aliases in it still unresolved.
-/
namespace DocTemplate.Yaml

inductive Node where
  | alias (anchor : Nat)
  | scalar (anchor : Option Nat) (tag : Option String) (text : String) (plain : Bool)
  | sequence (anchor : Option Nat) (tag : Option String) (items : List Node)
  | mapping (anchor : Option Nat) (tag : Option String) (pairs : List (Node × Node))

/-- The node that stands where nothing is written. -/
def Node.empty : Node := .scalar none none "" true

/-- The tokens that are left, the numbers of the anchors named so far, and the handles of tags. -/
structure Reader where
  tokens : List Token
  anchors : List (String × Nat)
  handles : List (String × String)

namespace Reader

def skip (r : Reader) : Reader := { r with tokens := r.tokens.tail }

/-- Whether the next token is one of those given. -/
def isAt (r : Reader) (tokens : List Token) : Bool := r.tokens.head?.any tokens.contains

/-- Gives a number to an anchor: that of the distinct names before it, which may already be the
number of another one. -/
def name (r : Reader) (anchor : String) : Nat × Reader :=
  let id := r.anchors.length
  (id, { r with anchors := (anchor, id) :: r.anchors.filter (·.1 != anchor) })

structure Properties where
  anchor : Option String
  tag : Option (String × String)

/-- An anchor and a tag, in either order. -/
def properties (r : Reader) : Properties × Reader :=
  match r.tokens with
  | .anchor name :: .tag handle suffix :: _ => (⟨some name, some (handle, suffix)⟩, r.skip.skip)
  | .tag handle suffix :: .anchor name :: _ => (⟨some name, some (handle, suffix)⟩, r.skip.skip)
  | .anchor name :: _ => (⟨some name, none⟩, r.skip)
  | .tag handle suffix :: _ => (⟨none, some (handle, suffix)⟩, r.skip)
  | _ => (⟨none, none⟩, r)

/-- The full name of a tag. The handle must be known. -/
def tag? (r : Reader) : Option (String × String) → Option (Option String)
  | none => some none
  | some ("", suffix) => some (some suffix)
  | some (handle, suffix) => (r.handles.lookup handle).map fun start => some (start ++ suffix)

mutual

/-- The node at the next token. Outside of brackets it may be a block, and as a part of a mapping
also a sequence that is not indented. -/
def node? : (fuel : Nat) → (block indentless : Bool) → Reader → Option (Node × Reader)
  | 0, _, _, _ => none
  | fuel + 1, block, indentless, r =>
    match r.tokens with
    | .alias name :: _ => (r.anchors.lookup name).map fun id => (.alias id, r.skip)
    | _ =>
      let (properties, r) := r.properties
      let (anchor, r) := match properties.anchor with
        | none => (none, r)
        | some name =>
          let (id, r) := r.name name
          (some id, r)
      match r.tag? properties.tag with
      | none => none
      | some tag =>
        match r.tokens with
        | .blockEntry :: _ =>
          if indentless then (entries? fuel r).map fun (items, r) => (.sequence anchor tag items, r)
          else if anchor.isSome || tag.isSome then some (.scalar anchor tag "" true, r)
          else none
        | .scalar text plain :: _ =>
          some (.scalar anchor tag text plain, r.skip)
        | .flowSequenceStart :: _ =>
          (flowItems? fuel true r.skip).map fun (items, r) => (.sequence anchor tag items, r)
        | .flowMappingStart :: _ =>
          (flowPairs? fuel true r.skip).map fun (pairs, r) => (.mapping anchor tag pairs, r)
        | token :: _ =>
          if block && token == .sequenceStart then
            match entries? fuel r.skip with
            | some (items, r) =>
              if r.isAt [.blockEnd] then some (.sequence anchor tag items, r.skip) else none
            | none => none
          else if block && token == .mappingStart then
            (blockPairs? fuel r.skip).map fun (pairs, r) => (.mapping anchor tag pairs, r)
          else if anchor.isSome || tag.isSome then some (.scalar anchor tag "" true, r)
          else none
        | [] => none

/-- A node, or an empty one before a token that ends it. -/
def nodeUnless? : (fuel : Nat) → (ends : List Token) → (block indentless : Bool) →
    Reader → Option (Node × Reader)
  | 0, _, _, _, _ => none
  | fuel + 1, ends, block, indentless, r =>
    if r.isAt ends then some (.empty, r) else node? fuel block indentless r

/-- The items of a block sequence. -/
def entries? : (fuel : Nat) → Reader → Option (List Node × Reader)
  | 0, _ => none
  | fuel + 1, r =>
    if r.isAt [.blockEntry] then
      match nodeUnless? fuel [.blockEntry, .key, .value, .blockEnd] true false r.skip with
      | none => none
      | some (item, r) => (entries? fuel r).map fun (items, r) => (item :: items, r)
    else some ([], r)

/-- The value behind a key; without a colon it is empty. -/
def valueUnless? : (fuel : Nat) → (ends : List Token) → (block : Bool) →
    Reader → Option (Node × Reader)
  | 0, _, _, _ => none
  | fuel + 1, ends, block, r =>
    if r.isAt [.value] then nodeUnless? fuel ends block block r.skip else some (.empty, r)

/-- The pairs of a block mapping, up to its end. -/
def blockPairs? : (fuel : Nat) → Reader → Option (List (Node × Node) × Reader)
  | 0, _ => none
  | fuel + 1, r =>
    if r.isAt [.blockEnd] then some ([], r.skip)
    else if r.isAt [.key] then
      match nodeUnless? fuel [.key, .value, .blockEnd] true true r.skip with
      | none => none
      | some (key, r) =>
        match valueUnless? fuel [.key, .value, .blockEnd] true r with
        | none => none
        | some (value, r) =>
          (blockPairs? fuel r).map fun (pairs, r) => ((key, value) :: pairs, r)
    else none

/-- The items of a sequence in brackets, up to the closing one. A pair among them is a mapping. -/
def flowItems? : (fuel : Nat) → (first : Bool) → Reader → Option (List Node × Reader)
  | 0, _, _ => none
  | fuel + 1, first, r =>
    if r.isAt [.flowSequenceEnd] then some ([], r.skip)
    else if !first && !r.isAt [.flowEntry] then none
    else
      let r := if first then r else r.skip
      if r.isAt [.flowSequenceEnd] then some ([], r.skip)
      else
        match if r.isAt [.key] then flowPair? fuel r.skip else node? fuel false false r with
        | none => none
        | some (item, r) => (flowItems? fuel false r).map fun (items, r) => (item :: items, r)

/-- A single pair in a sequence. The token behind an empty key is passed over. -/
def flowPair? : (fuel : Nat) → Reader → Option (Node × Reader)
  | 0, _ => none
  | fuel + 1, r =>
    let found :=
      if r.isAt [.value, .flowEntry, .flowSequenceEnd] then some (.empty, r.skip)
      else node? fuel false false r
    match found with
    | none => none
    | some (key, r) =>
      (valueUnless? fuel [.flowEntry, .flowSequenceEnd] false r).map fun (value, r) =>
        (.mapping none none [(key, value)], r)

/-- The pairs of a mapping in braces, up to the closing one. -/
def flowPairs? : (fuel : Nat) → (first : Bool) → Reader → Option (List (Node × Node) × Reader)
  | 0, _, _ => none
  | fuel + 1, first, r =>
    if r.isAt [.flowMappingEnd] then some ([], r.skip)
    else if !first && !r.isAt [.flowEntry] then none
    else
      let r := if first then r else r.skip
      if r.isAt [.flowMappingEnd] then some ([], r.skip)
      else
        let found :=
          if r.isAt [.key] then
            match nodeUnless? fuel [.value, .flowEntry, .flowMappingEnd] false false r.skip with
            | none => none
            | some (key, r) =>
              (valueUnless? fuel [.flowEntry, .flowMappingEnd] false r).map fun (value, r) =>
                ((key, value), r)
          else (node? fuel false false r).map fun (key, r) => ((key, .empty), r)
        match found with
        | none => none
        | some (pair, r) => (flowPairs? fuel false r).map fun (pairs, r) => (pair :: pairs, r)

end

/-- Directives before a document: at most one version, which must be the first of the format, and
handles that differ. -/
def directives? (versionGiven : Bool) : List Token → List (String × String) →
    Option (List Token × List (String × String))
  | .version major minor :: more, handles =>
    if versionGiven || major != 1 || (minor != 1 && minor != 2) then none
    else directives? true more handles
  | .tagHandle handle start :: more, handles =>
    if (handles.lookup handle).isSome then none
    else directives? versionGiven more (handles ++ [(handle, start)])
  | tokens, handles =>
    some (tokens, handles ++ [("!", "!"), ("!!", "tag:yaml.org,2002:")])

/-- The content of the document at the next token, with the tokens behind it. No token takes more
than four steps. -/
def document? (r : Reader) : Option (Node × Reader) := do
  let fuel := 4 * r.tokens.length + 4
  let (tokens, handles) ← directives? false r.tokens []
  let explicit := tokens.length < r.tokens.length || r.isAt [.documentStart]
  let r := { r with tokens, handles }
  if explicit then do
    guard (r.isAt [.documentStart])
    let r := r.skip
    match r.tokens with
    | .version .. :: _ | .tagHandle .. :: _ => some (.empty, r)
    | _ => nodeUnless? fuel [.documentStart, .documentEnd, .streamEnd] true false r
  else node? fuel true false r

end Reader

/-- The content of the only document in a text. A text without any is empty. -/
def Node.ofText? (text : String) : Option Node := do
  let tokens ← Token.ofText? text
  if tokens == [.streamEnd] then some .empty
  else
    let (node, r) ← Reader.document? ⟨tokens, [], []⟩
    guard (r.tokens.dropWhile (· == .documentEnd) == [.streamEnd])
    some node

end DocTemplate.Yaml
