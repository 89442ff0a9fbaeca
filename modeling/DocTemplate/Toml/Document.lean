import DocTemplate.Toml.Moment
import DocTemplate.Toml.Number
import DocTemplate.Toml.Table
import DocTemplate.Toml.Text
/-!
TOML documents and the JSON objects that they describe.
-/
namespace DocTemplate.Toml

/-- The object that stands for a date or a time. -/
def momentObject (text : String) : Json :=
  .object (.ofList [("$__toml_private_datetime", .string text)])

mutual

/-- The value at the front of the text, inside fewer than eighty lists and inline tables. -/
def valueAt : (fuel levels : Nat) → List Char → Option (Json × List Char)
  | 0, _, _ => none
  | fuel + 1, levels, text =>
    match text, levels with
    | '\x22' :: _, _ | '\x27' :: _, _ =>
      (string? text).map fun (text, rest) => (.string text, rest)
    | 't' :: 'r' :: 'u' :: 'e' :: rest, _ => some (.boolean true, rest)
    | 'f' :: 'a' :: 'l' :: 's' :: 'e' :: rest, _ => some (.boolean false, rest)
    | '[' :: _, 0 | '\x7b' :: _, 0 => none
    | '[' :: rest, levels + 1 =>
      (itemsAt fuel levels rest).map fun (items, rest) => (.array items, rest)
    | '\x7b' :: rest, levels + 1 =>
      match skipBlanks rest with
      | '\x7d' :: rest => some (.object .nil, rest)
      | rest => (fieldsAt fuel levels .nil rest).map fun (body, rest) =>
          (.object (Item.bodyFields body), rest)
    | _, _ =>
      if startsMoment text then (moment? text).map fun (moment, rest) => (momentObject moment, rest)
      else number? text

/-- The items of a list up to its closing bracket; the last may have a comma too. -/
def itemsAt : (fuel levels : Nat) → List Char → Option (List Json × List Char)
  | 0, _, _ => none
  | fuel + 1, levels, text =>
    match skipLines false text with
    | ']' :: rest => some ([], rest)
    | text =>
      match valueAt fuel levels text with
      | none => none
      | some (item, rest) =>
        match skipLines false rest with
        | ',' :: rest => (itemsAt fuel levels rest).map fun (items, rest) => (item :: items, rest)
        | ']' :: rest => some ([item], rest)
        | _ => none

/-- The fields of an inline table up to its closing brace, on one line. -/
def fieldsAt : (fuel levels : Nat) → Body → List Char → Option (Body × List Char)
  | 0, _, _, _ => none
  | fuel + 1, levels, body, text =>
    match key? text with
    | some (key, '=' :: rest) =>
      match valueAt fuel levels (skipBlanks rest) with
      | none => none
      | some (value, rest) =>
        match body.assign? value key, skipBlanks rest with
        | some body, ',' :: rest => fieldsAt fuel levels body rest
        | some body, '\x7d' :: rest => some (body, rest)
        | _, _ => none
    | _ => none

end

/-- The tables read so far, and the path of the header above the next line. -/
structure Draft where
  root : Body
  path : List String

namespace Draft

def openTable? (draft : Draft) (path : List String) : Option Draft := do
  let key ← path.getLast?
  let root ← Body.alter? (Body.openTable? key) draft.root path.dropLast
  some ⟨root, path⟩

def addTable? (draft : Draft) (path : List String) : Option Draft := do
  let key ← path.getLast?
  let root ← Body.alter? (Body.addTable? key) draft.root path.dropLast
  some ⟨root, path⟩

def assign? (draft : Draft) (key : List String) (value : Json) : Option Draft := do
  let root ← Body.alter? (fun body => body.assign? value key) draft.root draft.path
  some { draft with root }

/-- Reads one line: a header, a key with its value, or neither. -/
def line? (draft : Draft) (text : List Char) : Option (Draft × List Char) :=
  match text with
  | '[' :: '[' :: rest => do
    let (path, rest) ← key? rest
    match rest with
    | ']' :: ']' :: rest => return (← draft.addTable? path, ← lineEnd? rest)
    | _ => none
  | '[' :: rest => do
    let (path, rest) ← key? rest
    match rest with
    | ']' :: rest => return (← draft.openTable? path, ← lineEnd? rest)
    | _ => none
  | _ =>
    match lineEnd? text with
    | some rest => some (draft, rest)
    | none => do
      let (key, rest) ← key? text
      match rest with
      | '=' :: rest =>
        let (value, rest) ← valueAt (rest.length + 1) 79 (skipBlanks rest)
        return (← draft.assign? key value, ← lineEnd? rest)
      | _ => none

/-- Reads lines to the end. A line takes at least one character, so the length of the text is
fuel enough. -/
def lines? : (fuel : Nat) → Draft → List Char → Option Draft
  | _, draft, [] => some draft
  | 0, _, _ :: _ => none
  | fuel + 1, draft, text@(_ :: _) => do
    let (draft, rest) ← draft.line? (skipBlanks text)
    lines? fuel draft rest

end Draft

/-- The object that a document describes; a byte order mark may stand before it. -/
def read? (text : String) : Option (Entries Json none) :=
  let chars := match text.toList with
    | '\ufeff' :: rest => rest
    | chars => chars
  (Draft.lines? (chars.length + 1) ⟨.nil, []⟩ chars).map fun draft => Item.bodyFields draft.root

end DocTemplate.Toml
