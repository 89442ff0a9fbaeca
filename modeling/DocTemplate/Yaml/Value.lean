import DocTemplate.Decimal.Numeral
import DocTemplate.Json.Basic
import DocTemplate.Yaml.Node
/-!
The JSON values that YAML nodes stand for.
-/
namespace DocTemplate.Yaml

namespace Scalar

def isNull (text : String) : Bool := ["null", "Null", "NULL", "~"].contains text

def boolean? (text : String) : Option Bool :=
  if ["true", "True", "TRUE"].contains text then some true
  else if ["false", "False", "FALSE"].contains text then some false
  else none

/-- Digits that begin with a needless zero are text. -/
def isPadded (text : List Char) : Bool :=
  match (Decimal.splitSign text).2 with
  | '0' :: c :: rest => (c :: rest).all Char.isDigit
  | _ => false

/-- Digits in the base that the first two characters name. -/
def based? : List Char → Option Nat
  | '0' :: 'x' :: digits => Decimal.natural? 16 digits
  | '0' :: 'o' :: digits => Decimal.natural? 8 digits
  | '0' :: 'b' :: digits => Decimal.natural? 2 digits
  | _ => none

/-- An integer of at most 128 bits with an optional sign; longer ones are not integers. -/
def integer? (text : List Char) : Option Int :=
  let (negative, unsigned) := Decimal.splitSign text
  let magnitude := match based? unsigned with
    | some n => some n
    | none => if isPadded text then none else Decimal.natural? 10 unsigned
  magnitude.bind fun n =>
    if negative then if n ≤ Decimal.power 2 127 then some (-(n : Int)) else none
    else if n < Decimal.power 2 128 then some n
    else none

def specials (sign : String) : List String := [sign ++ ".inf", sign ++ ".Inf", sign ++ ".INF"]

/-- A float, as one of its names or as a numeral within the range of the format. -/
def float? (text : String) : Option Decimal.Double :=
  if (specials "").contains text || (specials "+").contains text then some (.infinite false)
  else if (specials "-").contains text then some (.infinite true)
  else if [".nan", ".NaN", ".NAN"].contains text then some .nan
  else
    match Decimal.Double.ofText? text with
    | some (.finite x) => some (.finite x)
    | _ => none

/-- What plain text stands for. An integer of more than 64 bits stands for nothing. -/
def plain? (text : String) : Option Json :=
  if text.isEmpty || isNull text then some .null
  else
    match boolean? text, integer? text.toList with
    | some value, _ => some (.boolean value)
    | none, some n => (Number.ofInt? n).map .number
    | none, none =>
      match if isPadded text.toList then none else float? text with
      | some value => some (.ofDouble value)
      | none => some (.string text)

/-- What text with a tag stands for. A tag that is not one of the format's own stands for
nothing. -/
def tagged? (tag text : String) : Option Json :=
  match tag with
  | "tag:yaml.org,2002:bool" => (boolean? text).map .boolean
  | "tag:yaml.org,2002:int" => ((integer? text.toList).bind Number.ofInt?).map .number
  | "tag:yaml.org,2002:float" => (float? text).map .ofDouble
  | "tag:yaml.org,2002:null" => if isNull text then some .null else none
  | _ => if tag.startsWith "!" then none else some (.string text)

end Scalar

namespace Node

mutual

/-- The number of places where a node begins or ends. -/
def marks : Node → Nat
  | .alias _ => 1
  | .scalar .. => 1
  | .sequence _ _ items => marksOfItems items + 2
  | .mapping _ _ pairs => marksOfPairs pairs + 2
termination_by structural node => node

def marksOfItems : List Node → Nat
  | [] => 0
  | item :: items => marks item + marksOfItems items
termination_by structural items => items

def marksOfPairs : List (Node × Node) → Nat
  | [] => 0
  | pair :: pairs => marksOfPair pair + marksOfPairs pairs
termination_by structural pairs => pairs

def marksOfPair : Node × Node → Nat
  | (key, value) => marks key + marks value
termination_by structural pair => pair

end

mutual

/-- The nodes with an anchor of this number, in the order in which they begin. -/
def anchored (anchor : Nat) : Node → List Node
  | .alias _ => []
  | .scalar own tag text plain => if own = some anchor then [.scalar own tag text plain] else []
  | .sequence own tag items =>
    (if own = some anchor then [.sequence own tag items] else []) ++ anchoredItems anchor items
  | .mapping own tag pairs =>
    (if own = some anchor then [.mapping own tag pairs] else []) ++ anchoredPairs anchor pairs
termination_by structural node => node

def anchoredItems (anchor : Nat) : List Node → List Node
  | [] => []
  | item :: items => anchored anchor item ++ anchoredItems anchor items
termination_by structural items => items

def anchoredPairs (anchor : Nat) : List (Node × Node) → List Node
  | [] => []
  | pair :: pairs => anchoredPair anchor pair ++ anchoredPairs anchor pairs
termination_by structural pairs => pairs

def anchoredPair (anchor : Nat) : Node × Node → List Node
  | (key, value) => anchored anchor key ++ anchored anchor value
termination_by structural pair => pair

end

/-- The node that an alias means, with the aliases that may still be followed. The last node with
the number counts, wherever it stands. -/
def follow? (root : Node) (left : Nat) : Node → Option (Node × Nat)
  | .alias anchor =>
    match left with
    | 0 => none
    | left + 1 => ((anchored anchor root).getLast?).map fun node => (node, left)
  | node => some (node, left)

/-- The text of a key. Only scalars are keys, and their tags do not count. -/
def keyText? (root : Node) (left : Nat) (node : Node) : Option (String × Nat) :=
  match follow? root left node with
  | some (.scalar _ _ text _, left) => some (text, left)
  | _ => none

def ownTag (tag : Option String) : Bool := tag.any (·.startsWith "!")

/-- The values of the items in a row, each with the aliases that those before it left. -/
def itemsWith (value : (left : Nat) → Node → Option (Json × Nat)) :
    (left : Nat) → List Node → Option (List Json × Nat)
  | left, [] => some ([], left)
  | left, item :: items =>
    match value left item with
    | none => none
    | some (json, left) =>
      (itemsWith value left items).map fun (values, left) => (json :: values, left)

/-- The fields of a mapping; of pairs with one key the last counts. -/
def pairsWith (root : Node) (value : (left : Nat) → Node → Option (Json × Nat)) :
    (left : Nat) → Entries Json none → List (Node × Node) → Option (Entries Json none × Nat)
  | left, fields, [] => some (fields, left)
  | left, fields, (key, content) :: pairs =>
    match keyText? root left key with
    | none => none
    | some (name, left) =>
      match value left content with
      | none => none
      | some (json, left) => pairsWith root value left (fields.insert name json) pairs

def scalarValue? (tag : Option String) (text : String) (plain : Bool) : Option Json :=
  match tag with
  | some tag => Scalar.tagged? tag text
  | none => if plain then Scalar.plain? text else some (.string text)

/-- The value of a node that nests at most `levels` levels deep, aliases included, with the
aliases that may still be followed. -/
def valueAt? (root : Node) : (levels left : Nat) → Node → Option (Json × Nat)
  | 0, left, node =>
    match follow? root left node with
    | some (.scalar _ tag text plain, left) =>
      (scalarValue? tag text plain).map fun value => (value, left)
    | _ => none
  | levels + 1, left, node =>
    match follow? root left node with
    | some (.scalar _ tag text plain, left) =>
      (scalarValue? tag text plain).map fun value => (value, left)
    | some (.sequence _ tag items, left) =>
      if ownTag tag then none
      else (itemsWith (valueAt? root levels) left items).map fun (values, left) =>
        (.array values, left)
    | some (.mapping _ tag pairs, left) =>
      if ownTag tag then none
      else (pairsWith root (valueAt? root levels) left .nil pairs).map fun (fields, left) =>
        (.object fields, left)
    | _ => none

end Node

/-- The value of a text with one document, which nests at most 128 levels deep. Aliases are
followed a hundred times as often as there are places where nodes begin or end. -/
def read? (text : String) : Option Json := do
  let node ← Node.ofText? text
  let (value, _) ← Node.valueAt? node 128 (100 * node.marks) node
  some value

end DocTemplate.Yaml
