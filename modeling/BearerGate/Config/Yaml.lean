import BearerGate.Config.Decode
import BearerGate.Yaml.Node

namespace BearerGate.Yaml.Node

def text? : Node → Option Text
  | scalar t _ _ => some t
  | _ => none

def coreTag (name : Text) : Text := "tag:yaml.org,2002:" ++ name

/-- The text of a scalar that may be read as a value of a kind: a plain one, or a literal block with
the tag of that kind. -/
def typed? (kind : Text) : Node → Option Text
  | scalar t .plain _ => some t
  | scalar t .literal (some tag) => if tag = coreTag kind then some t else none
  | _ => none

def flag? (v : Node) : Option Bool := do
  let t ← v.typed? "bool"
  if ["true".toList, "True".toList, "TRUE".toList].contains t then some true
  else if ["false".toList, "False".toList, "FALSE".toList].contains t then some false
  else none

def nullWords : List Text := ["~", "null", "Null", "NULL"]

/-- Whether a value stands for none. One with the tag of `null` has to be written so. -/
def absent? : Node → Option Bool
  | scalar t .plain none => some (t = [] || nullWords.contains t)
  | scalar t .plain (some tag) =>
    if tag ≠ coreTag "null" then some false
    else if nullWords.contains t then some true
    else none
  | _ => some false

def digits? (base : Nat) (t : Text) : Option Nat := do
  if t = [] then none
  let values ← t.mapM Text.hexValue?
  let n := values.foldl (fun n d => base * n + d) 0
  if values.all (· < base) ∧ n < Word.size then some n else none

/-- Decimal digits without a leading zero, or those of another base behind its mark; a plus sign may
come first. -/
def nat? (v : Node) : Option Nat := do
  let t ← v.typed? "int"
  match (Text.after? "+" t).getD t with
  | '0' :: 'x' :: r => digits? 16 r
  | '0' :: 'o' :: r => digits? 8 r
  | '0' :: 'b' :: r => digits? 2 r
  | '0' :: _ :: _ => none
  | r => digits? 10 r

def items? : Node → Option (List Node)
  | sequence items => some items
  | scalar [] .plain _ => some []
  | _ => none

def entries? : Node → Option (List (Text × Node))
  | mapping entries => entries.mapM fun (k, v) => k.text?.map (·, v)
  | scalar [] .plain _ => some []
  | _ => none

def only? (name : Text) : List (Text × Node) → Option (Option Node)
  | [] => some none
  | (k, v) :: r =>
    if k = name then (if r.any (·.1 = name) then none else some (some v)) else only? name r

def fields? (names : List Text) (v : Node) : Option (List (Option Node)) := do
  let entries ← v.entries?
  names.mapM fun n => only? n entries

end BearerGate.Yaml.Node

namespace BearerGate

def Spelling.yaml : Spelling Yaml.Node where
  fields? := Yaml.Node.fields?
  items? := Yaml.Node.items?
  entries? := Yaml.Node.entries?
  text? := Yaml.Node.text?
  nat? := Yaml.Node.nat?
  flag? := Yaml.Node.flag?
  absent? := Yaml.Node.absent?

end BearerGate
