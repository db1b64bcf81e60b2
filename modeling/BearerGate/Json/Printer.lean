import BearerGate.Json.Value

namespace BearerGate.Json

def escapeChar (c : Char) : Text :=
  if c = '"' then "\\\""
  else if c = '\\' then "\\\\"
  else if c.toNat = 8 then "\\b"
  else if c.toNat = 9 then "\\t"
  else if c.toNat = 10 then "\\n"
  else if c.toNat = 12 then "\\f"
  else if c.toNat = 13 then "\\r"
  else if c.toNat < 16 then "\\u000" ++ Text.hex c.toNat
  else if c.toNat < 32 then "\\u00" ++ Text.hex c.toNat
  else [c]

def quote (t : Text) : Text := '"' :: t.flatMap escapeChar ++ ['"']

mutual

def print : Json → Text
  | null => "null"
  | bool true => "true"
  | bool false => "false"
  | int n => Text.ofInt n
  | real x => x.print
  | string t => quote t
  | array [] => "[]"
  | array (v :: r) => '[' :: print v ++ printItems r
  | object [] => ['\x7b', '\x7d']
  | object ((k, v) :: r) => '\x7b' :: quote k ++ ':' :: print v ++ printMembers r

def printItems : List Json → Text
  | [] => "]"
  | v :: r => ',' :: print v ++ printItems r

def printMembers : List (Text × Json) → Text
  | [] => ['\x7d']
  | (k, v) :: r => ',' :: quote k ++ ':' :: print v ++ printMembers r

end

end BearerGate.Json
