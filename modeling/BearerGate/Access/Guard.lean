import BearerGate.Access.Pattern
import BearerGate.Text.Utf8

namespace BearerGate

namespace Path

/-- Characters that no router treats alike; a decoded path with one of them has no normal form. -/
def isForbidden (c : Char) : Bool := c = '%' || c = '\\' || c = ';' || c = '\x00'

/-- Walks the segments with the kept ones on a stack; fails when `..` climbs above the root. -/
def resolve? : List Text → List Text → Option (List Text)
  | kept, [] => some kept.reverse
  | kept, s :: rest =>
    if s = [] ∨ s = ['.'] then resolve? kept rest
    else if s = ['.', '.'] then
      match kept with
      | [] => none
      | _ :: kept => resolve? kept rest
    else resolve? (s :: kept) rest

def render (segments : List Text) : Text := '/' :: ['/'].intercalate segments

def normalize? (raw : Text) : Option Text := do
  let decoded ← Utf8.decode? (Percent.decode raw)
  if decoded.any isForbidden then none
  else (resolve? [] (decoded.splitOn '/')).map render

end Path

inductive Decision
  | readable
  | authenticate
  | free
  deriving DecidableEq, Repr

structure Guard where
  api : List Pattern
  readable : List Pattern
  deriving DecidableEq, Repr

namespace Guard

def ofPatterns (api readable : List Text) : Guard := ⟨api.map Pattern.parse, readable.map Pattern.parse⟩

def isRead (method : Text) : Bool :=
  Text.lower method == "get".toList || Text.lower method == "head".toList

def pathPart (target : Text) : Text := target.takeWhile fun c => c ≠ '?' && c ≠ '#'

def decide (g : Guard) (method target : Text) : Decision :=
  match Path.normalize? (pathPart target) with
  | none => .authenticate
  | some path =>
    if isRead method && g.readable.any (·.accepts path) then .readable
    else if g.api.any (·.accepts path) then .authenticate
    else .free

end Guard

def bearerToken? (authorization : Option Text) : Option Text := do
  let (scheme, token) ← Text.cut? ' ' (Text.trim (← authorization))
  if Text.lower scheme ≠ "bearer".toList then none
  else if Text.trim token = [] then none
  else some (Text.trim token)

end BearerGate
