import BearerGate.Text.Basic

namespace BearerGate

/-- The running service; its URN is the audience and the role key of tokens meant for it. -/
structure Identity where
  space : Text
  name : Text
  deriving DecidableEq, Repr

namespace Identity

inductive Part
  | space
  | name
  deriving DecidableEq, Repr

inductive Fault
  | empty (part : Part)
  | colon (part : Part) (text : Text)
  | notUrn (text : Text)
  | noName (text : Text)
  deriving DecidableEq, Repr

def Part.label : Part → Text
  | .space => "namespace"
  | .name => "name"

def Fault.message (f : Fault) : Text :=
  "Invalid service identity: " ++
    match f with
    | .empty p => p.label ++ " is empty"
    | .colon p t => p.label ++ " '" ++ t ++ "' contains ':'"
    | .notUrn t => "'" ++ t ++ "' is not an urn:ads: id"
    | .noName t => "'" ++ t ++ "' has no service name"

def checkPart (p : Part) (t : Text) : Except Fault Text :=
  if t = [] then .error (.empty p)
  else if ':' ∈ t then .error (.colon p t)
  else .ok t

def make (space name : Text) : Except Fault Identity := do
  let space ← checkPart .space (Text.trim space)
  let name ← checkPart .name (Text.trim name)
  return ⟨space, name⟩

def urnStart : Text := "urn:ads:"

def urn (d : Identity) : Text := urnStart ++ d.space ++ ':' :: d.name

def parse (t : Text) : Except Fault Identity :=
  match Text.after? urnStart (Text.trim t) with
  | none => .error (.notUrn t)
  | some rest =>
    match Text.cut? ':' rest with
    | none => .error (.noName t)
    | some (space, name) => make space name

end Identity

end BearerGate
