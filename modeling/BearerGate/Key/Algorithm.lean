import BearerGate.Text.Basic

namespace BearerGate

inductive Algorithm
  | hs256
  | hs384
  | hs512
  | es256
  | es384
  | rs256
  | rs384
  | rs512
  | ps256
  | ps384
  | ps512
  | edDSA
  deriving DecidableEq, Repr

namespace Algorithm

def all : List Algorithm :=
  [hs256, hs384, hs512, es256, es384, rs256, rs384, rs512, ps256, ps384, ps512, edDSA]

def name : Algorithm → Text
  | hs256 => "HS256"
  | hs384 => "HS384"
  | hs512 => "HS512"
  | es256 => "ES256"
  | es384 => "ES384"
  | rs256 => "RS256"
  | rs384 => "RS384"
  | rs512 => "RS512"
  | ps256 => "PS256"
  | ps384 => "PS384"
  | ps512 => "PS512"
  | edDSA => "EdDSA"

def named? (t : Text) : Option Algorithm := all.find? (·.name = t)

def isSymmetric : Algorithm → Bool
  | hs256 | hs384 | hs512 => true
  | _ => false

def asymmetric? (t : Text) : Option Algorithm := (named? t).filter (!·.isSymmetric)

end Algorithm

end BearerGate
