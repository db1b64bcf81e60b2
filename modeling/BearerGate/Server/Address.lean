import BearerGate.Text.Basic

namespace BearerGate

structure Address where
  host : Text
  port : Nat
  deriving DecidableEq, Repr

namespace Address

def isOctet (t : Text) : Bool :=
  (t = ['0'] || t.head? ≠ some '0') && t.length ≤ 3 &&
    match Text.digits? t with
    | some n => n ≤ 255
    | none => false

def isQuad (t : Text) : Bool :=
  let parts := t.splitOn '.'
  parts.length = 4 && parts.all isOctet

def isGroup (t : Text) : Bool :=
  t ≠ [] && t.length ≤ 4 && t.all fun c => (Text.hexValue? c).isSome

/-- How many groups of sixteen bits the parts stand for; dotted octets may be the last part. -/
def groups? : List Text → Option Nat
  | [] => some 0
  | [t] => if isGroup t then some 1 else if isQuad t then some 2 else none
  | t :: r => if isGroup t then (groups? r).map (· + 1) else none

def side (t : Text) : List Text := if t = [] then [] else t.splitOn ':'

/-- Eight groups, or fewer around one gap, before which no dotted octets stand. -/
def isGrouped (t : Text) : Bool :=
  match Text.cutAt? "::" t with
  | none => groups? (t.splitOn ':') = some 8
  | some (head, tail) =>
    (side head).all isGroup &&
      match groups? (side tail) with
      | some n => (side head).length + n ≤ 7
      | none => false

def port? (t : Text) : Option Nat := do
  let n ← Text.digits? t
  if n < 65536 then some n else none

def parse? : Text → Option Address
  | '[' :: r => do
    let (host, rest) ← Text.cut? ']' r
    let port ← port? (← Text.after? ":" rest)
    if isGrouped host then some ⟨'[' :: host ++ [']'], port⟩ else none
  | t => do
    let (host, port) ← Text.cut? ':' t
    let port ← port? port
    if isQuad host then some ⟨host, port⟩ else none

end Address

end BearerGate
