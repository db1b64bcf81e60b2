import BearerGate.Text.Utf8

namespace BearerGate

/-- A JSON text after its grammar is checked and before any string or number is read: strings keep
their escapes, numbers their spelling, and members their order and repetitions. -/
inductive Raw
  | null
  | bool (b : Bool)
  | number (spelling : Bytes)
  | string (quoted : Bytes)
  | array (items : List Raw)
  | object (members : List (Bytes × Raw))
  deriving Repr, Inhabited

namespace Raw

def isSpace (b : UInt8) : Bool := b == 32 || b == 9 || b == 10 || b == 13

def skipSpace (s : Bytes) : Bytes := s.dropWhile isSpace

def after? (word : Bytes) (s : Bytes) : Option Bytes :=
  if word.isPrefixOf s then some (s.drop word.length) else none

def quoted? : Bytes → Option (Bytes × Bytes)
  | [] => none
  | 34 :: r => some ([], r)
  | 92 :: 117 :: a :: b :: c :: d :: r =>
    if Percent.isHexDigit a && Percent.isHexDigit b && Percent.isHexDigit c && Percent.isHexDigit d
    then (quoted? r).map fun p => (92 :: 117 :: a :: b :: c :: d :: p.1, p.2)
    else none
  | 92 :: e :: r =>
    if e == 34 || e == 92 || e == 47 || e == 98 || e == 102 || e == 110 || e == 114 || e == 116
    then (quoted? r).map fun p => (92 :: e :: p.1, p.2)
    else none
  | b :: r =>
    if b < 32 || b == 92 then none else (quoted? r).map fun p => (b :: p.1, p.2)

def isDigit (b : UInt8) : Bool := 48 ≤ b && b < 58

def digits (s : Bytes) : Bytes × Bytes := (s.takeWhile isDigit, s.dropWhile isDigit)

def whole? (s : Bytes) : Option (Bytes × Bytes) :=
  match digits s with
  | ([], _) => none
  | (48 :: _ :: _, _) => none
  | p => some p

def fraction? (s : Bytes) : Option (Bytes × Bytes) :=
  match s with
  | 46 :: r =>
    match digits r with
    | ([], _) => none
    | (ds, r) => some (46 :: ds, r)
  | _ => some ([], s)

def exponent? (s : Bytes) : Option (Bytes × Bytes) :=
  match s with
  | [] => some ([], [])
  | e :: r =>
    if e == 101 || e == 69 then
      let (sign, r) : Bytes × Bytes :=
        match r with
        | 43 :: r => ([43], r)
        | 45 :: r => ([45], r)
        | r => ([], r)
      match digits r with
      | ([], _) => none
      | (ds, r) => some (e :: (sign ++ ds), r)
    else some ([], s)

def number? (s : Bytes) : Option (Bytes × Bytes) := do
  let (sign, s) : Bytes × Bytes :=
    match s with
    | 45 :: r => ([45], r)
    | s => ([], s)
  let (ds, s) ← whole? s
  let (frac, s) ← fraction? s
  let (exp, s) ← exponent? s
  return (sign ++ ds ++ frac ++ exp, s)

mutual

/-- Reads one value and returns the rest. Each call takes one unit of fuel. -/
def value? : Nat → Bytes → Option (Raw × Bytes)
  | 0, _ => none
  | fuel + 1, s =>
    match skipSpace s with
    | [] => none
    | 34 :: r => (quoted? r).map fun p => (string p.1, p.2)
    | 91 :: r =>
      match skipSpace r with
      | 93 :: r => some (array [], r)
      | r => (items? fuel r).map fun p => (array p.1, p.2)
    | 123 :: r =>
      match skipSpace r with
      | 125 :: r => some (object [], r)
      | r => (members? fuel r).map fun p => (object p.1, p.2)
    | s =>
      match after? (Utf8.encode "null") s with
      | some r => some (null, r)
      | none =>
        match after? (Utf8.encode "true") s with
        | some r => some (bool true, r)
        | none =>
          match after? (Utf8.encode "false") s with
          | some r => some (bool false, r)
          | none => (number? s).map fun p => (number p.1, p.2)

def items? : Nat → Bytes → Option (List Raw × Bytes)
  | 0, _ => none
  | fuel + 1, s =>
    match value? fuel s with
    | none => none
    | some (v, r) =>
      match skipSpace r with
      | 44 :: r => (items? fuel r).map fun p => (v :: p.1, p.2)
      | 93 :: r => some ([v], r)
      | _ => none

def members? : Nat → Bytes → Option (List (Bytes × Raw) × Bytes)
  | 0, _ => none
  | fuel + 1, s =>
    match skipSpace s with
    | 34 :: r =>
      match quoted? r with
      | none => none
      | some (k, r) =>
        match skipSpace r with
        | 58 :: r =>
          match value? fuel r with
          | none => none
          | some (v, r) =>
            match skipSpace r with
            | 44 :: r => (members? fuel r).map fun p => ((k, v) :: p.1, p.2)
            | 125 :: r => some ([(k, v)], r)
            | _ => none
        | _ => none
    | _ => none

end

def parse? (s : Bytes) : Option Raw :=
  match value? (2 * s.length + 2) s with
  | some (v, r) => if skipSpace r = [] then some v else none
  | none => none

end Raw

end BearerGate
