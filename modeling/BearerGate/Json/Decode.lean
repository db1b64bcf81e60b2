import BearerGate.Json.Build

namespace BearerGate.Raw

/-- Records are written as objects, or as arrays of their fields in the declared order. -/
structure Fields where
  values : List (Option Raw)
  positional : Bool

def only? (name : Text) : List (Text × Raw) → Option (Option Raw)
  | [] => some none
  | (k, v) :: r =>
    if k = name then (if r.any (·.1 = name) then none else some (some v)) else only? name r

/-- Names of members are always read, values only where they are asked for. -/
def names? : List (Bytes × Raw) → Option (List (Text × Raw))
  | [] => some []
  | (k, v) :: r =>
    match unquote? k, names? r with
    | some k, some r => some ((k, v) :: r)
    | _, _ => none

def fields? (names : List Text) : Raw → Option Fields
  | object members => do
    let members ← names? members
    let values ← names.mapM fun n => only? n members
    return ⟨values, false⟩
  | array items =>
    if items.length ≤ names.length then
      some ⟨items.map some ++ List.replicate (names.length - items.length) none, true⟩
    else none
  | _ => none

def text? : Raw → Option Text
  | string s => unquote? s
  | _ => none

def flag? : Raw → Option Bool
  | bool b => some b
  | _ => none

def integer? : Raw → Option Int
  | number s =>
    match numberValue? s with
    | some (.int n) => some n
    | _ => none
  | _ => none

def int64? (r : Raw) : Option Int := do
  let n ← integer? r
  if -(Word.half : Int) ≤ n ∧ n < Word.half then some n else none

def nat64? (r : Raw) : Option Nat := do
  let n ← integer? r
  if 0 ≤ n ∧ n < Word.size then some n.toNat else none

def list? {α : Type} (item? : Raw → Option α) : Raw → Option (List α)
  | array items => items.mapM item?
  | _ => none

def nullable? {α : Type} (value? : Raw → Option α) : Raw → Option (Option α)
  | null => some none
  | r => (value? r).map some

namespace Fields

variable {α : Type}

def raw? (f : Fields) (i : Nat) : Option Raw := (f.values[i]?).join

def required? (f : Fields) (i : Nat) (value? : Raw → Option α) : Option α :=
  (f.raw? i).bind value?

/-- A field that may be left out for `default`, but not be `null`. -/
def withDefault? (f : Fields) (i : Nat) (default : α) (value? : Raw → Option α) : Option α :=
  match f.raw? i with
  | none => some default
  | some r => value? r

def optional? (f : Fields) (i : Nat) (value? : Raw → Option α) : Option (Option α) :=
  f.withDefault? i none (nullable? value?)

end Fields

end BearerGate.Raw
