import BearerGate.Json.Binary64

namespace BearerGate

/-- Numbers without fraction or exponent that fit 64 bits are integers; all others are rounded. -/
inductive Json
  | null
  | bool (b : Bool)
  | int (n : Int)
  | real (x : Binary64)
  | string (t : Text)
  | array (items : List Json)
  | object (members : List (Text × Json))
  deriving Repr, Inhabited

namespace Json

mutual

def decEq : (a b : Json) → Decidable (a = b)
  | null, null => isTrue rfl
  | bool a, bool b => decidable_of_iff (a = b) (by simp)
  | int a, int b => decidable_of_iff (a = b) (by simp)
  | real a, real b => decidable_of_iff (a = b) (by simp)
  | string a, string b => decidable_of_iff (a = b) (by simp)
  | array a, array b => have := decEqItems a b; decidable_of_iff (a = b) (by simp)
  | object a, object b => have := decEqMembers a b; decidable_of_iff (a = b) (by simp)
  | null, bool _ | null, int _ | null, real _ | null, string _ | null, array _ | null, object _
  | bool _, null | bool _, int _ | bool _, real _ | bool _, string _ | bool _, array _
  | bool _, object _
  | int _, null | int _, bool _ | int _, real _ | int _, string _ | int _, array _ | int _, object _
  | real _, null | real _, bool _ | real _, int _ | real _, string _ | real _, array _
  | real _, object _
  | string _, null | string _, bool _ | string _, int _ | string _, real _ | string _, array _
  | string _, object _
  | array _, null | array _, bool _ | array _, int _ | array _, real _ | array _, string _
  | array _, object _
  | object _, null | object _, bool _ | object _, int _ | object _, real _ | object _, string _
  | object _, array _ => isFalse (by simp)

def decEqItems : (a b : List Json) → Decidable (a = b)
  | [], [] => isTrue rfl
  | [], _ :: _ | _ :: _, [] => isFalse (by simp)
  | a :: r, b :: s =>
    have := decEq a b
    have := decEqItems r s
    decidable_of_iff (a = b ∧ r = s) (by simp)

def decEqMembers : (a b : List (Text × Json)) → Decidable (a = b)
  | [], [] => isTrue rfl
  | [], _ :: _ | _ :: _, [] => isFalse (by simp)
  | (k, a) :: r, (l, b) :: s =>
    have := decEq a b
    have := decEqMembers r s
    decidable_of_iff (k = l ∧ a = b ∧ r = s) (by simp [and_assoc])

end

instance : DecidableEq Json := decEq

def member? (name : Text) : Json → Option Json
  | object members => members.lookup name
  | _ => none

def asText? : Json → Option Text
  | string t => some t
  | _ => none

def items : Json → List Json
  | array items => items
  | _ => []

def byName (members : List (Text × Json)) : List (Text × Json) := members.mergeSort fun a b => a.1.precedes b.1

mutual

def sorted : Json → Json
  | null => null
  | bool b => bool b
  | int n => int n
  | real x => real x
  | string t => string t
  | array items => array (sortedItems items)
  | object members => object (byName (sortedMembers members))

def sortedItems : List Json → List Json
  | [] => []
  | v :: r => sorted v :: sortedItems r

def sortedMembers : List (Text × Json) → List (Text × Json)
  | [] => []
  | (k, v) :: r => (k, sorted v) :: sortedMembers r

end

end Json

end BearerGate
