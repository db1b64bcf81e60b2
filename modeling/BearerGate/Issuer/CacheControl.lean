import BearerGate.Text.Basic

namespace BearerGate.CacheControl

inductive Directive
  | forbid
  | maxAge (seconds : Option Nat)
  | other
  deriving DecidableEq, Repr

def trimQuotes (t : Text) : Text := Text.dropEndWhile (· = '"') (t.dropWhile (· = '"'))

def Directive.parse (t : Text) : Directive :=
  let t := Text.lower (Text.trim t)
  if t = "no-cache".toList ∨ t = "no-store".toList then .forbid
  else
    match Text.after? "max-age=" t with
    | some value => .maxAge (Text.word64? (trimQuotes value))
    | none => .other

/-- Reads the directives in order, with the age that the last `max-age` gave. -/
def age : Option Nat → List Directive → Option Nat
  | found, [] => found
  | _, .forbid :: _ => some 0
  | _, .maxAge seconds :: r => age seconds r
  | found, .other :: r => age found r

/-- For how many seconds a response may be kept: none at all when it must not be stored, nothing
when the header gives no hint. -/
def maxAge? (value : Text) : Option Nat := age none ((value.splitOn ',').map Directive.parse)

end BearerGate.CacheControl
