import BearerGate.Config.Environment
import BearerGate.LogFilter.ValuePattern

namespace BearerGate.LogFilter

def isLevel (t : Text) : Bool :=
  match Text.digits? ((Text.after? "+" t).getD t) with
  | some n => n ≤ 5
  | none =>
    [[], "off".toList, "error".toList, "warn".toList, "info".toList, "debug".toList,
      "trace".toList].contains (Text.lower t)

inductive Ending
  | bare
  | level (t : Text)
  deriving DecidableEq, Repr

def afterSpan? : Text → Option Ending
  | [] => some .bare
  | '=' :: level => some (.level level)
  | _ => none

def isField (t : Text) : Bool :=
  t ≠ [] &&
    match t.splitOn '=' with
    | _ :: value :: _ => ValuePattern.isValue value
    | _ => true

def span? (t : Text) : Option Ending :=
  match t.dropWhile fun c => c ≠ ']' && c ≠ '\x7b' with
  | ']' :: r => afterSpan? r
  | '\x7b' :: r => do
    let (field, r) ← Text.cut? '\x7d' r
    if !isField field then none
    match r with
    | ']' :: r => afterSpan? r
    | _ => none
  | _ => none

/-- Reads a directive without blanks around it: a level or a target, a target with its level, or a
span behind a target, which may be left out. -/
def directive? : Text → Option Ending
  | [] => none
  | '[' :: r => span? r
  | c :: r =>
    if !(c = '-' || c = ':' || c = '_' || Text.isAlphanumeric c) then none
    else
      match r.dropWhile fun c => c ≠ '=' && c ≠ '[' with
      | '=' :: level => some (.level level)
      | '[' :: r => span? r
      | _ => some .bare

/-- Blanks may stand around a directive only when it has no level of its own. -/
def isDirective (t : Text) : Bool :=
  match directive? (Text.trim t) with
  | none => false
  | some .bare => true
  | some (.level level) => Text.trim t = t && isLevel level

def isValid (filter : Text) : Bool := ((filter.splitOn ',').filter (· ≠ [])).all isDirective

def variableName : Text := "RUST_LOG"

/-- The filter in force: that of the variable when it is a valid one, else the given level. -/
def choose? (env : Environment) (level : Text) : Option Text :=
  match (env.lookup variableName).filter isValid with
  | some f => some f
  | none => if isValid level then some level else none

def complaint (level : Text) : Text := "Invalid log filter '" ++ level ++ "'"

end BearerGate.LogFilter
