import BearerGate.Text.Alphanumeric

namespace BearerGate.LogFilter.ValuePattern

inductive Escape
  | char (c : Char)
  | kind
  | place
  deriving DecidableEq, Repr

def control? (c : Char) : Option Char :=
  match c with
  | 'a' => some '\x07'
  | 'f' => some '\x0c'
  | 'n' => some '\n'
  | 'r' => some '\r'
  | 't' => some '\t'
  | 'v' => some '\x0b'
  | _ => none

def escape? : Text → Option (Escape × Text)
  | [] => none
  | c :: r =>
    if "dDsSwW".toList.contains c then some (.kind, r)
    else if c = 'p' || c = 'P' then
      match r with
      | k :: r => if "clmnpsz".toList.contains k.toLower then some (.kind, r) else none
      | [] => none
    else if c = 'A' || c = 'z' then some (.place, r)
    else
      match control? c, Text.escapeDigits? c with
      | some x, _ => some (.char x, r)
      | none, some n =>
        if (r.take n).length < n then none
        else (Text.codePoint? (r.take n)).map fun x => (.char x, r.drop n)
      | none, none =>
        if c.toNat < 128 && !c.isAlphanum && c ≠ '<' && c ≠ '>' then some (.char c, r) else none

def member? : Text → Option (Option Char × Text)
  | [] => none
  | '\\' :: r =>
    match escape? r with
    | some (.char c, r) => some (some c, r)
    | some (.kind, r) => some (none, r)
    | _ => none
  | c :: r => some (some c, r)

def classNames : List Text :=
  ["alnum", "alpha", "ascii", "blank", "cntrl", "digit", "graph", "lower", "print", "punct", "space",
    "upper", "word", "xdigit"]

def named? (t : Text) : Option Text := do
  let r ← Text.after? ":" t
  let (name, r) ← Text.cutAt? ":]" r
  if classNames.contains ((Text.after? "^" name).getD name) then some r else none

/-- What follows the beginning of a class: hyphens there, or else a closing bracket, are members. -/
def afterOpening (t : Text) : Text :=
  let t := (Text.after? "^" t).getD t
  match t with
  | ']' :: r => r
  | t => t.dropWhile (· = '-')

/-- Reads the members of a class, with `depth` classes around it, up to the last closing bracket.
Each call takes one unit of fuel. -/
def members? : Nat → Nat → Text → Option Text
  | 0, _, _ => none
  | _, _, [] => none
  | _ + 1, 0, ']' :: r => some r
  | fuel + 1, depth + 1, ']' :: r => members? fuel depth r
  | fuel + 1, depth, '[' :: r =>
    match named? r with
    | some r => members? fuel depth r
    | none => members? fuel (depth + 1) (afterOpening r)
  | fuel + 1, depth, '&' :: '&' :: r => members? fuel depth r
  | fuel + 1, depth, '-' :: '-' :: r => members? fuel depth r
  | fuel + 1, depth, '~' :: '~' :: r => members? fuel depth r
  | fuel + 1, depth, t =>
    match member? t with
    | none => none
    | some (_, '-' :: ']' :: r) => members? fuel depth ('-' :: ']' :: r)
    | some (_, '-' :: '-' :: r) => members? fuel depth ('-' :: '-' :: r)
    | some (low, '-' :: r) =>
      match low, member? r with
      | some a, some (some b, r) => if a ≤ b then members? fuel depth r else none
      | _, _ => none
    | some (_, r) => members? fuel depth r

def isGroupName : Text → Bool
  | [] => false
  | c :: r =>
    (c = '_' || (Text.isAlphanumeric c && !c.isDigit)) &&
      r.all fun c => c = '_' || c = '.' || c = '[' || c = ']' || Text.isAlphanumeric c

/-- Whether letters set flags: each at most once, with at most one minus sign, which is not the last. -/
def areFlags (t : Text) : Bool :=
  t.all ("imsUuxR-".toList.contains ·) && t.Nodup && t.getLast? ≠ some '-'

def group? (t : Text) : Option (Bool × Text) :=
  match Text.after? "?" t with
  | none => some (true, t)
  | some r =>
    match (Text.after? "P<" r).or (Text.after? "<" r) with
    | some r => (Text.cut? '>' r).bind fun (name, r) => if isGroupName name then some (true, r) else none
    | none =>
      let flags := r.takeWhile fun c => c ≠ ':' && c ≠ ')'
      if !areFlags flags then none
      else
        match r.drop flags.length with
        | ':' :: r => some (true, r)
        | ')' :: r => if flags = [] then none else some (false, r)
        | _ => none

/-- Checks a pattern with `depth` groups open; `full` says that something stands before that can be
repeated. Each call takes one unit of fuel. -/
def check : Nat → Nat → Bool → Text → Bool
  | 0, _, _, _ => false
  | _ + 1, depth, _, [] => depth = 0
  | fuel + 1, depth, full, c :: r =>
    if c = '(' then
      match group? r with
      | some (true, r) => check fuel (depth + 1) false r
      | some (false, r) => check fuel depth false r
      | none => false
    else if c = ')' then depth ≠ 0 && check fuel (depth - 1) true r
    else if c = '|' then check fuel depth false r
    else if c = '[' then
      match members? (r.length + 1) 0 (afterOpening r) with
      | some r => check fuel depth true r
      | none => false
    else if c = '\\' then
      match escape? r with
      | some (_, r) => check fuel depth true r
      | none => false
    else if c = '?' || c = '*' || c = '+' then
      full && check fuel depth true ((Text.after? "?" r).getD r)
    else c ≠ '{' && check fuel depth true r

def isPattern (t : Text) : Bool := check (t.length + 1) 0 false t

def isNumber (t : Text) : Bool :=
  ["inf".toList, "infinity".toList, "nan".toList].contains (Text.lower t) ||
    let whole := t.takeWhile Char.isDigit
    let r := t.dropWhile Char.isDigit
    let point := Text.after? "." r
    let frac := (point.getD []).takeWhile Char.isDigit
    let exponent := (point.getD r).drop frac.length
    (whole ≠ [] || frac ≠ []) &&
      match exponent with
      | [] => true
      | e :: r =>
        (e = 'e' || e = 'E') &&
          (Text.digits? (((Text.after? "+" r).or (Text.after? "-" r)).getD r)).isSome

/-- A value is a pattern, or a number, which alone may begin with a plus sign. A pattern has no counted
repetition, because a value holds neither a comma nor a closing brace. -/
def isValue (t : Text) : Bool := isPattern t || (Text.after? "+" t).any isNumber

end BearerGate.LogFilter.ValuePattern
