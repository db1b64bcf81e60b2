import BearerGate.Text.Basic

namespace BearerGate

namespace Pattern

inductive Token
  | lit (c : Char)
  | one
  | run
  | any
  deriving DecidableEq, Repr

def Token.accepts : Token → Char → Bool
  | .lit d, c => c = d
  | .one, c | .run, c => c ≠ '/'
  | .any, c => c ≠ '\n'

def Token.repeats : Token → Bool
  | .run | .any => true
  | .lit _ | .one => false

def Token.scan : Text → List Token
  | [] => []
  | '*' :: '*' :: r => .any :: scan r
  | '*' :: r => .run :: scan r
  | '?' :: r => .one :: scan r
  | c :: r => .lit c :: scan r

inductive Tail
  | none
  | deeper
  deriving DecidableEq, Repr

def Tail.accepts : Tail → Text → Bool
  | _, [] => true
  | .none, _ :: _ => false
  | .deeper, c :: r => c = '/' && r.all (· ≠ '\n')

end Pattern

/-- A path pattern: `?` is a character of a segment, `*` a run of them, `**` a run across segments,
and a final `/**` also admits the bare path before it. -/
structure Pattern where
  tokens : List Pattern.Token
  tail : Pattern.Tail
  deriving DecidableEq, Repr

namespace Pattern

def parse (source : Text) : Pattern :=
  match Text.before? "/**" source with
  | some body => ⟨Token.scan body, .deeper⟩
  | none => ⟨Token.scan source, .none⟩

/-- `next` says of every suffix of the path, longest first, whether the tokens after `t` match it;
the result says the same of `t` and the tokens after it. -/
def row (t : Token) : Text → List Bool → List Bool
  | [], next => [t.repeats && next.headD false]
  | c :: r, next =>
    let below := row t r next.tail
    (if t.repeats then next.headD false || (t.accepts c && below.headD false)
      else t.accepts c && next.tail.headD false) :: below

def lastRow (tail : Tail) : Text → List Bool
  | [] => [tail.accepts []]
  | c :: r => tail.accepts (c :: r) :: lastRow tail r

def rows (tail : Tail) (path : Text) : List Token → List Bool
  | [] => lastRow tail path
  | t :: ts => row t path (rows tail path ts)

def accepts (p : Pattern) (path : Text) : Bool := (rows p.tail path p.tokens).headD false

def translateBody (escape : Text → Text) : Text → Text → Text
  | literal, [] => escape literal
  | literal, '*' :: '*' :: r => escape literal ++ ".*" ++ translateBody escape [] r
  | literal, '*' :: r => escape literal ++ "[^/]*" ++ translateBody escape [] r
  | literal, '?' :: r => escape literal ++ "[^/]" ++ translateBody escape [] r
  | literal, c :: r => translateBody escape (literal ++ [c]) r

/-- The regular expression that a pattern stands for; `escape` writes the expression for a literal text. -/
def translate (escape : Text → Text) (source : Text) : Text :=
  match Text.before? "/**" source with
  | some body => "^" ++ translateBody escape [] body ++ "(/.*)?" ++ "$"
  | none => "^" ++ translateBody escape [] source ++ "$"

end Pattern

end BearerGate
