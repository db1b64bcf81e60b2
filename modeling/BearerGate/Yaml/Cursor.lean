import BearerGate.Text.Basic

namespace BearerGate.Yaml

structure Cursor where
  rest : Text
  line : Nat := 0
  column : Nat := 0
  index : Nat := 0
  deriving Repr

def isPermitted (c : Char) : Bool :=
  let n := c.toNat
  n == 0x09 || n == 0x0A || n == 0x0D || (0x20 ≤ n && n ≤ 0x7E) || n == 0x85 ||
    (0xA0 ≤ n && n ≤ 0xFFFD) || 0x10000 ≤ n

/-- Writes every line break of one line as a line feed; the two separators of Unicode stay. -/
def unifyBreaks : Text → Text
  | '\r' :: '\n' :: r => '\n' :: unifyBreaks r
  | '\r' :: r => '\n' :: unifyBreaks r
  | c :: r => (if c.toNat = 0x85 then '\n' else c) :: unifyBreaks r
  | [] => []

def isBreak (c : Char) : Bool := c = '\n' || c.toNat = 0x2028 || c.toNat = 0x2029

def isSpace (c : Char) : Bool := c = ' ' || c = '\t'

namespace Cursor

def get? (c : Cursor) (i : Nat) : Option Char := c.rest[i]?

def test (c : Cursor) (i : Nat) (p : Char → Bool) : Bool := (c.get? i).any p

def isBlankAt (c : Cursor) (i : Nat) : Bool := (c.get? i).all fun x => isSpace x || isBreak x

def skip (c : Cursor) : Cursor :=
  match c.rest with
  | [] => c
  | x :: r =>
    if isBreak x then ⟨r, c.line + 1, 0, c.index + 1⟩ else ⟨r, c.line, c.column + 1, c.index + 1⟩

def skipMany (c : Cursor) : Nat → Cursor
  | 0 => c
  | n + 1 => c.skip.skipMany n

def atMarker (c : Cursor) (mark : Char) : Bool :=
  c.column = 0 && c.test 0 (· = mark) && c.test 1 (· = mark) && c.test 2 (· = mark) && c.isBlankAt 3

def atDocumentMark (c : Cursor) : Bool := c.atMarker '-' || c.atMarker '.'

end Cursor

end BearerGate.Yaml
