import BearerGate.Yaml.Block
import BearerGate.Yaml.Scalar

namespace BearerGate.Yaml

inductive Style
  | plain
  | quoted
  | literal
  | folded
  deriving DecidableEq, Repr

inductive Token
  | version
  | documentStart
  | documentEnd
  | sequenceStart
  | mappingStart
  | blockEnd
  | entry
  | key
  | value
  | comma
  | openBracket
  | closeBracket
  | openBrace
  | closeBrace
  | anchor (name : Text)
  | reference (name : Text)
  | tag (name : Text)
  | scalar (text : Text) (style : Style)
  deriving DecidableEq, Repr

/-- A place where a key may have begun: it turns out to be one when a colon follows on the line.
One that starts its block has to be a key. -/
structure KeyPlace where
  required : Bool
  token : Nat
  line : Nat
  column : Nat
  index : Nat
  deriving Repr

/-- The state of the scanner: open blocks by their columns, and for the innermost block and every
open bracket the place where a key may have begun. -/
structure Scan where
  cursor : Cursor
  tokens : Array Token := #[]
  blocks : List Nat := []
  places : List (Option KeyPlace) := [none]
  keyAllowed : Bool := true
  deriving Repr

namespace Scan

def depth (s : Scan) : Nat := s.places.length - 1

def inFlow (s : Scan) : Bool := s.depth != 0

def margin (s : Scan) : Nat :=
  match s.blocks with
  | [] => 0
  | c :: _ => c + 1

def push (s : Scan) (t : Token) : Scan := { s with tokens := s.tokens.push t }

def insert (s : Scan) (i : Nat) (t : Token) : Scan :=
  { s with tokens := s.tokens.insertIdxIfInBounds i t }

def setPlace (s : Scan) (p : Option KeyPlace) : Scan := { s with places := p :: s.places.tail }

def place? (s : Scan) : Option KeyPlace := s.places.head?.join

def dropPlace? (s : Scan) : Option Scan :=
  match s.place? with
  | some p => if p.required then none else some (s.setPlace none)
  | none => some s

def notePlace? (s : Scan) : Option Scan :=
  if s.keyAllowed then
    let c := s.cursor
    let required := !s.inFlow && s.blocks.head? = some c.column
    s.dropPlace?.map (·.setPlace (some ⟨required, s.tokens.size, c.line, c.column, c.index⟩))
  else some s

def isStale (c : Cursor) (p : KeyPlace) : Bool := p.line < c.line || p.index + 1024 < c.index

def dropStale? (s : Scan) : Option Scan := do
  let places ← s.places.mapM fun
    | some p => if isStale s.cursor p then (if p.required then none else some none) else some (some p)
    | none => some none
  return { s with places := places }

def openBlock (s : Scan) (column : Nat) (i : Nat) (t : Token) : Scan :=
  if s.inFlow then s
  else
    match s.blocks with
    | [] => { s.insert i t with blocks := [column] }
    | b :: _ => if b < column then { s.insert i t with blocks := column :: s.blocks } else s

def closeBlocks (s : Scan) (column : Int) : Scan :=
  if s.inFlow then s
  else
    let closed := s.blocks.takeWhile fun (b : Nat) => column < (b : Int)
    { s with
      blocks := s.blocks.dropWhile fun (b : Nat) => column < (b : Int)
      tokens := s.tokens ++ (closed.map fun _ => Token.blockEnd).toArray }

/-- Skips blanks, comments and line breaks before a token. Outside brackets a key may begin after a
line break. -/
def skipBlanks : Nat → Scan → Scan
  | 0, s => s
  | fuel + 1, s =>
    let c := s.cursor
    match c.get? 0 with
    | none => s
    | some x =>
      if x = ' ' || (x = '\t' && (s.inFlow || !s.keyAllowed)) ||
          (c.column = 0 && x.toNat = 0xFEFF) then
        skipBlanks fuel { s with cursor := c.skip }
      else if x = '#' then
        skipBlanks fuel
          { s with cursor := c.skipMany (c.rest.takeWhile fun y => !isBreak y).length }
      else if isBreak x then
        skipBlanks fuel { s with cursor := c.skip, keyAllowed := !s.inFlow || s.keyAllowed }
      else s

def take (s : Scan) (n : Nat) (t : Token) (keyAllowed : Bool) : Scan :=
  { s.push t with cursor := s.cursor.skipMany n, keyAllowed := keyAllowed }

def documentMark? (s : Scan) (t : Token) : Option Scan := do
  let s ← (s.closeBlocks (-1)).dropPlace?
  return s.take 3 t false

def openFlow? (s : Scan) (t : Token) : Option Scan := do
  let s ← s.notePlace?
  return { s.take 1 t true with places := none :: s.places }

def closeFlow? (s : Scan) (t : Token) : Option Scan := do
  let s ← s.dropPlace?
  return { s.take 1 t false with places := if s.inFlow then s.places.tail else s.places }

def entry? (s : Scan) : Option Scan := do
  if !s.inFlow && !s.keyAllowed then none
  let s ← (s.openBlock s.cursor.column s.tokens.size .sequenceStart).dropPlace?
  return s.take 1 .entry true

def explicitKey? (s : Scan) : Option Scan := do
  if !s.inFlow && !s.keyAllowed then none
  let s ← (s.openBlock s.cursor.column s.tokens.size .mappingStart).dropPlace?
  return s.take 1 .key !s.inFlow

def value? (s : Scan) : Option Scan :=
  match s.place? with
  | some p =>
    let s := (s.insert p.token .key).openBlock p.column p.token .mappingStart
    some ((s.setPlace none).take 1 .value false)
  | none =>
    if s.inFlow then some (s.take 1 .value false)
    else if !s.keyAllowed then none
    else some ((s.openBlock s.cursor.column s.tokens.size .mappingStart).take 1 .value true)

def quoted? (s : Scan) (single : Bool) : Option Scan := do
  let s ← s.notePlace?
  let (text, c) ← Yaml.quoted? single (s.cursor.rest.length + 1) s.cursor.skip
  return { s.push (.scalar text .quoted) with cursor := c, keyAllowed := false }

def plain? (s : Scan) : Option Scan := do
  let s ← s.notePlace?
  let (text, folded, c) ← Yaml.plain? s.inFlow s.margin (s.cursor.rest.length + 1) {} s.cursor
  return { s.push (.scalar text .plain) with cursor := c, keyAllowed := folded }

def block? (s : Scan) (style : Style) : Option Scan := do
  let s ← s.dropPlace?
  let (text, c) ← Yaml.block? (style = .folded) s.margin s.cursor.skip
  return { s.push (.scalar text style) with cursor := c, keyAllowed := true }

def isNameChar (c : Char) : Bool := c.isAlphanum || c = '-' || c = '_'

def name? (s : Scan) (token : Text → Token) : Option Scan := do
  let s ← s.notePlace?
  let name := s.cursor.rest.tail.takeWhile isNameChar
  let n := name.length + 1
  if name ≠ [] && (s.cursor.isBlankAt n || s.cursor.test n ("?:,]\x7d%@`".toList.contains ·)) then
    some (s.take n (token name) false)
  else none

def tagText (bracketed : Bool) (t : Text) : Text :=
  t.takeWhile fun c =>
    isNameChar c || ";/?:@&=+$.!~*'()".toList.contains c || (bracketed && ",[]".toList.contains c)

/-- Reads a tag after its mark, with its length. The tags of the standard schema are written in full. -/
def tagName? (t : Text) : Option (Text × Nat) :=
  match t with
  | '<' :: r =>
    let name := tagText true r
    if name ≠ [] && (r.drop name.length).head? = some '>' then some (name, name.length + 2) else none
  | '!' :: r =>
    let name := tagText false r
    if name = [] then none else some ("tag:yaml.org,2002:" ++ name, name.length + 1)
  | r =>
    let name := tagText false r
    if (r.dropWhile isNameChar).head? = some '!' then none else some ('!' :: name, name.length)

def tag? (s : Scan) : Option Scan := do
  let s ← s.notePlace?
  let (name, n) ← tagName? s.cursor.rest.tail
  if s.cursor.isBlankAt (n + 1) || (s.inFlow && s.cursor.test (n + 1) (· = ',')) then
    some (s.take (n + 1) (.tag name) false)
  else none

def version? (s : Scan) : Option Scan := do
  let s ← (s.closeBlocks (-1)).dropPlace?
  let line := s.cursor.rest.takeWhile (!isBreak ·)
  let r ← Text.after? "%YAML" line
  if !(r.head?.any isSpace) then none
  let number := (r.dropWhile isSpace).takeWhile fun c => c.isDigit || c = '.'
  let r := ((r.dropWhile isSpace).drop number.length).dropWhile isSpace
  if (number = "1.1".toList || number = "1.2".toList) && (r = [] || r.head? = some '#') then
    some (s.take line.length .version false)
  else none

def isIndicator (c : Char) : Bool := "-?:,[]\x7b\x7d#&*!|>'\"%@`".toList.contains c

/-- Scans the token that begins here. Directives other than the version are refused, and so are tags with a handle
and escapes in tags. -/
def token? (s : Scan) (x : Char) : Option Scan :=
  let c := s.cursor
  if c.column = 0 && x = '%' then s.version?
  else if c.atMarker '-' then s.documentMark? .documentStart
  else if c.atMarker '.' then s.documentMark? .documentEnd
  else if x = '[' then s.openFlow? .openBracket
  else if x = '{' then s.openFlow? .openBrace
  else if x = ']' then s.closeFlow? .closeBracket
  else if x = '}' then s.closeFlow? .closeBrace
  else if x = ',' then s.dropPlace?.map (·.take 1 .comma true)
  else if x = '-' && c.isBlankAt 1 then s.entry?
  else if x = '?' && (s.inFlow || c.isBlankAt 1) then s.explicitKey?
  else if x = ':' && (s.inFlow || c.isBlankAt 1) then s.value?
  else if x = '*' then s.name? .reference
  else if x = '&' then s.name? .anchor
  else if x = '!' then s.tag?
  else if x = '|' && !s.inFlow then s.block? .literal
  else if x = '>' && !s.inFlow then s.block? .folded
  else if x = '\'' then s.quoted? true
  else if x = '"' then s.quoted? false
  else if !(isIndicator x || isSpace x) || (x = '-' && !c.test 1 isSpace) ||
      (!s.inFlow && (x = '?' || x = ':') && !c.isBlankAt 1) then s.plain?
  else none

def run? : Nat → Scan → Option Scan
  | 0, _ => none
  | fuel + 1, s => do
    let s ← (skipBlanks (s.cursor.rest.length + 1) s).dropStale?
    match s.cursor.get? 0 with
    | none => (s.closeBlocks (-1)).dropPlace?
    | some x => run? fuel (← (s.closeBlocks s.cursor.column).token? x)

end Scan

def Token.scan? (t : Text) : Option (List Token) :=
  if t.all isPermitted then
    let t := unifyBreaks t
    (Scan.run? (t.length + 2) { cursor := { rest := t } }).map (·.tokens.toList)
  else none

end BearerGate.Yaml
