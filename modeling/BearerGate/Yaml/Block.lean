import BearerGate.Yaml.Cursor

namespace BearerGate.Yaml

inductive Chomp
  | clip
  | strip
  | keep
  deriving DecidableEq, Repr

structure BlockHeader where
  chomp : Chomp := .clip
  indent : Option Nat := none
  deriving DecidableEq, Repr

namespace BlockHeader

def chomp? (c : Char) : Option Chomp :=
  if c = '+' then some .keep else if c = '-' then some .strip else none

def read? (t : Text) : Option (BlockHeader × Nat) :=
  let indent? (c : Char) : Option Nat := if c.isDigit then some (c.toNat - 48) else none
  let first := t.head?
  let second := t.tail.head?
  match first.bind chomp?, first.bind indent? with
  | some k, _ =>
    match second.bind indent? with
    | some 0 => none
    | some n => some (⟨k, some n⟩, 2)
    | none => some (⟨k, none⟩, 1)
  | none, some 0 => none
  | none, some n =>
    match second.bind chomp? with
    | some k => some (⟨k, some n⟩, 2)
    | none => some (⟨.clip, some n⟩, 1)
  | none, none => some ({}, 0)

end BlockHeader

structure Breaks where
  text : Text := []
  reach : Nat := 0
  deriving Repr

/-- Reads line breaks and the spaces of the indentation, all spaces when it is not known yet. A tab in
the place of such a space is refused. -/
def Breaks.read? (indent : Option Nat) : Nat → Cursor → Breaks → Option (Cursor × Breaks)
  | 0, c, b => some (c, b)
  | fuel + 1, c, b =>
    let inside := indent.all fun n => decide (c.column < n)
    if inside && c.test 0 (· = ' ') then read? indent fuel c.skip b
    else
      let b := { b with reach := max b.reach c.column }
      if inside && c.test 0 (· = '\t') then none
      else
        match (c.get? 0).filter isBreak with
        | some x => read? indent fuel c.skip { b with text := b.text ++ [x] }
        | none => some (c, b)

/-- The text between two lines: the break after the first one, and those of empty lines. When lines
are folded, a lone break between lines that begin with no blank reads as a space. -/
def joint (folded afterBlank beforeBlank : Bool) (first : Option Char) (more : Text) : Text :=
  if folded && first = some '\n' && !afterBlank && !beforeBlank then
    if more = [] then [' '] else more
  else first.toList ++ more

/-- Reads the lines of a block. The result has the text up to the last line, the break after it and
those of the empty lines that follow. -/
def blockLines? (folded : Bool) (indent : Nat) :
    Nat → Cursor → Bool → Option Char → Text → Option (Text × Option Char × Text × Cursor)
  | 0, c, _, first, more => some ([], first, more, c)
  | fuel + 1, c, afterBlank, first, more =>
    if c.column ≠ indent || c.rest = [] then some ([], first, more, c)
    else
      let blank := c.test 0 isSpace
      let line := c.rest.takeWhile (!isBreak ·)
      let last := c.skipMany line.length
      match Breaks.read? (some indent) (last.rest.length + 1) last.skip {} with
      | none => none
      | some (c, b) =>
        (blockLines? folded indent fuel c blank (last.get? 0) b.text).map fun p =>
          (joint folded afterBlank blank first more ++ line ++ p.1, p.2)

/-- Reads a block scalar after its mark. The lines are indented to `margin` at least, and behind
every column that an earlier blank line reached. -/
def block? (folded : Bool) (margin : Nat) (c : Cursor) : Option (Text × Cursor) := do
  let (h, n) ← BlockHeader.read? c.rest
  let c := c.skipMany n
  let c := c.skipMany (c.rest.takeWhile isSpace).length
  let c :=
    if c.test 0 (· = '#') then c.skipMany (c.rest.takeWhile (!isBreak ·)).length else c
  if !(c.get? 0).all isBreak then none
  let given := h.indent.map fun n => margin - 1 + n
  let (c, b) ← Breaks.read? given (c.rest.length + 1) c.skip {}
  let indent := given.getD (max b.reach (max margin 1))
  let (text, first, more, c) ← blockLines? folded indent (c.rest.length + 1) c false none b.text
  let tail :=
    match h.chomp with
    | .clip => first.toList
    | .strip => []
    | .keep => first.toList ++ more
  return (text ++ tail, c)

end BearerGate.Yaml
