import BearerGate.Yaml.Cursor

namespace BearerGate.Yaml

structure Gap where
  spaces : Text := []
  firstBreak : Option Char := none
  moreBreaks : Text := []
  folded : Bool := false

namespace Gap

/-- One line break reads as a space, further ones as themselves. -/
def text (g : Gap) : Text :=
  if g.folded then
    match g.firstBreak with
    | some '\n' => if g.moreBreaks = [] then [' '] else g.moreBreaks
    | some c => c :: g.moreBreaks
    | none => g.moreBreaks
  else g.spaces

/-- Reads blanks and line breaks. After a break, a tab before the column `margin` is refused. -/
def read? (margin : Nat) : Nat → Cursor → Gap → Option (Cursor × Gap)
  | 0, c, g => some (c, g)
  | fuel + 1, c, g =>
    match c.get? 0 with
    | none => some (c, g)
    | some x =>
      if isSpace x then
        if g.folded then
          if x = '\t' ∧ c.column < margin then none else read? margin fuel c.skip g
        else read? margin fuel c.skip { g with spaces := g.spaces ++ [x] }
      else if isBreak x then
        if g.folded then read? margin fuel c.skip { g with moreBreaks := g.moreBreaks ++ [x] }
        else read? margin fuel c.skip { g with spaces := [], firstBreak := some x, folded := true }
      else some (c, g)

end Gap

def isFlowMark (c : Char) : Bool := c = ',' || c = '[' || c = ']' || c = '{' || c = '}'

def plainStretch? (flow : Bool) : Nat → Cursor → Option (Text × Cursor)
  | 0, c => some ([], c)
  | fuel + 1, c =>
    match c.get? 0 with
    | none => some ([], c)
    | some x =>
      if isSpace x || isBreak x then some ([], c)
      else if flow && x = ':' && c.test 1 (fun y => isFlowMark y || y = '?') then none
      else if (x = ':' && c.isBlankAt 1) || (flow && isFlowMark x) then some ([], c)
      else (plainStretch? flow fuel c.skip).map fun p => (x :: p.1, p.2)

/-- Reads a plain scalar, which continues on lines that are indented to `margin`. The flag says
whether it ends after a line break. -/
def plain? (flow : Bool) (margin : Nat) : Nat → Gap → Cursor → Option (Text × Bool × Cursor)
  | 0, g, c => some ([], g.folded, c)
  | fuel + 1, g, c =>
    if c.atDocumentMark || c.test 0 (· = '#') then some ([], g.folded, c)
    else
      match plainStretch? flow c.rest.length c with
      | none => none
      | some ([], c) => some ([], g.folded, c)
      | some (stretch, c) =>
        if c.test 0 (fun x => isSpace x || isBreak x) then
          match Gap.read? margin c.rest.length c {} with
          | none => none
          | some (c', g') =>
            if !flow && c'.column < margin then some (g.text ++ stretch, g'.folded, c')
            else
              match plain? flow margin fuel g' c' with
              | none => none
              | some (more, folded, c'') => some (g.text ++ stretch ++ more, folded, c'')
        else some (g.text ++ stretch, false, c)

def escape? (c : Char) : Option Char :=
  match c with
  | '0' => some '\x00'
  | 'a' => some '\x07'
  | 'b' => some '\x08'
  | 't' | '\t' => some '\t'
  | 'n' => some '\n'
  | 'v' => some '\x0b'
  | 'f' => some '\x0c'
  | 'r' => some '\r'
  | 'e' => some '\x1b'
  | ' ' => some ' '
  | '"' => some '"'
  | '/' => some '/'
  | '\\' => some '\\'
  | 'N' => some (Char.ofNat 0x85)
  | '_' => some (Char.ofNat 0xA0)
  | 'L' => some (Char.ofNat 0x2028)
  | 'P' => some (Char.ofNat 0x2029)
  | _ => none

/-- Reads a stretch of a quoted scalar without blanks. The flag says that it ends with an escaped
line break. -/
def quotedStretch? (single : Bool) : Nat → Cursor → Option (Text × Bool × Cursor)
  | 0, c => some ([], false, c)
  | fuel + 1, c =>
    match c.get? 0 with
    | none => some ([], false, c)
    | some x =>
      let keep (y : Char) (c : Cursor) :=
        (quotedStretch? single fuel c).map fun p => (y :: p.1, p.2)
      if isSpace x || isBreak x then some ([], false, c)
      else if single then
        if x = '\'' then
          if c.test 1 (· = '\'') then keep '\'' (c.skipMany 2) else some ([], false, c)
        else keep x c.skip
      else if x = '"' then some ([], false, c)
      else if x = '\\' then
        match c.get? 1 with
        | none => none
        | some e =>
          if isBreak e then some ([], true, c.skipMany 2)
          else
            match escape? e with
            | some y => keep y (c.skipMany 2)
            | none =>
              match Text.escapeDigits? e with
              | none => none
              | some n =>
                let digits := (c.rest.drop 2).take n
                if digits.length < n then none
                else
                  match Text.codePoint? digits with
                  | some y => keep y (c.skipMany (2 + n))
                  | none => none
      else keep x c.skip

def quoted? (single : Bool) : Nat → Cursor → Option (Text × Cursor)
  | 0, _ => none
  | fuel + 1, c =>
    if c.atDocumentMark || c.rest = [] then none
    else
      match quotedStretch? single c.rest.length c with
      | none => none
      | some (stretch, escapedBreak, c) =>
        if c.test 0 (· = if single then '\'' else '"') then some (stretch, c.skip)
        else
          match Gap.read? 0 c.rest.length c { folded := escapedBreak } with
          | none => none
          | some (c, g) => (quoted? single fuel c).map fun p => (stretch ++ g.text ++ p.1, p.2)

end BearerGate.Yaml
