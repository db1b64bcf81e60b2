import BearerGate.Yaml.Token

namespace BearerGate.Yaml

/-- A value as it is written. A reference stands for the value that its anchor names. -/
inductive Node
  | scalar (text : Text) (style : Style) (tag : Option Text)
  | sequence (items : List Node)
  | mapping (entries : List (Node × Node))
  | anchored (name : Text) (value : Node)
  | reference (name : Text)
  deriving Repr, Inhabited

structure Properties where
  anchor : Option Text := none
  tag : Option Text := none
  deriving DecidableEq, Repr

namespace Properties

def read : List Token → Properties × List Token
  | .anchor a :: .tag t :: r | .tag t :: .anchor a :: r => (⟨some a, some t⟩, r)
  | .anchor a :: r => (⟨some a, none⟩, r)
  | .tag t :: r => (⟨none, some t⟩, r)
  | ts => ({}, ts)

def isEmpty (p : Properties) : Bool := p.anchor.isNone && p.tag.isNone

def name (p : Properties) (v : Node) : Node :=
  match p.anchor with
  | some a => .anchored a v
  | none => v

end Properties

namespace Node

def empty : Node := scalar [] .plain none

def endsValue (inBlock : Bool) : List Token → Bool
  | .key :: _ | .value :: _ | .blockEnd :: _ => inBlock
  | _ => false

mutual

/-- Reads a node. In a block a sequence may stand without an indentation of its own, if `dash`. After
an anchor or a tag the value may be left out. Each call takes one unit of fuel. -/
def node? : Nat → Bool → Bool → List Token → Option (Node × List Token)
  | 0, _, _, _ => none
  | _ + 1, _, _, .reference name :: r => some (reference name, r)
  | fuel + 1, block, dash, ts =>
    let (props, ts) := Properties.read ts
    let value : Option (Node × List Token) :=
      match ts with
      | .scalar text style :: r =>
        some (scalar text style (props.tag.filter (· ≠ ['!'])), r)
      | .openBracket :: r => (flowItems? fuel true r).map fun p => (sequence p.1, p.2)
      | .openBrace :: r => (flowEntries? fuel true r).map fun p => (mapping p.1, p.2)
      | .entry :: r =>
        if dash then (dashItems? fuel (.entry :: r)).map fun p => (sequence p.1, p.2)
        else if props.isEmpty then none
        else some (scalar [] .plain props.tag, ts)
      | .sequenceStart :: r =>
        if block then (blockItems? fuel r).map fun p => (sequence p.1, p.2) else none
      | .mappingStart :: r =>
        if block then (blockEntries? fuel r).map fun p => (mapping p.1, p.2) else none
      | _ => if props.isEmpty then none else some (scalar [] .plain props.tag, ts)
    value.map fun q => (props.name q.1, q.2)

def blockItems? : Nat → List Token → Option (List Node × List Token)
  | 0, _ => none
  | fuel + 1, ts =>
    match ts with
    | .blockEnd :: r => some ([], r)
    | .entry :: r =>
      match r with
      | .entry :: _ | .blockEnd :: _ => (blockItems? fuel r).map fun p => (empty :: p.1, p.2)
      | _ =>
        match node? fuel true false r with
        | some (v, r) => (blockItems? fuel r).map fun p => (v :: p.1, p.2)
        | none => none
    | _ => none

def dashItems? : Nat → List Token → Option (List Node × List Token)
  | 0, _ => none
  | fuel + 1, ts =>
    match ts with
    | .entry :: r =>
      match r with
      | .entry :: _ | .key :: _ | .value :: _ | .blockEnd :: _ =>
        (dashItems? fuel r).map fun p => (empty :: p.1, p.2)
      | _ =>
        match node? fuel true false r with
        | some (v, r) => (dashItems? fuel r).map fun p => (v :: p.1, p.2)
        | none => none
    | _ => some ([], ts)

def blockPart? : Nat → List Token → Option (Node × List Token)
  | 0, _ => none
  | fuel + 1, ts => if endsValue true ts then some (empty, ts) else node? fuel true true ts

def blockEntries? : Nat → List Token → Option (List (Node × Node) × List Token)
  | 0, _ => none
  | fuel + 1, ts =>
    match ts with
    | .blockEnd :: r => some ([], r)
    | .key :: r =>
      match blockPart? fuel r with
      | none => none
      | some (k, .value :: r) =>
        match blockPart? fuel r with
        | none => none
        | some (v, r) => (blockEntries? fuel r).map fun p => ((k, v) :: p.1, p.2)
      | some (k, r) => (blockEntries? fuel r).map fun p => ((k, empty) :: p.1, p.2)
    | _ => none

def flowItems? : Nat → Bool → List Token → Option (List Node × List Token)
  | 0, _, _ => none
  | fuel + 1, first, ts =>
    match ts with
    | .closeBracket :: r => some ([], r)
    | _ =>
      let next :=
        if first then some ts
        else
          match ts with
          | .comma :: r => some r
          | _ => none
      match next with
      | none => none
      | some (.closeBracket :: r) => some ([], r)
      | some (.key :: r) =>
        match flowPair? fuel r with
        | some (v, r) => (flowItems? fuel false r).map fun p => (v :: p.1, p.2)
        | none => none
      | some r =>
        match node? fuel false false r with
        | some (v, r) => (flowItems? fuel false r).map fun p => (v :: p.1, p.2)
        | none => none

/-- A single entry that stands as an item between brackets, after its key mark. A key that is left
out takes the mark or bracket in its place with it. -/
def flowPair? : Nat → List Token → Option (Node × List Token)
  | 0, _ => none
  | fuel + 1, ts =>
    let key :=
      match ts with
      | .value :: r | .comma :: r | .closeBracket :: r => some (empty, r)
      | _ => node? fuel false false ts
    match key with
    | none => none
    | some (k, .value :: r) =>
      match r with
      | .comma :: _ | .closeBracket :: _ => some (mapping [(k, empty)], r)
      | _ => (node? fuel false false r).map fun p => (mapping [(k, p.1)], p.2)
    | some (k, r) => some (mapping [(k, empty)], r)

def flowEntries? : Nat → Bool → List Token → Option (List (Node × Node) × List Token)
  | 0, _, _ => none
  | fuel + 1, first, ts =>
    match ts with
    | .closeBrace :: r => some ([], r)
    | _ =>
      let next :=
        if first then some ts
        else
          match ts with
          | .comma :: r => some r
          | _ => none
      match next with
      | none => none
      | some (.closeBrace :: r) => some ([], r)
      | some (.key :: r) =>
        let key :=
          match r with
          | .value :: _ | .comma :: _ | .closeBrace :: _ => some (empty, r)
          | _ => node? fuel false false r
        match key with
        | none => none
        | some (k, .value :: r) =>
          match r with
          | .comma :: _ | .closeBrace :: _ =>
            (flowEntries? fuel false r).map fun p => ((k, empty) :: p.1, p.2)
          | _ =>
            match node? fuel false false r with
            | some (v, r) => (flowEntries? fuel false r).map fun p => ((k, v) :: p.1, p.2)
            | none => none
        | some (k, r) => (flowEntries? fuel false r).map fun p => ((k, empty) :: p.1, p.2)
      | some r =>
        match node? fuel false false r with
        | some (k, r) => (flowEntries? fuel false r).map fun p => ((k, empty) :: p.1, p.2)
        | none => none

end

/-- The values that anchors have named so far, the latest first; one that is not read to its end yet
has no value. -/
abbrev Anchors := List (Text × Option Node)

def Anchors.complete (name : Text) (v : Node) : Anchors → Anchors
  | [] => []
  | (n, none) :: r => if n = name then (n, some v) :: r else (n, none) :: complete name v r
  | e :: r => e :: complete name v r

mutual

/-- Puts in place of every reference the value that it stands for. A reference inside of that value stays. -/
def resolve? : Anchors → Node → Option (Node × Anchors)
  | env, scalar text style tag => some (scalar text style tag, env)
  | env, sequence items => (resolveItems? env items).map fun p => (sequence p.1, p.2)
  | env, mapping entries => (resolveEntries? env entries).map fun p => (mapping p.1, p.2)
  | env, anchored name v =>
    (resolve? ((name, none) :: env) v).map fun p => (p.1, Anchors.complete name p.1 p.2)
  | env, reference name => (env.lookup name).map fun v => (v.getD (reference name), env)

def resolveItems? : Anchors → List Node → Option (List Node × Anchors)
  | env, [] => some ([], env)
  | env, v :: r =>
    match resolve? env v with
    | none => none
    | some (v, env) => (resolveItems? env r).map fun p => (v :: p.1, p.2)

def resolveEntries? : Anchors → List (Node × Node) → Option (List (Node × Node) × Anchors)
  | env, [] => some ([], env)
  | env, (k, v) :: r =>
    match resolve? env k with
    | none => none
    | some (k, env) =>
      match resolve? env v with
      | none => none
      | some (v, env) => (resolveEntries? env r).map fun p => ((k, v) :: p.1, p.2)

end

def ofTokens? (ts : List Token) : Option Node :=
  let ts :=
    match ts with
    | .version :: .documentStart :: r | .documentStart :: r => r
    | ts => ts
  match ts with
  | [] | .documentStart :: _ | .documentEnd :: _ => none
  | ts =>
    match node? (4 * ts.length + 4) true false ts with
    | some (v, r) =>
      if r.all (· = .documentEnd) then (resolve? [] v).map (·.1) else none
    | none => none

def parse? (t : Text) : Option Node := (Token.scan? t).bind ofTokens?

end Node

end BearerGate.Yaml
