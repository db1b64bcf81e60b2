import BearerGate.Text.Basic

namespace BearerGate.CommandLine

inductive Setting
  | config
  | logLevel
  deriving DecidableEq, Repr

def Setting.usage : Setting → Text
  | config => "--config <CONFIG>"
  | logLevel => "--log-level <LOG_LEVEL>"

inductive Flag
  | checkConfig
  | help
  | version
  deriving DecidableEq, Repr

def Flag.usage : Flag → Text
  | checkConfig => "--check-config"
  | help => "--help"
  | version => "--version"

inductive Fault
  | unexpected (arg : Text)
  | missingValue (option : Setting)
  | repeated (usage : Text)
  | surplusValue (value : Text) (flag : Flag)
  deriving DecidableEq, Repr

def Fault.message : Fault → Text
  | unexpected arg => "unexpected argument '" ++ arg ++ "' found"
  | missingValue o => "a value is required for '" ++ o.usage ++ "' but none was supplied"
  | repeated usage => "the argument '" ++ usage ++ "' cannot be used multiple times"
  | surplusValue value f =>
    "unexpected value '" ++ value ++ "' for '" ++ f.usage ++ "' found; no more were expected"

structure Options where
  config : Option Text := none
  logLevel : Option Text := none
  checkConfig : Bool := false
  deriving DecidableEq, Repr

inductive Command
  | run (o : Options)
  | help
  | version
  deriving DecidableEq, Repr

structure Named where
  option : Setting
  value : Option Text
  deriving DecidableEq, Repr

/-- How an argument is read: an option with or without its value, flags, or nothing known. An argument
that is no option is a value for the option before it. -/
inductive Word
  | setting (o : Setting) (attached : Option Text)
  | flag (f : Flag)
  | surplus (value : Text) (f : Flag)
  | unknown (arg : Text)
  | rest
  | value (t : Text)
  deriving DecidableEq, Repr

def longName? (name : Text) : Option (Setting ⊕ Flag) :=
  if name = "config".toList then some (.inl .config)
  else if name = "log-level".toList then some (.inl .logLevel)
  else if name = "check-config".toList then some (.inr .checkConfig)
  else if name = "help".toList then some (.inr .help)
  else if name = "version".toList then some (.inr .version)
  else none

def readLong (t : Text) : Word :=
  let (name, value) :=
    match Text.cut? '=' t with
    | some (n, v) => (n, some v)
    | none => (t, none)
  match longName? name, value with
  | some (.inl o), v => .setting o v
  | some (.inr f), none => .flag f
  | some (.inr f), some v => .surplus v f
  | none, _ => .unknown ("--" ++ name)

def attached : Text → Option Text
  | [] => none
  | '=' :: r => some r
  | t => some t

/-- The first letter decides: a setting takes the rest as its value, and a flag ends the run. -/
def readShort (c : Char) (r : Text) : Word :=
  if c = 'c' then .setting .config (attached r)
  else if c = 'l' then .setting .logLevel (attached r)
  else if c = 'h' then .flag .help
  else if c = 'V' then .flag .version
  else .unknown ['-', c]

def Word.read : Text → Word
  | ['-', '-'] => .rest
  | '-' :: '-' :: r => readLong r
  | '-' :: c :: r => readShort c r
  | t => .value t

def Options.set (o : Options) (n : Named) : Except Fault Options :=
  match n.option, n.value with
  | s, none => .error (.missingValue s)
  | .config, some v =>
    if o.config.isSome then .error (.repeated Setting.config.usage)
    else if v = [] then .error (.missingValue .config)
    else .ok { o with config := some v }
  | .logLevel, some v =>
    if o.logLevel.isSome then .error (.repeated Setting.logLevel.usage)
    else .ok { o with logLevel := some v }

def Options.finish (o : Options) : Option Named → Except Fault Options
  | none => .ok o
  | some n => o.set n

/-- Reads the arguments from left to right. An option is entered when the next one is read, so that
what is unknown is reported first. -/
def readFrom (o : Options) (pending : Option Named) : List Text → Except Fault Command
  | [] => (o.finish pending).map .run
  | t :: r =>
    match Word.read t with
    | .unknown arg => .error (.unexpected arg)
    | .surplus v f => .error (.surplusValue v f)
    | .rest =>
      match r with
      | [] => (o.finish pending).map .run
      | arg :: _ => .error (.unexpected arg)
    | .value v =>
      match pending with
      | some ⟨s, none⟩ => readFrom o (some ⟨s, some v⟩) r
      | _ => .error (.unexpected v)
    | .setting s value => do
      let o ← o.finish pending
      match value with
      | none => readFrom o (some ⟨s, none⟩) r
      | some v => readFrom (← o.set ⟨s, some v⟩) none r
    | .flag f => do
      let o ← o.finish pending
      match f with
      | .help => return .help
      | .version => return .version
      | .checkConfig =>
        if o.checkConfig then throw (.repeated Flag.checkConfig.usage)
        readFrom { o with checkConfig := true } none r

def read (args : List Text) : Except Fault Command := readFrom {} none args

end BearerGate.CommandLine
