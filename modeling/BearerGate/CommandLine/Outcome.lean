import BearerGate.CommandLine.Options
import BearerGate.Config.Load
import BearerGate.LogFilter
import BearerGate.Server.Basic
import BearerGate.Text.Invisible

namespace BearerGate.CommandLine

inductive Outcome
  | exit (code : Nat) (output complaint : Text)
  | serve (s : Server)

structure Surroundings where
  file? : Text → Option Text
  environment : Environment

def programName : Text := "tenant-gate"

def versionText : Text := programName ++ " 0.1.0\n"

def helpText : Text :=
  "Multi-tenant bearer token authentication with per-issuer trust resolution\n\n" ++
  "Usage: tenant-gate [OPTIONS]\n\nOptions:\n" ++
  "  -c, --config <CONFIG>        Path to configuration file [default: config.yaml]\n" ++
  "  -l, --log-level <LOG_LEVEL>  Log level or filter directive; overrides the config file\n" ++
  "      --check-config           Validate the configuration and exit\n" ++
  "  -h, --help                   Print help\n" ++
  "  -V, --version                Print version\n"

def defaultConfig : Text := "config.yaml"

def fail (complaint : Text) : Outcome := .exit 1 [] ("Error: " ++ complaint ++ ['\n'])

def start (env : Environment) (settings : Settings) (level : Text) : Outcome :=
  match LogFilter.choose? env level with
  | none => fail (LogFilter.complaint level)
  | some _ =>
    match Server.ofSettings settings with
    | .error f => fail f.message
    | .ok s => .serve s

def run (s : Surroundings) (o : Options) : Outcome :=
  let path := o.config.getD defaultConfig
  match (s.file? path).map (Settings.load s.environment) with
  | some (.ok settings) =>
    if o.checkConfig then .exit 0 ("Configuration OK: " ++ Text.quoted path ++ ['\n']) []
    else start s.environment settings (o.logLevel.getD settings.logging.level)
  | _ => fail ("Failed to load configuration from " ++ Text.quoted path)

def outcome (s : Surroundings) (args : List Text) : Outcome :=
  match read args with
  | .error f => .exit 2 [] ("error: " ++ f.message ++ ['\n'])
  | .ok .help => .exit 0 helpText []
  | .ok .version => .exit 0 versionText []
  | .ok (.run o) => run s o

end BearerGate.CommandLine
