import BearerGate.CommandLine.Outcome
import BearerGate.Http.Wire
import BearerGate.Rehearsal
import BearerGate.Server.Basic

namespace BearerGate.Program

def environment (names : List Text) : IO Environment :=
  names.filterMapM fun n => do
    return (← IO.getEnv (String.ofList n)).map fun v => (n, v.toList)

def readFile (path : Text) : IO (Option Text) := do
  try
    let content ← IO.FS.readBinFile (String.ofList path)
    return Utf8.decode? content.toList
  catch _ => return none

def surroundings (args : List Text) : IO CommandLine.Surroundings := do
  match CommandLine.read args with
  | .ok (.run o) =>
    let path := o.config.getD CommandLine.defaultConfig
    let content ← readFile path
    let names := LogFilter.variableName :: Environment.mentioned (content.getD [])
    return ⟨fun p => if p = path then content else none, ← environment names⟩
  | _ => return ⟨fun _ => none, []⟩

partial def readHead (input : IO.FS.Stream) (lines : List Bytes) : IO (List Bytes) := do
  let line ← input.getLine
  let bare := Http.bareLine line.toUTF8.toList
  if bare.isEmpty then return lines.reverse
  readHead input (bare :: lines)

partial def serve (s : Server) (input output : IO.FS.Stream) (p : Rehearsal) : IO Unit := do
  match ← readHead input [] with
  | [] => return
  | head =>
    let elapsed ← IO.monoMsNow
    let p := p.wait (elapsed - p.run.now)
    let (p, response) :=
      match Http.Request.ofLines? head with
      | some r => s.serve r p
      | none => (p, Http.badRequest)
    output.putStr (String.ofList response.render)
    output.flush
    serve s input output p

end BearerGate.Program

open BearerGate in
def main (args : List String) : IO UInt32 := do
  let args := args.map String.toList
  match CommandLine.outcome (← Program.surroundings args) args with
  | .exit code output complaint =>
    (← IO.getStdout).putStr (String.ofList output)
    (← IO.getStderr).putStr (String.ofList complaint)
    return code.toUInt32
  | .serve s =>
    let p := Rehearsal.onNetwork Discovery.nowhere s.rules 0
    Program.serve s (← IO.getStdin) (← IO.getStdout) p
    return 0
