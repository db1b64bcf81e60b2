import BearerGate.Gate.Basic

namespace BearerGate

namespace Exposition

structure Sample where
  labels : List (Text × Text)
  value : Nat
  deriving DecidableEq, Repr

structure Family where
  name : Text
  help : Text
  samples : List Sample
  deriving DecidableEq, Repr

def labelText (l : Text × Text) : Text := l.1 ++ "=\"" ++ l.2 ++ ['"']

def labelsText : List (Text × Text) → Text
  | [] => []
  | l => "\x7b" ++ List.intercalate [','] (l.map labelText) ++ "\x7d"

def Sample.line (name : Text) (s : Sample) : Text :=
  name ++ labelsText s.labels ++ ' ' :: Text.ofNat s.value

def Family.lines (f : Family) : List Text :=
  if f.samples = [] then []
  else
    ("# HELP " ++ f.name ++ ' ' :: f.help) :: ("# TYPE " ++ f.name ++ " counter") ::
      f.samples.map (Sample.line f.name)

def lines (l : List Family) : List Text := l.flatMap Family.lines

def contentType : Text := "text/plain; version=0.0.4"

end Exposition

namespace Gate

open Exposition

def counted (labels : List (Text × Text)) (value : Nat) : List Sample :=
  if value = 0 then [] else [⟨labels, value⟩]

def attemptLabels (outcome reason : Text) : List (Text × Text) :=
  [("outcome", outcome), ("reason", reason)]

def attemptSamples (a : Attempts) : List Sample :=
  let rejected := a.rejected.mergeSort fun x y => x.1.precedes y.1
  rejected.flatMap (fun (reason, n) => counted (attemptLabels "failure" reason) n) ++
    counted (attemptLabels "success" "none") a.accepted

def families (g : Gate) : List Family :=
  let t := g.cache.tally
  let result (name : Text) : List (Text × Text) := [("result", name)]
  [⟨"tenant_gate_auth_attempts_total", "Authentication attempts", attemptSamples g.attempts⟩,
    ⟨"tenant_gate_cache_lookups_total", "Issuer cache lookups",
      counted (result "hit") t.hits ++ counted (result "miss") t.misses ++
        counted (result "stale") t.stales⟩,
    ⟨"tenant_gate_forced_key_refreshes_total", "Forced issuer refreshes after a signing key miss",
      [⟨[], t.keyRefreshes⟩]⟩,
    ⟨"tenant_gate_issuer_fetches_total", "Issuer metadata and key set fetches",
      counted (result "failure") t.failed ++ counted (result "success") t.stored⟩]

end Gate

end BearerGate
