import BearerGate.Text.Basic

namespace BearerGate

abbrev Environment := List (Text × Text)

namespace Environment

def startsName (c : Char) : Bool := c.isUpper || c = '_'

def continuesName (c : Char) : Bool := c.isUpper || c.isDigit || c = '_'

structure Placeholder where
  name : Text
  default : Option Text
  source : Text
  deriving DecidableEq, Repr

def placeholder? : Text → Option (Placeholder × Text)
  | '$' :: '{' :: c :: r =>
    if startsName c then
      let name := c :: r.takeWhile continuesName
      match r.dropWhile continuesName with
      | '}' :: rest => some (⟨name, none, "$\x7b" ++ name ++ ['\x7d']⟩, rest)
      | ':' :: '-' :: body =>
        match body.dropWhile (· ≠ '}') with
        | '}' :: rest =>
          let default := body.takeWhile (· ≠ '}')
          some (⟨name, some default, "$\x7b" ++ name ++ ":-" ++ default ++ ['\x7d']⟩, rest)
        | _ => none
      | _ => none
    else none
  | _ => none

theorem length_dropWhile_le (p : Char → Bool) (t : Text) : (t.dropWhile p).length ≤ t.length :=
  (List.dropWhile_suffix p).length_le

theorem length_of_placeholder? {t rest : Text} {p : Placeholder}
    (h : placeholder? t = some (p, rest)) : rest.length < t.length := by
  unfold placeholder? at h
  split at h
  · rename_i c r
    have hr := length_dropWhile_le continuesName r
    split at h
    · simp only at h
      split at h
      · rename_i e
        simp only [Option.some.injEq, Prod.mk.injEq] at h
        rw [e] at hr
        simp only [List.length_cons] at hr ⊢
        rw [← h.2]
        omega
      · rename_i body e
        have hb := length_dropWhile_le (· ≠ '}') body
        split at h
        · rename_i e'
          simp only [Option.some.injEq, Prod.mk.injEq] at h
          rw [e] at hr
          rw [e'] at hb
          simp only [List.length_cons] at hr hb ⊢
          rw [← h.2]
          omega
        · simp at h
      · simp at h
    · simp at h
  · simp at h

def fill (env : Environment) (p : Placeholder) : Text :=
  (env.lookup p.name).getD (p.default.getD p.source)

/-- Fills the placeholders of a text from left to right; what is filled in is not read again. -/
def expand (env : Environment) (t : Text) : Text :=
  match _h : placeholder? t with
  | some (p, rest) => fill env p ++ expand env rest
  | none =>
    match t with
    | [] => []
    | c :: r => c :: expand env r
termination_by t.length
decreasing_by
  · exact length_of_placeholder? _h
  · simp

def mentioned (t : Text) : List Text := (t.splitOnP (!continuesName ·)).filter (· ≠ [])

structure Match where
  start : Nat
  stop : Nat
  name : Text
  default : Option Text
  deriving DecidableEq, Repr

def slice (t : Text) (start stop : Nat) : Text := (t.drop start).take (stop - start)

def Match.value (env : Environment) (t : Text) (m : Match) : Text :=
  match env.lookup m.name, m.default with
  | some value, _ => value
  | none, some default => default
  | none, none => slice t m.start m.stop

/-- Copies the text from the position `last` on, with the value of each match in its place. -/
def splice (env : Environment) (t : Text) : Nat → List Match → Text
  | last, [] => t.drop last
  | last, m :: ms => slice t last m.start ++ m.value env t ++ splice env t m.stop ms

end Environment

end BearerGate
