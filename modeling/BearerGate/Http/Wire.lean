import BearerGate.Http.Message

namespace BearerGate.Http

def bareLine (line : Bytes) : Bytes := (line.reverse.dropWhile fun b => b = 10 || b = 13).reverse

def requestLine? (line : Bytes) : Option (Text × Text) := do
  match (← Utf8.decode? line).splitOn ' ' with
  | [method, target, version] =>
    if method = [] ∨ target = [] ∨ !"HTTP/1.".toList.isPrefixOf version then none
    else some (method, target)
  | _ => none

def field? (line : Bytes) : Option (Text × Bytes) :=
  match line.dropWhile (· ≠ 58) with
  | _ :: value => (Utf8.decode? (line.takeWhile (· ≠ 58))).map fun name => (name, value)
  | [] => none

def Request.ofLines? : List Bytes → Option Request
  | [] => none
  | first :: rest => do
    let (method, target) ← requestLine? first
    return ⟨method, target, ← rest.mapM field?⟩

def reason (status : Nat) : Text :=
  if status = 200 then "OK"
  else if status = 400 then "Bad Request"
  else if status = 401 then "Unauthorized"
  else if status = 404 then "Not Found"
  else []

def badRequest : Response := plain 400 []

def lineEnd : Text := "\r\n"

def fieldLine (f : Text × Text) : Text := f.1 ++ ": " ++ f.2 ++ lineEnd

def Response.render (r : Response) : Text :=
  let length : Text := Text.ofNat (Utf8.encode r.body).length
  "HTTP/1.1 " ++ Text.ofNat r.status ++ ' ' :: reason r.status ++ lineEnd ++
    (r.fields ++ [("content-length".toList, length)]).flatMap fieldLine ++ lineEnd ++ r.body

end BearerGate.Http
