import BearerGate.Issuer.Fault
import BearerGate.Validation

namespace BearerGate

inductive Stage
  | received
  | headerParsed
  | issuerResolved
  | keyResolved
  | signatureVerified
  | claimsValidated
  | authenticated
  | rejected
  deriving DecidableEq, Repr

def Stage.name : Stage → Text
  | received => "received"
  | headerParsed => "header_parsed"
  | issuerResolved => "issuer_resolved"
  | keyResolved => "key_resolved"
  | signatureVerified => "signature_verified"
  | claimsValidated => "claims_validated"
  | authenticated => "authenticated"
  | rejected => "rejected"

inductive AuthFault
  | malformed (fault : TokenFault)
  | untrusted (issuer : Text)
  | unreachable (fault : FetchFault)
  | keyNotFound (kid : Option Text) (algorithm : Algorithm)
  | signature
  | claim (fault : ClaimFault)
  deriving DecidableEq, Repr

namespace AuthFault

def reason : AuthFault → Text
  | malformed _ => "malformed_token"
  | untrusted _ => "issuer_untrusted"
  | unreachable _ => "issuer_unreachable"
  | keyNotFound .. => "key_not_found"
  | signature => "signature_invalid"
  | claim f => f.name

def message : AuthFault → Text
  | malformed f => "Malformed token: " ++ f.message
  | untrusted i => "Issuer not trusted: " ++ i
  | unreachable f => "Issuer unreachable: " ++ f.message
  | keyNotFound kid a =>
    "Signing key not found: kid=" ++ kid.getD ['-'] ++ " alg=" ++ a.name
  | signature => "Invalid signature"
  | claim f => "Invalid claim: " ++ f.name

end AuthFault

structure Rejection where
  stage : Stage
  fault : AuthFault
  deriving DecidableEq, Repr

def Rejection.message (r : Rejection) : Text :=
  r.fault.message ++ " (after " ++ r.stage.name ++ ")"

end BearerGate
