import RegistryKeeper.Json.Parser
import RegistryKeeper.Json.Shape

namespace RegistryKeeper

structure ErrorStatus where
  status : String
  message : String
  reason : String
  code : Nat
  deriving DecidableEq, Repr

inductive ApiFailure where
  | refused (s : ErrorStatus)
  | emptyName
  | tooLong
  | invalidPath
  | unreadable (s : Snag)
  deriving DecidableEq, Repr

def ApiFailure.message : ApiFailure → String
  | .refused s =>
      "ApiError: " ++ s.message ++ ": " ++ s.reason ++ " (ErrorResponse \x7b status: "
        ++ Text.quoted s.status ++ ", message: " ++ Text.quoted s.message ++ ", reason: "
        ++ Text.quoted s.reason ++ ", code: " ++ toString s.code ++ " \x7d)"
  | .emptyName =>
      "Failed to build request: failed to validate request: A non-empty name is required"
  | .tooLong =>
      "Failed to build request: failed to build request: uri too long"
  | .invalidPath =>
      "Failed to build request: failed to build request: invalid uri character"
  | .unreadable s => "Error deserializing response: " ++ s.message

inductive Unreadable where
  | misfit (m : Misfit)
  | syntaxError (e : Json.SyntaxError)
  deriving DecidableEq, Repr

def Unreadable.message : Unreadable → String
  | .misfit m => m.message
  | .syntaxError e => e.message

structure Named where
  kind : String
  «namespace» : String
  name : String
  deriving DecidableEq, Repr

def Named.text (o : Named) : String :=
  o.kind ++ "/" ++ o.name ++ " in namespace " ++ o.namespace

inductive Failure where
  | api (f : ApiFailure)
  | notFound (o : Named)
  | alreadyExists (o : Named)
  | conflict (o : Named)
  | packageNotFound (package : String)
  | missingField (path : String)
  | invalidConfig (text : String)
  | reconcileFailed (text : String)
  | unreadable (u : Unreadable)
  | yaml (text : String)
  deriving DecidableEq, Repr

namespace Failure

def message : Failure → String
  | .api f => "Kubernetes API error: " ++ f.message
  | .notFound o => "Resource not found: " ++ o.text
  | .alreadyExists o => "Resource already exists: " ++ o.text
  | .conflict o => "Conflict updating " ++ o.text
  | .packageNotFound p => "Package not found in any source: " ++ p
  | .missingField p => "Missing object key: " ++ p
  | .invalidConfig t => "Invalid configuration: " ++ t
  | .reconcileFailed t => "Reconciliation failed: " ++ t
  | .unreadable u => "Serialization error: " ++ u.message
  | .yaml t => "YAML serialization error: " ++ t

def isRetryable : Failure → Bool
  | .api _ | .conflict _ | .reconcileFailed _ => true
  | _ => false

def isAlreadyExists : Failure → Bool
  | .alreadyExists _ => true
  | _ => false

def fixedDelay : Failure → Option Nat
  | .conflict _ => some 5
  | _ => none

/-- Seconds until the next attempt after `n` failures in a row: 30, doubled with every further
failure, and never more than 600. -/
def retryDelay (f : Failure) (n : Nat) : Nat :=
  f.fixedDelay.getD (min 600 (30 * Nat.pow 2 (min (n - 1) 5)))

end Failure

end RegistryKeeper
