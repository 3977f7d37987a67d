import Bulwark.Settings

/-!
Errors of calls.

A call fails because it was kept from running, because its time was up, because
its operation failed, because its fallback failed as well, or because it could
not be set up. An operation may fail with an error of its own or with the error
of a call that it made itself, and so may a fallback.

An error has a message and a chain of sources. The error of an operation shows
exactly the message and the sources of what the operation failed with. The
error of a fallback names both errors in its message and has no source.
-/

namespace Bulwark

/-- An error as an operation states it: a message and the messages of its
sources, outermost first. -/
structure PlainError where
  message : String
  sources : List String := []
  deriving DecidableEq, Repr, Inhabited

mutual

inductive Fault where
  | plain (e : PlainError)
  | call (e : CallError)

/-- Why a call failed. -/
inductive CallError where
  | circuitOpen
  | maxConcurrency
  | timeout
  | operation (inner : Fault)
  | fallback (failed : Fault) (cause : CallError)
  | config (defect : Defect)
  | noRuntime

end

deriving instance DecidableEq for Fault, CallError
deriving instance Repr for Fault, CallError

instance : Inhabited CallError := ⟨.circuitOpen⟩
instance : Inhabited Fault := ⟨.plain default⟩

mutual

def Fault.message : Fault → String
  | .plain e => e.message
  | .call e => e.message

def CallError.message : CallError → String
  | .circuitOpen => "circuit open"
  | .maxConcurrency => "max concurrency"
  | .timeout => "timeout"
  | .operation inner => inner.message
  | .fallback failed cause =>
      "fallback failed with '" ++ failed.message ++ "'. run error was '" ++ cause.message ++ "'"
  | .config defect => "invalid command configuration: " ++ defect.message
  | .noRuntime => "no tokio runtime to run the command on"

end

mutual

def Fault.sources : Fault → List String
  | .plain e => e.sources
  | .call e => e.sources

def CallError.sources : CallError → List String
  | .operation inner => inner.sources
  | .config defect => [defect.message]
  | _ => []

end

namespace CallError

/-- The error behind any number of failed fallbacks. -/
def rootCause : CallError → CallError
  | .fallback _ cause => cause.rootCause
  | e => e

def isCircuitOpen (e : CallError) : Bool :=
  match e.rootCause with
  | .circuitOpen => true
  | _ => false

def isMaxConcurrency (e : CallError) : Bool :=
  match e.rootCause with
  | .maxConcurrency => true
  | _ => false

def isTimeout (e : CallError) : Bool :=
  match e.rootCause with
  | .timeout => true
  | _ => false

def isFallbackFailure : CallError → Bool
  | .fallback _ _ => true
  | _ => false

end CallError

/-- How a call ended for its caller. -/
inductive Verdict where
  | ok
  | error (e : CallError)
  deriving DecidableEq, Repr, Inhabited

end Bulwark
