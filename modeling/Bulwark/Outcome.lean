import Bulwark.Time

/-!
Outcomes: what a call tells its circuit.

There are seven outcomes. The first five say how a request ended and count as
requests; the two fallback outcomes accompany one of those and never count as a
request of their own. All but a success and a fallback success are errors.
-/

namespace Bulwark

/-- What a call tells its circuit. -/
inductive Outcome where
  | success
  | failure
  | timeout
  | rejected
  | shortCircuited
  | fallbackSuccess
  | fallbackFailure
  deriving DecidableEq, Repr, Inhabited

namespace Outcome

/-- The outcomes in the order in which counts are listed. -/
def all : List Outcome :=
  [success, failure, timeout, rejected, shortCircuited, fallbackSuccess, fallbackFailure]

theorem mem_all (o : Outcome) : o ∈ all := by cases o <;> decide

def isError : Outcome → Bool
  | success | fallbackSuccess => false
  | _ => true

/-- The outcome says how a request ended, and is not about its fallback. -/
def isPrimary : Outcome → Bool
  | fallbackSuccess | fallbackFailure => false
  | _ => true

/-- The operation itself went wrong, rather than being kept from running. -/
def isExecutionError : Outcome → Bool
  | failure | timeout => true
  | _ => false

def label : Outcome → String
  | success => "success"
  | failure => "failure"
  | timeout => "timeout"
  | rejected => "rejected"
  | shortCircuited => "short-circuit"
  | fallbackSuccess => "fallback-success"
  | fallbackFailure => "fallback-failure"

def title : Outcome → String
  | success => "Success"
  | failure => "Failure"
  | timeout => "Timeout"
  | rejected => "Rejected"
  | shortCircuited => "ShortCircuited"
  | fallbackSuccess => "FallbackSuccess"
  | fallbackFailure => "FallbackFailure"

def ofLabel? (s : String) : Option Outcome := all.find? (·.label == s)

theorem ofLabel?_label (o : Outcome) : ofLabel? o.label = some o := by cases o <;> decide

/-- An execution error is an error of a request. -/
theorem isError_of_isExecutionError {o : Outcome} (execution : o.isExecutionError = true) :
    o.isError = true ∧ o.isPrimary = true := by
  cases o <;> simp_all [isExecutionError, isError, isPrimary]

end Outcome

/-- What a hook learns of one outcome: when the call started and how long its
operation ran. -/
structure Report where
  outcome : Outcome
  start : Instant
  took : Duration
  deriving DecidableEq, Repr, Inhabited

end Bulwark
