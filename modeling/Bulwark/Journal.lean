import Bulwark.CallError
import Bulwark.Circuit
import Bulwark.Pool
import Bulwark.Text.Span

/-!
The journal: all that happened, in order.

The library writes one journal. Its entries say what hooks were called and what
their actions answered, how operations and fallbacks of calls went, what
circuits were asked and told, and what is worth a line in a log file. The
callers' view (`Entry`) and the log lines (`Line.level`, `Line.text`,
`Line.fields`) are read off it.
-/

namespace Bulwark

/-- A call, told by its command and its number among the calls of that command. -/
structure CallKey where
  command : Name
  number : Nat
  deriving DecidableEq, Repr, Inhabited

/-- The part of a call whose code can fail or wait. -/
inductive Stage where
  | operation
  | fallback
  deriving DecidableEq, Repr, Inhabited

def Stage.label : Stage → String
  | operation => "operation"
  | fallback => "fallback"

inductive Level where
  | debug
  | info
  | warn
  | error
  deriving DecidableEq, Repr, Inhabited

def Level.label : Level → String
  | debug => "DEBUG"
  | info => "INFO"
  | warn => "WARN"
  | error => "ERROR"

/-- What is worth a line in a log file. Each tells of one command. -/
inductive Remark where
  | created
  | told (news : News)
  | shortCircuited
  | rejected
  | deadlineExceeded (timeout : Duration)
  | lateFailure (fault : Fault)
  | panicCaught (stage : Stage) (message : String)
  deriving DecidableEq, Repr

namespace Remark

def level : Remark → Level
  | told (.shifted (.tripped _ _)) | told (.shifted (.forcedOpen _))
  | told (.shifted (.relapsed _)) => .warn
  | told (.shifted .forcedClosed) | told (.shifted .probing) | told (.shifted .recovered) => .info
  | panicCaught _ _ => .error
  | _ => .debug

def text : Remark → String
  | created => "created command"
  | told (.shifted (.tripped _ _)) => "circuit opened"
  | told (.shifted (.forcedOpen _)) => "circuit forced open"
  | told (.shifted .forcedClosed) => "circuit forced closed"
  | told (.shifted .probing) => "circuit half-open, admitting probe"
  | told (.shifted .recovered) => "probe succeeded, circuit closed"
  | told (.shifted (.relapsed _)) => "probe failed, circuit re-opened"
  | told .rearmed => "previous probe never reported, admitting another"
  | shortCircuited => "short-circuited"
  | rejected => "rejected, no free ticket"
  | deadlineExceeded _ => "deadline exceeded"
  | lateFailure _ => "operation failed after its deadline"
  | panicCaught _ _ => "panic caught"

/-- The fields of a line, the command apart. -/
def details : Remark → List (String × String)
  | told (.shifted (.tripped errorPct requests)) =>
      [("error_pct", toString errorPct), ("requests", toString requests)]
  | told (.shifted (.forcedOpen before)) => [("from", before.label)]
  | told (.shifted (.relapsed outcome)) => [("event", outcome.label)]
  | deadlineExceeded timeout => [("timeout", Text.span timeout)]
  | lateFailure fault => [("error", fault.message)]
  | panicCaught stage message => [("stage", stage.label), ("panic_message", message)]
  | _ => []

end Remark

inductive Reply where
  | yes (b : Bool)
  | state (s : State)
  | tally (t : Tally)
  | count (n : Nat)
  | text (s : String)
  | done
  /-- The request could not be served. -/
  | refused
  deriving DecidableEq, Repr, Inhabited

inductive Mark where
  | started
  | succeeded
  | failed
  deriving DecidableEq, Repr, Inhabited

inductive Entry where
  /-- A call was made, with or without a fallback. -/
  | issued (call : CallKey) (id : String) (rescuable : Bool)
  /-- The operation of a call started or ended. -/
  | operation (call : CallKey) (id : String) (mark : Mark)
  /-- The fallback of a call started, because of an error. -/
  | fallback (call : CallKey) (id : String) (cause : CallError)
  /-- The code of a stage ended, with a fault unless it succeeded. -/
  | ended (call : CallKey) (stage : Stage) (fault : Option Fault)
  /-- The caller of a call can see its verdict. -/
  | resolved (call : CallKey) (verdict : Verdict)
  /-- A hook was called for a command. -/
  | hook (label : String) (command : Name) (report : Option Report)
  /-- A hook's action was done, and answered. -/
  | action (command : Name) (text : String) (reply : Reply)
  /-- A circuit was asked to let a request through, perhaps by a call. -/
  | asked (command : Name) (call : Option CallKey) (state : State) (answer : Bool)
  /-- A circuit recorded an outcome, perhaps reported by a call. -/
  | recorded (command : Name) (call : Option CallKey) (report : Report)
  | remark (command : Name) (r : Remark)
  deriving DecidableEq, Repr

structure Note where
  written : Instant
  entry : Entry
  deriving DecidableEq, Repr

structure Line where
  level : Level
  text : String
  fields : List (String × String)
  deriving DecidableEq, Repr

def Entry.line? : Entry → Option Line
  | .remark command r => some ⟨r.level, r.text, ("command", command) :: r.details⟩
  | _ => none

def Entry.isPublic : Entry → Bool
  | .operation _ _ _ | .fallback _ _ _ | .hook _ _ _ | .action _ _ _ => true
  | _ => false

end Bulwark
