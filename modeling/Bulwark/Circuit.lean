import Bulwark.Roster
import Bulwark.Settings
import Bulwark.Window
import Bulwark.Text.Quoted

/-!
Circuits: whether the requests of a command are let through.

A circuit is closed, open or half-open, and remembers since when. A closed
circuit lets requests through and opens when enough of the recent requests went
wrong. An open one lets nothing through until its sleep window has passed; the
next request then makes it half-open and is let through as a probe. A half-open
circuit closes on a success and opens again on a failure or a timeout, and if
its probe never reports, it lets another through after a further sleep window.

Each operation here is one step of the circuit alone. It yields the circuit
after it and what is to be told to others (`News`); telling it, and whatever
that sets off, comes after the step.
-/

namespace Bulwark

/-- Whether a circuit lets requests through. -/
inductive State where
  | closed
  | opened
  | halfOpen
  deriving DecidableEq, Repr, Inhabited

namespace State

def all : List State := [closed, opened, halfOpen]

def label : State → String
  | closed => "closed"
  | opened => "open"
  | halfOpen => "half-open"

def title : State → String
  | closed => "Closed"
  | opened => "Open"
  | halfOpen => "HalfOpen"

def number : State → Nat
  | closed => 0
  | opened => 1
  | halfOpen => 2

def ofLabel? (s : String) : Option State := all.find? (·.label == s)

theorem ofLabel?_label (s : State) : ofLabel? s.label = some s := by cases s <;> decide

end State

/-- Why a circuit changed its state. -/
inductive Shift where
  /-- Too many of the recent requests went wrong. -/
  | tripped (errorPct requests : Nat)
  | forcedOpen (before : State)
  | forcedClosed
  /-- The sleep window has passed, and a request was let through as a probe. -/
  | probing
  /-- A half-open circuit saw a success. -/
  | recovered
  /-- A half-open circuit saw a failure or a timeout. -/
  | relapsed (outcome : Outcome)
  deriving DecidableEq, Repr, Inhabited

def Shift.target : Shift → State
  | tripped _ _ | forcedOpen _ | relapsed _ => .opened
  | forcedClosed | recovered => .closed
  | probing => .halfOpen

/-- What a step of a circuit is to tell others. -/
inductive News where
  | shifted (shift : Shift)
  /-- The probe never reported, and another request was let through. -/
  | rearmed
  deriving DecidableEq, Repr, Inhabited

/-- What lets the requests of one command through. -/
structure Circuit where
  errorThresholdPct : Nat
  volumeThreshold : Nat
  sleepWindow : Duration
  state : State
  since : Instant
  window : Window
  deriving DecidableEq, Repr, Inhabited

/-- The circuit after a step, the answer to who asked, and what to tell others. -/
structure Circuit.Step where
  circuit : Circuit
  answer : Bool
  news : Option News
  deriving DecidableEq, Repr, Inhabited

namespace Circuit

/-- A closed circuit with nothing recorded. -/
def make (s : Settings) (now : Instant) : Circuit where
  errorThresholdPct := s.errorThresholdPct
  volumeThreshold := s.volumeThreshold
  sleepWindow := s.sleepWindow
  state := .closed
  since := now
  window := .make s.rollingWindow s.windowBuckets

def enter (c : Circuit) (shift : Shift) (now : Instant) : Circuit :=
  { c with state := shift.target, since := now }

/-- The tally calls for opening a closed circuit. -/
def isUnhealthy (c : Circuit) (t : Tally) : Bool :=
  decide (c.volumeThreshold ≤ t.requests ∧ c.errorThresholdPct ≤ t.errorPct)

/-- The sleep window has passed since the circuit entered its state, or last let
a probe through. -/
def isRested (c : Circuit) (now : Instant) : Bool :=
  decide (c.sleepWindow.nanos ≤ (c.since.elapsed now).nanos)

/-- Reads the window of a closed circuit, and opens the circuit if the tally
calls for it. The answer says whether it did. -/
def examine (c : Circuit) (now : Instant) : Step :=
  let t := c.window.tally now
  let read := { c with window := c.window.prune now }
  if c.isUnhealthy t then
    let shift := .tripped t.errorPct t.requests
    ⟨read.enter shift now, true, some (.shifted shift)⟩
  else ⟨read, false, none⟩

/-- Asks to let a request through. -/
def allow (c : Circuit) (now : Instant) : Step :=
  match c.state with
  | .closed => let step := c.examine now; { step with answer := !step.answer }
  | .opened =>
      if c.isRested now then ⟨c.enter .probing now, true, some (.shifted .probing)⟩
      else ⟨c, false, none⟩
  | .halfOpen =>
      if c.isRested now then ⟨{ c with since := now }, true, some .rearmed⟩
      else ⟨c, false, none⟩

/-- Asks whether the circuit keeps requests from running, without starting a
probe. -/
def isOpen (c : Circuit) (now : Instant) : Step :=
  match c.state with
  | .closed => c.examine now
  | .opened | .halfOpen => ⟨c, true, none⟩

/-- Records an outcome, and lets it decide a half-open circuit. -/
def absorb (c : Circuit) (o : Outcome) (now : Instant) : Step :=
  let recorded := { c with window := c.window.record o now }
  match c.state with
  | .halfOpen =>
      if o = .success then
        ⟨{ recorded.enter .recovered now with window := recorded.window.reset }, true,
          some (.shifted .recovered)⟩
      else if o.isExecutionError then
        ⟨recorded.enter (.relapsed o) now, true, some (.shifted (.relapsed o))⟩
      else ⟨recorded, false, none⟩
  | .closed | .opened => ⟨recorded, false, none⟩

/-- Opens a circuit that is not open. The answer says whether it was not. -/
def forceOpen (c : Circuit) (now : Instant) : Step :=
  match c.state with
  | .opened => ⟨c, false, none⟩
  | before => ⟨c.enter (.forcedOpen before) now, true, some (.shifted (.forcedOpen before))⟩

/-- Closes a circuit that is not closed, and forgets what it recorded. The
answer says whether it was not closed. -/
def forceClosed (c : Circuit) (now : Instant) : Step :=
  match c.state with
  | .closed => ⟨c, false, none⟩
  | _ => ⟨{ c.enter .forcedClosed now with window := c.window.reset }, true,
      some (.shifted .forcedClosed)⟩

def describe (c : Circuit) (name : Name) : String :=
  "CircuitBreaker \x7b name: " ++ Text.quoted name ++ ", state: " ++ c.state.title ++ " \x7d"

end Circuit

end Bulwark
