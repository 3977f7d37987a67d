import Bulwark.Journal
import Bulwark.Script

/-!
Calls under way.

Two tasks look after a call. The worker asks the circuit, takes a ticket and
runs the operation; the watch waits for the worker to be done or for the
command's timeout, whichever comes first, and then gives the ticket back.
Either of them may claim the call; only the one that does reports how it ended
and runs the fallback.
-/

namespace Bulwark

/-- What code that has not ended waits for. -/
inductive Wait where
  | timer (due : Instant) (next : Script)
  /-- To be told how to go on. -/
  | manual
  /-- The verdict of a call that it made. -/
  | call (inner : CallKey)
  /-- Only its turn. -/
  | turn (next : Script)
  deriving Repr, Inhabited

inductive Work where
  | queued (operation : Script)
  /-- The circuit has answered, and the worker is held up before it goes on. -/
  | asked (answer : Bool) (operation : Script)
  | running (since : Instant) (wait : Wait)
  | done
  deriving Repr, Inhabited

inductive Watch where
  | queued
  | armed (due : Instant)
  /-- The time is up, and the watch waits for its turn. -/
  | expired
  /-- The worker is done, and the watch waits for its turn. -/
  | dismissed
  | done
  deriving DecidableEq, Repr, Inhabited

inductive Rescue where
  /-- There is none, or it has ended. -/
  | none
  | unused (fallback : Script)
  | running (cause : CallError) (took : Duration) (wait : Wait)
  deriving Repr, Inhabited

inductive Slot where
  | vacant
  | holding
  /-- The watch is through, and no ticket is taken any more. -/
  | shut
  deriving DecidableEq, Repr, Inhabited

structure Call where
  id : String
  start : Instant
  work : Work
  watch : Watch := .queued
  rescue : Rescue
  slot : Slot := .vacant
  claimed : Bool := false
  /-- The code that waits for the verdict. -/
  waiter : Option (CallKey × Stage) := none
  verdict : Option Verdict := none
  deriving Repr, Inhabited

/-- What a task of a call can take a turn at. -/
inductive Part where
  | code (stage : Stage)
  | watch
  deriving DecidableEq, Repr, Inhabited

namespace Call

def make (spec : CallSpec Script) (now : Instant) : Call where
  id := spec.id
  start := now
  work := .queued spec.work
  rescue := match spec.fallback with
    | some fallback => .unused fallback
    | none => .none

def isWorkDone (c : Call) : Bool :=
  match c.work with
  | .done => true
  | _ => false

/-- What the code of a stage waits for, if it has started and not ended. -/
def wait? (c : Call) : Stage → Option Wait
  | .operation =>
      match c.work with
      | .running _ wait => some wait
      | _ => none
  | .fallback =>
      match c.rescue with
      | .running _ _ wait => some wait
      | _ => none

/-- Lets the code of a stage that has started wait for something else. -/
def setWait (c : Call) (stage : Stage) (wait : Wait) : Call :=
  match stage with
  | .operation =>
      match c.work with
      | .running since _ => { c with work := .running since wait }
      | _ => c
  | .fallback =>
      match c.rescue with
      | .running cause took _ => { c with rescue := .running cause took wait }
      | _ => c

/-- The code of a stage waits to be told how to go on. -/
def isManual (c : Call) (stage : Stage) : Bool :=
  match c.wait? stage with
  | some .manual => true
  | _ => false

/-- When each part of the call is due. -/
def alarms (c : Call) : List (Instant × Part) :=
  let ofStage (stage : Stage) :=
    match c.wait? stage with
    | some (.timer due _) => [(due, Part.code stage)]
    | _ => []
  let ofWatch :=
    match c.watch with
    | .armed due => [(due, Part.watch)]
    | _ => []
  ofStage .operation ++ ofStage .fallback ++ ofWatch

/-- Ends the wait of a part that is due. -/
def ring (c : Call) : Part → Call
  | .code stage =>
      match c.wait? stage with
      | some (.timer _ next) => c.setWait stage (.turn next)
      | _ => c
  | .watch =>
      match c.watch with
      | .armed _ => { c with watch := .expired }
      | _ => c

end Call

def Wait.turns : Wait → Nat
  | .timer _ next => next.turns + 1
  | .manual => 1
  | .call _ => 1
  | .turn next => next.turns + 1

def Work.turns : Work → Nat
  | .queued operation | .asked _ operation => operation.turns + 1
  | .running _ wait => wait.turns
  | .done => 0

@[simp] theorem Work.turns_queued (s : Script) : (Work.queued s).turns = s.turns + 1 := rfl
@[simp] theorem Work.turns_asked (b : Bool) (s : Script) :
    (Work.asked b s).turns = s.turns + 1 := rfl
@[simp] theorem Work.turns_running (t : Instant) (w : Wait) :
    (Work.running t w).turns = w.turns := rfl
@[simp] theorem Work.turns_done : Work.done.turns = 0 := rfl

def Watch.turns : Watch → Nat
  | .queued => 2
  | .armed _ | .expired | .dismissed => 1
  | .done => 0

@[simp] theorem Watch.turns_queued : Watch.queued.turns = 2 := rfl
@[simp] theorem Watch.turns_armed (t : Instant) : (Watch.armed t).turns = 1 := rfl
@[simp] theorem Watch.turns_expired : Watch.expired.turns = 1 := rfl
@[simp] theorem Watch.turns_dismissed : Watch.dismissed.turns = 1 := rfl
@[simp] theorem Watch.turns_done : Watch.done.turns = 0 := rfl

def Rescue.turns : Rescue → Nat
  | .none => 0
  | .unused fallback => fallback.turns
  | .running _ _ wait => wait.turns

@[simp] theorem Rescue.turns_none : Rescue.none.turns = 0 := rfl
@[simp] theorem Rescue.turns_unused (s : Script) : (Rescue.unused s).turns = s.turns := rfl
@[simp] theorem Rescue.turns_running (c : CallError) (d : Duration) (w : Wait) :
    (Rescue.running c d w).turns = w.turns := rfl

def Call.turns (c : Call) : Nat := c.work.turns + c.watch.turns + c.rescue.turns

/-- A call that is made needs the turns that its specification says. -/
theorem Call.turns_make (spec : CallSpec Script) (now : Instant) :
    (Call.make spec now).turns = spec.turns := by
  obtain ⟨id, command, work, fallback, mode⟩ := spec
  cases fallback with
  | none => simp [Call.turns, Call.make, CallSpec.turns]
  | some script =>
      simp only [Call.turns, Call.make, Work.turns_queued, Watch.turns_queued, Rescue.turns_unused,
        CallSpec.turns, Option.map_some, Option.getD_some]
      omega

end Bulwark
