import Bulwark.Schedule

/-!
Workers overtaken by their watch.

Normally a worker asks the circuit and goes on in the same turn. Here it is held
up until the time of the call is up and the watch has resolved it. The worker
then finds the call claimed, or the place for its ticket shut, and leaves
without a trace.

All that happens could happen to any engine: callers do something, tasks take
turns though another stands before them, the clock jumps, and an alarm goes off
late.
-/

namespace Bulwark

/-- Where a worker is held up. -/
inductive Hold where
  /-- Before it takes its first turn. -/
  | start
  /-- While the circuit, half-open again after a sleep window, tells of its
  probe. -/
  | probing
  /-- While the circuit tells that it tripped, after a number of failures. -/
  | tripping (failures : Nat)
  deriving DecidableEq, Repr, Inhabited

namespace Engine

/-- Brings the circuit of a command to where a worker can be held up. -/
def prepare (e : Engine) (command : Name) : Hold → Engine
  | .start => e
  | .probing =>
      let forced := (e.step (.circuit command (some .forceOpen))).1
      (forced.step (.advance (e.policy.settings command).sleepWindow)).1
  | .tripping failures =>
      (e.step (.circuit command (some (.report .failure failures .zero none)))).1

/-- Takes a number of turns, but not the first of the queue. -/
def settleBehind : Nat → Engine → Engine
  | 0, e => e
  | n + 1, e =>
    match e.queue with
    | first :: t :: rest => settleBehind n (take { e with queue := first :: rest } t)
    | _ => e

/-- Takes turns until nothing can go on but the first of the queue. -/
def passBy (e : Engine) : Engine := settleBehind e.fuel e

/-- The worker of a call, whose turn is the first, asks the circuit and is held up. -/
def holdUp (e : Engine) (k : CallKey) : Engine :=
  match e.queue, e.call? k with
  | .poll j (.code .operation) :: rest, some c =>
    match c.work with
    | .queued operation =>
        if j = k ∧ c.claimed = false then { e with queue := rest }.hold k operation else e
    | _ => e
  | _, _ => e

/-- The clock shows a later time at once, and only then the alarm of the watch of
a call goes off. -/
def oversleep (e : Engine) (k : CallKey) (t : Instant) : Engine :=
  match (e.call? k).map Call.watch with
  | some (.armed due) =>
      if due.nanos ≤ t.nanos then
        ((e.setNow t).updateCall k (·.ring .watch)).enqueue (.poll k .watch)
      else e.setNow t
  | _ => e.setNow t

/-- A worker is held up until a millisecond after the time of its call was up,
and goes on then. Before it does, the watch resolves the call. -/
def overtake (e : Engine) (k : CallKey) (hold : Hold) : Engine :=
  let timeout := ((e.desks.get? k.command).map (·.settings.timeout)).getD .zero
  let late := (e.now.later timeout).later (.ofMillis 1)
  match hold with
  | .start => (e.passBy.oversleep k late).passBy.rest
  | .probing | .tripping _ => ((((e.holdUp k).rest.oversleep k late).rest).goOn k).rest

/-- Makes one call of a command, holds its worker up, and yields the engine after
all has come to rest, with the call. -/
def runOvertaken (e : Engine) (spec : CallSpec Script) (hold : Hold) :
    Except Defect (Engine × Option CallKey) :=
  match e.step (.create spec.command) with
  | (_, .defective defect) => .error defect
  | (created, _) =>
    match (created.prepare spec.command hold).begin (.call spec) with
    | (begun, .started) =>
      match (begun.handles.get? spec.id).map Handle.source with
      | some (.call k) => .ok (begun.overtake k hold, some k)
      | _ => .ok (begun, none)
    | (begun, _) => .ok (begun, none)

end Engine

end Bulwark
