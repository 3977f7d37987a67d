import Bulwark.Engine

/-!
Running the engine: turns until nothing can go on, and the clock.

`rest` takes turns until the queue is empty. Every turn either uses up a turn
that some call still needs (`Engine.turns`) or finds nothing to do, and it queues
at most three more, so the number of turns is bounded by `Engine.fuel`.

`advance` moves the clock from one due part to the next and lets everything go
on at each, so nothing is overtaken by a later alarm.
-/

namespace Bulwark

/-- A part of a call that is due. -/
structure Alarm where
  due : Instant
  call : CallKey
  part : Part
  deriving DecidableEq, Repr, Inhabited

/-- The alarm that is due first; of several, the first in the list. -/
def Alarm.earliest : List Alarm → Option Alarm
  | [] => none
  | a :: rest =>
    match earliest rest with
    | none => some a
    | some b => if b.due.nanos < a.due.nanos then some b else some a

def Desk.alarms (command : Name) (desk : Desk) : List Alarm :=
  desk.calls.zipIdx.flatMap fun (c, number) =>
    c.alarms.map fun (due, part) => ⟨due, ⟨command, number⟩, part⟩

def Desk.turns (desk : Desk) : Nat := weigh Call.turns desk.calls

def Turn.turns : Turn → Nat
  | .launch spec => spec.turns + 1
  | .poll _ _ => 0

namespace Engine

/-- A bound on the turns that calls still need. -/
def turns (e : Engine) : Nat :=
  weigh (fun entry => entry.2.turns) e.desks + weigh Turn.turns e.queue

/-- A bound on the turns until nothing can go on. -/
def fuel (e : Engine) : Nat := 4 * e.turns + e.queue.length

/-- Takes a number of turns, fewer if nothing can go on. -/
def settle : Nat → Engine → Engine
  | 0, e => e
  | n + 1, e =>
    match e.queue with
    | [] => e
    | t :: rest => settle n (take { e with queue := rest } t)

def rest (e : Engine) : Engine := settle e.fuel e

def alarms (e : Engine) : List Alarm := e.desks.flatMap fun entry => entry.2.alarms entry.1

def setNow (e : Engine) (t : Instant) : Engine := { e with board := { e.board with now := t } }

/-- Moves the clock to an alarm, and queues the part that is due. -/
def fire (e : Engine) (a : Alarm) : Engine :=
  (((e.setNow a.due).updateCall a.call (·.ring a.part))).enqueue (.poll a.call a.part)

/-- Goes from one alarm to the next up to an instant, at most a number of times. -/
def runUntil : Nat → Instant → Engine → Engine
  | 0, t, e => e.setNow t
  | n + 1, t, e =>
    match Alarm.earliest e.alarms with
    | none => e.setNow t
    | some a => if a.due.nanos ≤ t.nanos then runUntil n t (e.fire a).rest else e.setNow t

def advance (e : Engine) (d : Duration) : Engine := runUntil e.turns (e.now.later d) e

end Engine

end Bulwark
