import Bulwark.CallError
import Bulwark.Roster

/-!
Scripts: what the code of an operation or a fallback does.

A script says how the code runs as far as anyone can see it from outside: it
waits for a time or to be told how to go on, it makes a call of its own and
takes over that call's verdict, and in the end it succeeds, fails or panics.
-/

namespace Bulwark

inductive Mode where
  /-- The caller gets a handle and goes on. -/
  | detached
  /-- A task makes the call and waits for its verdict. -/
  | awaited
  /-- The caller is not on a runtime that could run the call. -/
  | offRuntime
  deriving DecidableEq, Repr, Inhabited

/-- A call to be made, over what its code does. -/
structure CallSpec (σ : Type) where
  id : String
  command : Name
  work : σ
  fallback : Option σ := none
  mode : Mode := .detached
  deriving Repr

/-- What the code of an operation or a fallback does. -/
inductive Script where
  | succeed
  | fail (fault : Fault)
  /-- Panics, with a message unless the payload has none. -/
  | panic (message : Option String)
  | after (d : Duration) (next : Script)
  /-- Waits until it is told how to go on, under the id of its call. If other
  code comes to wait under the same id, it goes on and succeeds. -/
  | manual
  /-- Makes a call and ends as that call does. -/
  | nested (call : CallSpec Script)
  deriving Repr

instance : Inhabited Script := ⟨.succeed⟩

namespace Script

/-- A bound on the turns that the code still needs once it has started: one for
each wait, and those of the calls it makes. -/
def turns : Script → Nat
  | .succeed | .fail _ | .panic _ => 0
  | .manual => 1
  | .after _ next => next.turns + 1
  | .nested ⟨_, _, work, none, _⟩ => work.turns + 4
  | .nested ⟨_, _, work, some fallback, _⟩ => work.turns + fallback.turns + 4

def ofVerdict : Verdict → Script
  | .ok => .succeed
  | .error e => .fail (.call e)

end Script

/-- A bound on the turns of a call: two for its tasks to start, one more for
each of them to go on, and those of its code. -/
def CallSpec.turns (c : CallSpec Script) : Nat :=
  c.work.turns + (c.fallback.map Script.turns).getD 0 + 3

theorem Script.turns_nested (c : CallSpec Script) : (Script.nested c).turns = c.turns + 1 := by
  obtain ⟨id, command, work, fallback, mode⟩ := c
  cases fallback <;> simp [Script.turns, CallSpec.turns]

end Bulwark
