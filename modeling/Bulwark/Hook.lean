import Bulwark.Journal

/-!
Hooks: what is called when a circuit changes or an outcome is reported.

There is one hook for each state that a circuit can enter and one for outcomes.
Setting a hook replaces the one before it. A hook leaves its label in the
journal and then does its actions in order; an action makes a request of the
circuit the hook was called for, or sets a hook.
-/

namespace Bulwark

/-- What can be asked of a circuit. -/
inductive Request where
  | allow
  | isOpen
  | state
  | tally
  | forceOpen
  | forceClosed
  | name
  | describe
  /-- Reports an outcome a number of times; without a start, as of now. -/
  | report (outcome : Outcome) (times : Nat) (took : Duration) (start : Option Instant)
  /-- Several requests at once ask to be let through. -/
  | allowMany (askers : Nat)
  deriving DecidableEq, Repr, Inhabited

inductive Occasion where
  | entered (s : State)
  | reported
  deriving DecidableEq, Repr, Inhabited

/-- What a hook does, with the words in which it was ordered. -/
inductive Action where
  | request (text : String) (r : Request)
  | set (text : String) (occasion : Occasion) (label : String) (actions : List Action)
  /-- An order that makes no sense. -/
  | unclear (text : String)
  deriving Repr, Inhabited

def Action.text : Action → String
  | .request text _ | .set text _ _ _ | .unclear text => text

structure Hook where
  label : String
  actions : List Action := []
  deriving Repr, Inhabited

/-- The hooks that are set, one for each occasion. -/
structure Hooks where
  closed : Option Hook := none
  opened : Option Hook := none
  halfOpen : Option Hook := none
  reported : Option Hook := none
  deriving Repr, Inhabited

namespace Hooks

def get? (h : Hooks) : Occasion → Option Hook
  | .entered .closed => h.closed
  | .entered .opened => h.opened
  | .entered .halfOpen => h.halfOpen
  | .reported => h.reported

def put (h : Hooks) (occasion : Occasion) (hook : Hook) : Hooks :=
  match occasion with
  | .entered .closed => { h with closed := some hook }
  | .entered .opened => { h with opened := some hook }
  | .entered .halfOpen => { h with halfOpen := some hook }
  | .reported => { h with reported := some hook }

theorem get?_put (h : Hooks) (occasion other : Occasion) (hook : Hook) :
    (h.put occasion hook).get? other =
      if occasion = other then some hook else h.get? other := by
  rcases occasion with s | _ <;> rcases other with t | _ <;>
    first
      | rfl
      | (cases s <;> cases t <;> rfl)
      | (cases s <;> rfl)
      | (cases t <;> rfl)

end Hooks

end Bulwark
