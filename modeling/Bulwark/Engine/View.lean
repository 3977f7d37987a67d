import Bulwark.Engine

/-!
Commands as seen from outside, and in words.
-/

namespace Bulwark

/-- What can be seen of a command. -/
structure View where
  name : Name
  settings : Settings
  state : State
  capacity : Nat
  deriving DecidableEq, Repr, Inhabited

def Settings.describe (s : Settings) : String :=
  "Settings \x7b timeout: " ++ Text.span s.timeout ++
    ", max_concurrent: " ++ toString s.maxConcurrent ++
    ", error_threshold_pct: " ++ toString s.errorThresholdPct ++
    ", request_volume_threshold: " ++ toString s.volumeThreshold ++
    ", sleep_window: " ++ Text.span s.sleepWindow ++
    ", rolling_window: " ++ Text.span s.rollingWindow ++
    ", window_buckets: " ++ toString s.windowBuckets ++ " \x7d"

namespace Engine

def view? (e : Engine) (command : Name) : Option View :=
  match e.desks.get? command, e.board.circuits.get? command with
  | some desk, some c => some ⟨command, desk.settings, c.state, desk.pool.capacity⟩
  | _, _ => none

def describeCommand? (e : Engine) (command : Name) : Option String :=
  match e.desks.get? command, e.board.circuits.get? command with
  | some desk, some c =>
      some ("Command \x7b name: " ++ Text.quoted command ++
        ", settings: " ++ desk.settings.describe ++
        ", circuit: " ++ c.describe command ++
        ", pool: " ++ desk.pool.describe ++ " \x7d")
  | _, _ => none

/-- The names of the commands in use, in the order of their characters. -/
def names (e : Engine) : List Name := e.desks.names.mergeSort fun a b => decide (a ≤ b)

def describe (e : Engine) : String :=
  "CommandExecutor \x7b commands: " ++ toString e.desks.length ++ " \x7d"

end Engine

end Bulwark
