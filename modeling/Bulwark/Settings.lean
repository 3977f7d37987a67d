import Bulwark.Time

/-!
Settings of a command, and the overrides they are resolved from.

A command runs under settings: a timeout, a limit on concurrent calls, the
conditions under which its circuit opens, and the window over which outcomes
count. Overrides set some of them and leave the rest to a base. Settings may be
unusable; `Settings.defect?` names the first defect in a fixed order.
-/

namespace Bulwark

/-- What a command runs under. -/
structure Settings where
  timeout : Duration := .ofMillis 1000
  maxConcurrent : Nat := 10
  errorThresholdPct : Nat := 50
  volumeThreshold : Nat := 20
  sleepWindow : Duration := .ofMillis 5000
  rollingWindow : Duration := .ofMillis 10000
  windowBuckets : Nat := 10
  deriving DecidableEq, Repr, Inhabited

inductive Defect where
  | zeroTimeout
  | zeroConcurrency
  | concurrencyTooLarge (limit : Nat)
  | thresholdOutOfRange (pct : Nat)
  | zeroBuckets
  | windowTooShort (millis buckets : Nat)
  deriving DecidableEq, Repr, Inhabited

namespace Defect

def message : Defect → String
  | zeroTimeout => "timeout must be greater than zero"
  | zeroConcurrency => "max concurrent requests must be at least 1"
  | concurrencyTooLarge limit =>
      "max concurrent requests " ++ toString limit ++ " exceeds the supported maximum"
  | thresholdOutOfRange pct => "error threshold " ++ toString pct ++ "% is outside 0..=100"
  | zeroBuckets => "rolling window must have at least one bucket"
  | windowTooShort millis buckets =>
      "rolling window of " ++ toString millis ++ "ms is too short for " ++ toString buckets ++
        " buckets"

end Defect

/-- The most tickets that a pool can hold. -/
def maxTickets : Nat := 2305843009213693951

namespace Settings

def library : Settings := {}

/-- The first defect of the settings, if they are unusable. -/
def defect? (s : Settings) : Option Defect :=
  if s.timeout.nanos = 0 then some .zeroTimeout
  else if s.maxConcurrent = 0 then some .zeroConcurrency
  else if maxTickets < s.maxConcurrent then some (.concurrencyTooLarge s.maxConcurrent)
  else if 100 < s.errorThresholdPct then some (.thresholdOutOfRange s.errorThresholdPct)
  else if s.windowBuckets = 0 then some .zeroBuckets
  else if s.rollingWindow.millis < s.windowBuckets then
    some (.windowTooShort s.rollingWindow.millis s.windowBuckets)
  else none

/-- Usable settings: what a command can be run under. -/
structure Usable (s : Settings) : Prop where
  timeout : 0 < s.timeout.nanos
  concurrency : 1 ≤ s.maxConcurrent ∧ s.maxConcurrent ≤ maxTickets
  threshold : s.errorThresholdPct ≤ 100
  buckets : 1 ≤ s.windowBuckets
  width : s.windowBuckets ≤ s.rollingWindow.millis

/-- Settings have no defect iff they are usable. -/
theorem defect?_eq_none_iff (s : Settings) : s.defect? = none ↔ s.Usable := by
  constructor
  · intro sound
    simp only [defect?] at sound
    repeat' split at sound
    case isFalse => exact ⟨by omega, by omega, by omega, by omega, by omega⟩
    all_goals simp at sound
  · rintro ⟨timeout, concurrency, threshold, buckets, width⟩
    simp only [defect?]
    repeat rw [if_neg (by omega)]

end Settings

/-- The part of the settings that is set for one command or for all. The length
of the window and its division are set together. -/
structure Overrides where
  timeout : Option Duration := none
  maxConcurrent : Option Nat := none
  errorThresholdPct : Option Nat := none
  volumeThreshold : Option Nat := none
  sleepWindow : Option Duration := none
  window : Option (Duration × Nat) := none
  deriving DecidableEq, Repr, Inhabited

namespace Overrides

def none : Overrides := {}

def resolve (o : Overrides) (base : Settings) : Settings where
  timeout := o.timeout.getD base.timeout
  maxConcurrent := o.maxConcurrent.getD base.maxConcurrent
  errorThresholdPct := o.errorThresholdPct.getD base.errorThresholdPct
  volumeThreshold := o.volumeThreshold.getD base.volumeThreshold
  sleepWindow := o.sleepWindow.getD base.sleepWindow
  rollingWindow := (o.window.map (·.1)).getD base.rollingWindow
  windowBuckets := (o.window.map (·.2)).getD base.windowBuckets

@[simp] theorem resolve_none (base : Settings) : none.resolve base = base := rfl

end Overrides

end Bulwark
