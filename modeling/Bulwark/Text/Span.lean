import Bulwark.Time

/-!
Durations as text.

A duration is written in the largest of the units `s`, `ms`, `µs` and `ns` that
has a nonzero whole part, with as many decimals as it needs and no trailing
zeros: `50ms`, `1.5s`, `0ns`.
-/

namespace Bulwark.Text

/-- The decimals of `part` out of `10 ^ places`, without trailing zeros. -/
def decimals (part places : Nat) : List Char :=
  let digits := Nat.toDigits 10 part
  let padded := List.replicate (places - digits.length) '0' ++ digits
  (padded.reverse.dropWhile (· == '0')).reverse

/-- A whole part, its decimals if there are any, and the unit. -/
def measure (whole part places : Nat) (unit : String) : String :=
  match decimals part places with
  | [] => toString whole ++ unit
  | digits => toString whole ++ "." ++ String.ofList digits ++ unit

def span (d : Duration) : String :=
  if 1000000000 ≤ d.nanos then measure (d.nanos / 1000000000) (d.nanos % 1000000000) 9 "s"
  else if 1000000 ≤ d.nanos then measure (d.nanos / 1000000) (d.nanos % 1000000) 6 "ms"
  else if 1000 ≤ d.nanos then measure (d.nanos / 1000) (d.nanos % 1000) 3 "µs"
  else toString d.nanos ++ "ns"

end Bulwark.Text
