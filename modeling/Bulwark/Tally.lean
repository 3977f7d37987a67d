import Bulwark.Outcome

/-!
Tallies: how often each outcome occurred.

A tally counts outcomes one by one, and from the counts follow the requests,
the errors and the error rate in whole percent, rounded down. Fallback outcomes
are counted but are neither requests nor errors of requests.
-/

namespace Bulwark

structure Tally where
  success : Nat := 0
  failure : Nat := 0
  timeout : Nat := 0
  rejected : Nat := 0
  shortCircuited : Nat := 0
  fallbackSuccess : Nat := 0
  fallbackFailure : Nat := 0
  deriving DecidableEq, Repr, Inhabited

namespace Tally

def empty : Tally := {}

def count (t : Tally) : Outcome → Nat
  | .success => t.success
  | .failure => t.failure
  | .timeout => t.timeout
  | .rejected => t.rejected
  | .shortCircuited => t.shortCircuited
  | .fallbackSuccess => t.fallbackSuccess
  | .fallbackFailure => t.fallbackFailure

def bump (t : Tally) : Outcome → Tally
  | .success => { t with success := t.success + 1 }
  | .failure => { t with failure := t.failure + 1 }
  | .timeout => { t with timeout := t.timeout + 1 }
  | .rejected => { t with rejected := t.rejected + 1 }
  | .shortCircuited => { t with shortCircuited := t.shortCircuited + 1 }
  | .fallbackSuccess => { t with fallbackSuccess := t.fallbackSuccess + 1 }
  | .fallbackFailure => { t with fallbackFailure := t.fallbackFailure + 1 }

def merge (t u : Tally) : Tally where
  success := t.success + u.success
  failure := t.failure + u.failure
  timeout := t.timeout + u.timeout
  rejected := t.rejected + u.rejected
  shortCircuited := t.shortCircuited + u.shortCircuited
  fallbackSuccess := t.fallbackSuccess + u.fallbackSuccess
  fallbackFailure := t.fallbackFailure + u.fallbackFailure

/-- The requests: all outcomes but those of fallbacks. -/
def requests (t : Tally) : Nat :=
  t.success + t.failure + t.timeout + t.rejected + t.shortCircuited

/-- The requests that did not succeed. -/
def errors (t : Tally) : Nat :=
  t.failure + t.timeout + t.rejected + t.shortCircuited

/-- The error rate in whole percent, rounded down, and zero without requests. -/
def errorPct (t : Tally) : Nat :=
  if t.requests = 0 then 0 else t.errors * 100 / t.requests

def counts (t : Tally) : List Nat := Outcome.all.map t.count

/-! ### What each operation does to the counts -/

@[ext] theorem ext_count {t u : Tally} (same : ∀ o, t.count o = u.count o) : t = u := by
  cases t
  cases u
  simpa [count] using ⟨same .success, same .failure, same .timeout, same .rejected,
    same .shortCircuited, same .fallbackSuccess, same .fallbackFailure⟩

@[simp] theorem count_empty (o : Outcome) : empty.count o = 0 := by cases o <;> rfl

@[simp] theorem count_bump (t : Tally) (o p : Outcome) :
    (t.bump o).count p = t.count p + if p = o then 1 else 0 := by
  cases o <;> cases p <;> simp [bump, count]

@[simp] theorem count_merge (t u : Tally) (o : Outcome) :
    (t.merge u).count o = t.count o + u.count o := by cases o <;> rfl

/-- The requests are the occurrences of the primary outcomes. -/
theorem requests_eq_foldr (t : Tally) :
    t.requests = (Outcome.all.filter (·.isPrimary)).foldr (fun o n => t.count o + n) 0 := by
  simp [requests, Outcome.all, Outcome.isPrimary, count]
  omega

/-- The errors are the occurrences of the primary outcomes that are errors. -/
theorem errors_eq_foldr (t : Tally) :
    t.errors = (Outcome.all.filter fun o => o.isPrimary && o.isError).foldr
      (fun o n => t.count o + n) 0 := by
  simp [errors, Outcome.all, Outcome.isPrimary, Outcome.isError, count]
  omega

end Tally

end Bulwark
