import Bulwark.CallError

/-!
What lies under an error.

Errors come in layers of two kinds. A fallback that fails is put around the error that it was to
make good, and whoever asks for the root cause looks through it. An operation that fails with the
error of a call is put around that error too, and there the search ends: the error that it hides
is the error of another call, and what kept that call from running did not keep this one.

* `CallError.behind_failures`: every error is its root cause behind the fallbacks that failed.
* `CallError.rootCause_eq_iff`: the root cause is the one error that is no failed fallback, and
  that the error is behind some.
* `CallError.denials_under`: under layers of fallbacks it still shows why a call was denied, and
  one layer of an operation hides it, wherever that layer is.
* `CallError.rooted`: the laws of root causes.
-/

namespace Bulwark

inductive Layer where
  /-- A fallback for the error that failed as well. -/
  | fallback (failed : Fault)
  /-- An operation that failed with the error. -/
  | operation

/-- Nobody looks through the layer for a root cause. -/
def Layer.hides : Layer → Bool
  | .fallback _ => false
  | .operation => true

namespace CallError

variable {e root : CallError}

def wrap (e : CallError) : Layer → CallError
  | .fallback failed => .fallback failed e
  | .operation => .operation (.call e)

def under (e : CallError) (layers : List Layer) : CallError := layers.foldl wrap e

/-- The error after fallbacks for it that failed one after the other. -/
def behind (e : CallError) (failed : List Fault) : CallError := e.under (failed.map .fallback)

/-- What the fallbacks failed with that stand before the root cause, the innermost first. -/
def failures : CallError → List Fault
  | .fallback failed cause => cause.failures ++ [failed]
  | _ => []

def denials (e : CallError) : List Bool := [e.isCircuitOpen, e.isMaxConcurrency, e.isTimeout]

/-! ### Layers -/

theorem under_append (e : CallError) (inner outer : List Layer) :
    e.under (inner ++ outer) = (e.under inner).under outer :=
  List.foldl_append

theorem under_concat (e : CallError) (inner : List Layer) (outer : Layer) :
    e.under (inner ++ [outer]) = (e.under inner).wrap outer :=
  under_append e inner [outer]

theorem under_cons (e : CallError) (inner : Layer) (outer : List Layer) :
    e.under (inner :: outer) = (e.wrap inner).under outer := rfl

theorem behind_nil (e : CallError) : e.behind [] = e := rfl

theorem behind_cons (e : CallError) (first : Fault) (later : List Fault) :
    e.behind (first :: later) = (CallError.fallback first e).behind later := rfl

/-- The last failed fallback is the outermost. -/
theorem behind_concat (e : CallError) (inner : List Fault) (failed : Fault) :
    e.behind (inner ++ [failed]) = .fallback failed (e.behind inner) := by
  rw [behind, List.map_append, List.map_singleton, under_concat, behind, wrap]

/-! ### Root causes -/

/-- What passes from what a fallback failed on to the error of the fallback holds of every error,
if it holds of those that are no failed fallbacks. -/
@[elab_as_elim]
theorem fallback_induction {motive : CallError → Prop}
    (fallback : ∀ failed cause, motive cause → motive (.fallback failed cause))
    (bare : ∀ e : CallError, e.isFallbackFailure = false → motive e) (e : CallError) :
    motive e := by
  induction e using rootCause.induct with
  | case1 failed cause ih => exact fallback failed cause ih
  | case2 e other =>
      cases e with
      | fallback failed cause => exact absurd rfl (other failed cause)
      | _ => exact bare _ rfl

theorem isFallbackFailure_iff :
    e.isFallbackFailure = true ↔ ∃ failed cause, e = .fallback failed cause := by
  cases e <;> simp [isFallbackFailure]

theorem isFallbackFailure_eq_false_iff :
    e.isFallbackFailure = false ↔ ∀ failed cause, e ≠ .fallback failed cause := by
  rw [← Bool.not_eq_true, isFallbackFailure_iff]
  simp only [not_exists, ne_eq]

theorem rootCause_of_not_fallback (plain : e.isFallbackFailure = false) : e.rootCause = e := by
  cases e with
  | fallback failed cause => cases plain
  | _ => rfl

theorem failures_of_not_fallback (plain : e.isFallbackFailure = false) : e.failures = [] := by
  cases e with
  | fallback failed cause => cases plain
  | _ => rfl

/-- A root cause is no failed fallback. -/
theorem isFallbackFailure_rootCause (e : CallError) : e.rootCause.isFallbackFailure = false := by
  induction e using fallback_induction with
  | fallback failed cause ih => exact ih
  | bare e plain => rwa [rootCause_of_not_fallback plain]

/-- Every error is its root cause behind the fallbacks that failed. -/
theorem behind_failures (e : CallError) : e.rootCause.behind e.failures = e := by
  induction e using fallback_induction with
  | fallback failed cause ih => rw [rootCause, failures, behind_concat, ih]
  | bare e plain =>
      rw [rootCause_of_not_fallback plain, failures_of_not_fallback plain, behind_nil]

/-- Failed fallbacks do not change the root cause. -/
theorem rootCause_behind (e : CallError) (failed : List Fault) :
    (e.behind failed).rootCause = e.rootCause := by
  induction failed generalizing e with
  | nil => rfl
  | cons first later ih => rw [behind_cons, ih, rootCause]

/-- Failed fallbacks are listed from the first to the last. -/
theorem failures_behind (e : CallError) (failed : List Fault) :
    (e.behind failed).failures = e.failures ++ failed := by
  induction failed generalizing e with
  | nil => rw [behind_nil, List.append_nil]
  | cons first later ih => rw [behind_cons, ih, failures, List.append_assoc, List.singleton_append]

/-- The root cause of a root cause is itself. -/
theorem rootCause_rootCause (e : CallError) : e.rootCause.rootCause = e.rootCause :=
  rootCause_of_not_fallback e.isFallbackFailure_rootCause

/-- The root cause is the one error that is no failed fallback, and that the error is behind
some. -/
theorem rootCause_eq_iff :
    e.rootCause = root ↔ root.isFallbackFailure = false ∧ ∃ failed, root.behind failed = e := by
  constructor
  · rintro rfl
    exact ⟨e.isFallbackFailure_rootCause, e.failures, e.behind_failures⟩
  · rintro ⟨plain, failed, rfl⟩
    rw [rootCause_behind, rootCause_of_not_fallback plain]

/-! ### Denials -/

theorem isCircuitOpen_iff : e.isCircuitOpen = true ↔ e.rootCause = .circuitOpen := by
  unfold isCircuitOpen
  cases e.rootCause <;> simp

theorem isMaxConcurrency_iff : e.isMaxConcurrency = true ↔ e.rootCause = .maxConcurrency := by
  unfold isMaxConcurrency
  cases e.rootCause <;> simp

theorem isTimeout_iff : e.isTimeout = true ↔ e.rootCause = .timeout := by
  unfold isTimeout
  cases e.rootCause <;> simp

theorem denials_fallback (failed : Fault) (cause : CallError) :
    (fallback failed cause).denials = cause.denials := rfl

theorem denials_operation (inner : Fault) :
    (operation inner).denials = [false, false, false] := rfl

/-- Fallbacks are looked through, and an operation hides why a call was denied, however deep both
are nested in each other. -/
theorem denials_under (e : CallError) (layers : List Layer) :
    (e.under layers).denials =
      if layers.any Layer.hides then [false, false, false] else e.denials := by
  induction layers generalizing e with
  | nil => rfl
  | cons inner rest ih =>
      rw [under_cons, ih, List.any_cons]
      cases inner with
      | fallback failed => rw [wrap, denials_fallback, Layer.hides, Bool.false_or]
      | operation =>
          rw [wrap, denials_operation, Layer.hides, Bool.true_or, if_pos rfl, ite_self]

/-- The search for a root cause ends at the outermost operation that failed with an error of a
call. -/
theorem rootCause_under_operation (e : CallError) (inner : List Layer) (failed : List Fault) :
    ((e.under (inner ++ [.operation])).behind failed).rootCause =
      .operation (.call (e.under inner)) := by
  rw [rootCause_behind, under_concat, wrap, rootCause]
  intro failed cause
  exact nofun

/-- The laws of root causes, for an error of any nesting. -/
structure Rooted (e : CallError) : Prop where
  /-- The root cause is the one error that is no failed fallback, and that the error is behind
  some. -/
  root : ∀ root, e.rootCause = root ↔
    (∀ failed cause, root ≠ .fallback failed cause) ∧ ∃ failed, root.behind failed = e
  /-- The error is that root cause behind the fallbacks that failed, and each that fails later
  is one more of them. -/
  assembled : e.rootCause.behind e.failures = e
  counted : ∀ failed, (e.behind failed).failures = e.failures ++ failed
  /-- A root cause is never a failed fallback, and it is its own root cause. -/
  bare : ∀ failed cause, e.rootCause ≠ .fallback failed cause
  idempotent : e.rootCause.rootCause = e.rootCause
  /-- Fallbacks for the error that fail as well, however many, do not change the root cause. -/
  kept : ∀ failed, (e.behind failed).rootCause = e.rootCause
  /-- An operation that fails with the error of a call is a root cause, whatever that error is and
  however many fallbacks fail on it. -/
  ended : ∀ inner failed, ((e.under (inner ++ [.operation])).behind failed).rootCause =
    .operation (.call (e.under inner))
  /-- A call is denied as its root cause says, and not in two ways. -/
  denied : (e.isCircuitOpen = true ↔ e.rootCause = .circuitOpen) ∧
    (e.isMaxConcurrency = true ↔ e.rootCause = .maxConcurrency) ∧
    (e.isTimeout = true ↔ e.rootCause = .timeout)
  exclusive : ¬ (e.isCircuitOpen = true ∧ e.isMaxConcurrency = true) ∧
    ¬ (e.isCircuitOpen = true ∧ e.isTimeout = true) ∧
    ¬ (e.isMaxConcurrency = true ∧ e.isTimeout = true)
  /-- Fallbacks that fail do not change it. -/
  unmoved : ∀ failed, (e.behind failed).isCircuitOpen = e.isCircuitOpen ∧
    (e.behind failed).isMaxConcurrency = e.isMaxConcurrency ∧
    (e.behind failed).isTimeout = e.isTimeout
  /-- What an operation failed with does not say that its call was denied. -/
  operation : ∀ inner : Fault, (CallError.operation inner).isCircuitOpen = false ∧
    (CallError.operation inner).isMaxConcurrency = false ∧
    (CallError.operation inner).isTimeout = false
  /-- Under layers of both kinds, a denial shows as long as none of them is an operation. -/
  layered : ∀ layers, (e.under layers).denials =
    if layers.any Layer.hides then [false, false, false] else e.denials
  /-- It is the outermost layer that makes a failed fallback. -/
  outermost : e.isFallbackFailure = true ↔ ∃ failed cause, e = .fallback failed cause

/-- Root causes are what their laws say, however deep errors are nested. -/
theorem rooted (e : CallError) : e.Rooted where
  root root := by
    rw [rootCause_eq_iff, isFallbackFailure_eq_false_iff]
  assembled := e.behind_failures
  counted := e.failures_behind
  bare := isFallbackFailure_eq_false_iff.mp e.isFallbackFailure_rootCause
  idempotent := e.rootCause_rootCause
  kept := e.rootCause_behind
  ended := e.rootCause_under_operation
  denied := ⟨isCircuitOpen_iff, isMaxConcurrency_iff, isTimeout_iff⟩
  exclusive := by
    rw [isCircuitOpen_iff, isMaxConcurrency_iff, isTimeout_iff]
    refine ⟨?_, ?_, ?_⟩
    all_goals
      rintro ⟨one, other⟩
      rw [one] at other
      cases other
  unmoved := by
    intro failed
    simp only [isCircuitOpen, isMaxConcurrency, isTimeout, rootCause_behind, and_self]
  operation _ := ⟨rfl, rfl, rfl⟩
  layered := e.denials_under
  outermost := isFallbackFailure_iff

end CallError

end Bulwark
