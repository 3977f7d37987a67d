import Bulwark.Proofs.Frozen

/-!
Calls that cannot be set up.

A call cannot be set up outside a runtime, nor while its command is not in use and has no
usable settings. Which error it fails with then can be told before it is made
(`Engine.refusal?`, `Engine.refusal?_eq_some_iff`), and it fails in no other case
(`Engine.execute_eq_error_iff`).

* `Engine.execute_of_refused`: such a call changes nothing, in whatever state the engine is.
* `Engine.startCall_of_refused`, `Engine.launch_of_refused`: all that is left of it is a
  handle that knows the error.
* `Engine.play_of_refused`: code that makes such a call fails with its error, as code does
  that fails on its own.
* `Engine.refusal?_lasting`: it stays so until the policy changes.
-/

namespace Bulwark.Engine

variable {e : Engine} {spec : CallSpec Script} {error : CallError}

/-- Why a call cannot be set up. That there is no runtime comes first. -/
def refusal? (e : Engine) (spec : CallSpec Script) : Option CallError :=
  match spec.mode with
  | .offRuntime => some .noRuntime
  | _ =>
    match e.settings? spec.command with
    | some _ => none
    | none => (e.policy.settings spec.command).defect?.map .config

theorem refusal?_of_off (off : spec.mode = .offRuntime) : e.refusal? spec = some .noRuntime := by
  simp only [refusal?, off]

theorem refusal?_of_on (on : spec.mode ≠ .offRuntime) : e.refusal? spec =
    match e.settings? spec.command with
    | some _ => none
    | none => (e.policy.settings spec.command).defect?.map .config := by
  unfold refusal?
  split
  · next off => exact absurd off on
  · rfl

/-- A call is refused outside a runtime, whatever the policy, and otherwise where no command is
in use under its name and the settings that one would have are defective. -/
theorem refusal?_eq_some_iff : e.refusal? spec = some error ↔
    spec.mode = .offRuntime ∧ error = .noRuntime ∨
      spec.mode ≠ .offRuntime ∧ e.desks.get? spec.command = none ∧
        ∃ d, (e.policy.settings spec.command).defect? = some d ∧ error = .config d := by
  by_cases off : spec.mode = .offRuntime
  · simp [refusal?_of_off off, off, eq_comm]
  · rw [refusal?_of_on off]
    cases found : e.desks.get? spec.command with
    | some desk => simp [settings?, found, off]
    | none => simp [settings?, found, off, Option.map_eq_some_iff, @eq_comm _ error]

/-- A call fails to be set up just when it is refused, with that error. -/
theorem execute_eq_error_iff :
    (e.execute spec).2 = .error error ↔ e.refusal? spec = some error := by
  by_cases off : spec.mode = .offRuntime
  · simp [execute_of_off off, refusal?_of_off off]
  · rw [refusal?_of_on off]
    cases used : e.settings? spec.command with
    | some s =>
        obtain ⟨desk, found, _⟩ := Option.map_eq_some_iff.mp used
        simp [(execute_of_created off (create_of_used used) found).1]
    | none =>
        cases sound : (e.policy.settings spec.command).defect? with
        | some d => simp [execute_of_wrong off used sound]
        | none => simp [(execute_of_sound off used sound).1]

/-- A call that is refused changes nothing. -/
theorem execute_of_refused (refused : e.refusal? spec = some error) :
    e.execute spec = (e, .error error) := by
  have failed : e.execute spec = ((e.execute spec).1, .error error) :=
    Prod.ext rfl (execute_eq_error_iff.mpr refused)
  rw [failed, execute_of_error failed]

/-- Its caller is left with a handle. -/
theorem startCall_of_refused (refused : e.refusal? spec = some error)
    (direct : spec.mode ≠ .awaited) :
    e.startCall spec = { e with handles := e.handles.put spec.id { source := .failed error } } := by
  unfold startCall
  split
  · next awaited => exact absurd awaited direct
  · simp only [execute_of_refused refused]

/-- So is the task that waits for its verdict. -/
theorem launch_of_refused (refused : e.refusal? spec = some error) :
    e.launch spec = { e with
      handles := e.handles.put spec.id { source := .failed error, awaited := true } } := by
  simp only [launch, execute_of_refused refused]

/-- Code that makes a call that is refused fails with the error of the call. -/
theorem play_of_refused (refused : e.refusal? spec = some error) (k : CallKey) (stage : Stage) :
    e.play k stage (.nested spec) = e.play k stage (.fail (.call error)) := by
  simp only [play, execute_of_refused refused]

/-- A call that is refused stays so until the policy changes. -/
theorem refusal?_lasting (spec : CallSpec Script) (error : CallError) :
    Lasting fun e => e.refusal? spec = some error := by
  by_cases off : spec.mode = .offRuntime
  · simp only [refusal?_of_off off]
    exact ⟨fun _ _ here _ _ _ => here, fun _ _ here _ => here, fun _ _ here _ _ => here,
      fun _ _ here => here⟩
  · simp only [refusal?_of_on off]
    constructor
    case congr =>
      intro e e' here _ policy settings
      rwa [policy, settings]
    case course => exact fun e b here _ => here
    case setNow => exact fun e t here => here
    case establish =>
      intro e n here absent sound
      by_cases same : n = spec.command
      · subst same
        simp [absent, sound] at here
      · rw [settings?_establish, if_neg same]
        exact here

end Bulwark.Engine
