import Bulwark.Proofs.Tandem

/-!
A panic is an error like any other.

In a schedule, code that panics is replaced by code that fails at the same point
(`Step.Calmed`): with the error that tells of the panic by its message, or by a fixed text
if it had none, and that has no source (`Script.Twin`). That may be the code of an operation
or of a fallback, of a call that a caller makes or of one that other code makes, and it may
come to panic at any time, before the deadline of its call or after it. Any panics may be
replaced, and any others left.

* `Engine.SameButEnds`: engines that are the same but for code yet to run and for what their
  journals tell of how code ended. Of a replaced panic that is the remark that it was caught,
  and the mark that its operation failed in its place (`Recounts`).
* `Engine.panics_like_errors`: so it is at every moment of both schedules, and every step of
  both is answered alike.
-/

namespace Bulwark

/-- A step with code that fails in the place of code that panics. What is told under an id is
code of the stage that waits there. -/
inductive Step.Calmed (panics : Panics) (e : Engine) : Step → Step → Prop where
  | same (st : Step) : Calmed panics e st st
  | call {spec spec' : CallSpec Script} : spec.Twin panics spec' →
      Calmed panics e (.call spec) (.call spec')
  | calls {specs specs' : List (CallSpec Script)} :
      List.Forall₂ (CallSpec.Twin panics) specs specs' →
        Calmed panics e (.calls specs) (.calls specs')
  | finish (id : String) {next next' : Script} :
      (∀ k stage, e.manual? id = some (k, stage) → Script.Twin panics stage next next') →
        Calmed panics e (.finish id next) (.finish id next')

/-- The steps of two schedules, of which the second has failures in the place of panics. -/
def Engine.Calms (panics : Panics) : Engine → List (Step × Step) → Prop
  | _, [] => True
  | e, (st, st') :: rest => st.Calmed panics e st' ∧ Calms panics (e.step st).1 rest

namespace Engine

/-- Engines that are the same but for code yet to run and for what their journals tell of how
code ended. -/
structure SameButEnds (panics : Panics) (e e' : Engine) : Prop where
  now : e'.now = e.now
  circuits : e'.board.circuits = e.board.circuits
  hooks : e'.board.hooks = e.board.hooks
  policy : e'.policy = e.policy
  /-- Commands in use, with their pools, and their calls but for code. -/
  desks : Roster.Alike (Desk.Twin panics) e.desks e'.desks
  queue : e'.queue = e.queue
  handles : ∀ id, e'.handles.get? id = e.handles.get? id
  tickets : e'.tickets = e.tickets
  journal : Recounts panics e.board.journal e'.board.journal

/-- What two schedules have in common of which the second has failures in the place of
panics. -/
structure PanicsLikeErrors (panics : Panics) (start : Engine) (steps : List (Step × Step)) :
    Prop where
  /-- At every moment nothing differs but how code ended, in the journal. -/
  same : ∀ before after, steps = before ++ after →
    (start.run (before.map (·.1))).SameButEnds panics (start.run (before.map (·.2)))
  /-- Every step is answered alike. -/
  answer : ∀ before st st' after, steps = before ++ (st, st') :: after →
    ((start.run (before.map (·.2))).step st').2 = ((start.run (before.map (·.1))).step st).2

variable {panics : Panics} {e e' : Engine}

/-- Twins at rest are the same but for the ends of the calls that panicked. -/
theorem Twin.sameButEnds {seen : List String} (twin : Twin (Margin.mk panics [] seen).idle e e')
    (atRest : e.queue = []) : e.SameButEnds panics e' where
  now := twin.now
  circuits := twin.board.circuits
  hooks := twin.board.hooks
  policy := twin.policy
  desks := twin.desks
  queue := by rw [atRest, twin.queue_nil atRest]
  handles id := by
    have near : (Margin.mk panics [] seen).Near e.handles e'.handles := twin.handles
    exact near.same id (by simp)
  tickets := twin.tickets
  journal := twin.board.journal

def together (steps : List (Step × Step)) : Score := steps.map fun x => (x.1, some x.2)

theorem first_together (steps : List (Step × Step)) :
    (together steps).first = steps.map (·.1) := by
  simp [together, Score.first]

theorem second_together (steps : List (Step × Step)) :
    (together steps).second = steps.map (·.2) := by
  simp [together, Score.second]

/-- Schedules of which the second has failures for panics are done in tandem. -/
theorem Calms.suits {steps : List (Step × Step)} (calms : e.Calms panics steps)
    (seen : List String) : (together steps).Suits ⟨panics, [], seen⟩ e := by
  induction steps generalizing e seen with
  | nil => trivial
  | cons x rest ih =>
      obtain ⟨st, st'⟩ := x
      obtain ⟨calmed, later⟩ := calms
      refine ⟨by simp [Step.Fresh], ?_, ih later _⟩
      cases calmed with
      | same => exact .same st
      | call same => exact .call same
      | calls same => exact .calls same
      | finish id code => exact .finish id code

/-- A panic does what an error does that says so, whatever else is done. -/
theorem panics_like_errors (defaults : Overrides) (items : List (Name × Overrides))
    (hooks : Hooks) (panics : Panics) (steps : List (Step × Step))
    (calms : (build defaults items hooks).Calms panics steps) :
    PanicsLikeErrors panics (build defaults items hooks) steps := by
  have suits := calms.suits []
  constructor
  case same =>
    rintro before after rfl
    rw [together, List.map_append] at suits
    have twin := suits.twin
    rw [Margin.through_eq] at twin
    have ends := twin.sameButEnds (ordered_run defaults items hooks _).2
    rwa [← together, first_together, second_together] at ends
  case answer =>
    rintro before st st' after rfl
    rw [together, List.map_append, List.map_cons] at suits
    have answered := suits.answer fun id _ => by simp
    rwa [← together, first_together, second_together] at answered

/-- An operation panics, with a fallback that panics too, another at the end of a call that it
made itself, and a third after its deadline, when it is told to; the last panic has no text. -/
theorem panics_like_errors_of_late :
    let boom : Fault := .plain { message := "operation panicked: boom", sources := [] }
    let lost : Fault := .plain { message := "fallback panicked: lost", sources := [] }
    let mute : Fault := .plain {
      message := "operation panicked: <non-string panic payload>", sources := [] }
    let steps : List (Step × Step) := [
      (.call ⟨"both", "svc", .panic (some "boom"), some (.panic (some "lost")), .detached⟩,
        .call ⟨"both", "svc", .fail boom, some (.fail lost), .detached⟩),
      (.calls [⟨"outer", "svc", .nested ⟨"inner", "svc", .after ⟨5000000⟩ (.panic (some "boom")),
          none, .detached⟩, none, .awaited⟩, ⟨"late", "svc", .manual, none, .detached⟩],
        .calls [⟨"outer", "svc", .nested ⟨"inner", "svc", .after ⟨5000000⟩ (.fail boom),
          none, .detached⟩, none, .awaited⟩, ⟨"late", "svc", .manual, none, .detached⟩]),
      (.advance ⟨2000000000⟩, .advance ⟨2000000000⟩),
      (.finish "late" (.panic none), .finish "late" (.fail mute)),
      (.poll "both", .poll "both"), (.poll "outer", .poll "outer")]
    (build {} [] {}).Calms (fun _ _ => True) steps ∧
      PanicsLikeErrors (fun _ _ => True) (build {} [] {}) steps := by
  intro boom lost mute steps
  have calms : (build {} [] {}).Calms (fun _ _ => True) steps := by
    refine ⟨.call ⟨rfl, rfl, rfl, .operationPanic trivial, .some (.fallbackPanic trivial)⟩,
      .calls (.cons ?_ (.cons (.refl _ _) .nil)), .same _, .finish _ fun k stage found => ?_,
      .same _, .same _, trivial⟩
    · exact ⟨rfl, rfl, rfl, .nested (.after (.operationPanic trivial)), .none⟩
    · have waits : some ((⟨"svc", 1⟩ : CallKey), Stage.operation) = some (k, stage) :=
        Eq.trans (Eq.symm (by decide)) found
      cases waits
      exact .operationPanic trivial
  exact ⟨calms, panics_like_errors {} [] {} _ steps calms⟩

end Engine

end Bulwark
