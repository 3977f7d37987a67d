import Bulwark.Proofs.Habit
import Bulwark.Proofs.Restricted
import Bulwark.Proofs.Trips

/-!
What every step of a schedule keeps.

Whatever callers and tasks do comes down to a few acts: a course of events on the board, a
command that is created, a clock that moves. What these keep is kept by every step that
leaves the policy alone (`Lasting.step`). Two such facts:

* `Engine.Heir`: commands in use keep their settings, and a command that comes into use has
  those that the policy gave it (`Heir.lasting`).
* `Engine.Furnished`: the circuit of a command in use serves its settings
  (`Furnished.lasting`).
-/

namespace Bulwark

/-- A circuit trips, sleeps and counts as the settings say. -/
structure Circuit.Serves (c : Circuit) (s : Settings) : Prop where
  terms : c.terms = (s.errorThresholdPct, s.volumeThreshold, s.sleepWindow)
  window : c.window.reset = .make s.rollingWindow s.windowBuckets

theorem Circuit.serves_make (s : Settings) (now : Instant) : (make s now).Serves s := ⟨rfl, rfl⟩

theorem Circuit.Serves.undergo {c : Circuit} {s : Settings} (serves : c.Serves s) (now : Instant)
    (d : Deed) : (c.undergo now d).circuit.Serves s where
  terms := (c.terms_undergo now d).trans serves.terms
  window := by rw [window_undergo, Window.reset_after, serves.window]

namespace Board

/-- Asking a circuit is a course. -/
theorem course_allow (caller : Option CallKey) (n : Name) (b : Board) :
    Course (fun _ => True) b (allow bell caller n b).1 := by
  cases found : b.circuits.get? n with
  | none =>
      simp only [allow, found]
      exact .refl
  | some c =>
      have asked : Course (fun _ => True) b (b.perform n c (.ask caller)) :=
        .deed .refl found fun _ _ => trivial
      have told := allow_calm_of_ring (ring_calm 3) caller found
      exact asked.trans (told.mono fun _ _ => trivial)

/-- So is reporting to it. -/
theorem course_report (caller : Option CallKey) (n : Name) (r : Report) (b : Board) :
    Course (fun _ => True) b (report bell caller n r b) := by
  cases found : b.circuits.get? n with
  | none =>
      simp only [report, found]
      exact .refl
  | some c =>
      have recorded : Course (fun _ => True) b (b.perform n c (.absorb caller r)) :=
        .deed .refl found fun _ _ => trivial
      have told := report_calm_of_ring (ring_calm 3) caller r found
      exact recorded.trans (told.mono fun _ _ => trivial)

end Board

/-- Whatever happens on a board, a circuit serves the same settings. -/
theorem Board.Course.serves {kind : Entry → Prop} {b b' : Board} (course : Course kind b b')
    {n : Name} {s : Settings} (before : ∃ c, b.circuits.get? n = some c ∧ c.Serves s) :
    ∃ c, b'.circuits.get? n = some c ∧ c.Serves s := by
  induction course with
  | refl => exact before
  | note _ _ _ ih | setHook _ _ _ ih => exact ih
  | @deed b' m c d _ known _ ih =>
      obtain ⟨e, found, serves⟩ := ih
      by_cases same : m = n
      · subst same
        obtain rfl := Option.some.inj (known.symm.trans found)
        exact ⟨_, Roster.get?_put_self _ _ _, serves.undergo b'.now d⟩
      · exact ⟨e, (Roster.get?_put_of_ne _ _ same).trans found, serves⟩

namespace Engine

variable {holds : Engine → Prop} {e e' e'' : Engine} {n : Name}

/-! ### Creating commands -/

/-- The engine with a new command, under the settings that the policy gives it. -/
def establish (e : Engine) (n : Name) : Engine :=
  let s := e.policy.settings n
  let desk : Desk := { settings := s, pool := .full s.maxConcurrent }
  ({ e with desks := e.desks.put n desk, board := e.board.putCircuit n (.make s e.now) }).remark n
    .created

/-- A command in use is not created again. -/
theorem create_of_used {s : Settings} (used : e.settings? n = some s) :
    e.create n = (e, none) := by
  obtain ⟨desk, found, _⟩ := Option.map_eq_some_iff.mp used
  simp only [create, found]

theorem create_of_wrong {d : Defect} (absent : e.settings? n = none)
    (wrong : (e.policy.settings n).defect? = some d) : e.create n = (e, some d) := by
  simp only [create, Option.map_eq_none_iff.mp absent, wrong]

theorem create_of_sound (absent : e.settings? n = none)
    (sound : (e.policy.settings n).defect? = none) : e.create n = (e.establish n, none) := by
  simp only [create, Option.map_eq_none_iff.mp absent, sound, establish]

/-- A command that is established has the settings that the policy then gives. -/
theorem settings?_establish (e : Engine) (m n : Name) :
    (e.establish m).settings? n =
      if m = n then some (e.policy.settings m) else e.settings? n := by
  simp only [establish, settings?, desks_remark, Roster.get?_put]
  split <;> rfl

/-! ### What every step keeps -/

/-- What is kept whatever happens, but for changes of the policy. -/
structure Lasting (holds : Engine → Prop) : Prop where
  congr : ∀ e e', holds e → e'.board = e.board → e'.policy = e.policy →
    (∀ n, e'.settings? n = e.settings? n) → holds e'
  course : ∀ e b, holds e → Board.Course (fun _ => True) e.board b → holds { e with board := b }
  establish : ∀ e n, holds e → e.settings? n = none → (e.policy.settings n).defect? = none →
    holds (e.establish n)
  setNow : ∀ e t, holds e → holds (e.setNow t)

namespace Lasting

variable (lasting : Lasting holds)

include lasting

theorem create (here : holds e) (n : Name) : holds (e.create n).1 := by
  cases absent : e.settings? n with
  | some s => rwa [create_of_used absent]
  | none =>
      cases sound : (e.policy.settings n).defect? with
      | some d => rwa [create_of_wrong absent sound]
      | none =>
          rw [create_of_sound absent sound]
          exact lasting.establish e n here absent sound

theorem ask (here : holds e) (k : CallKey) : holds (e.ask k).1 :=
  lasting.course e _ here (Board.course_allow (some k) k.command e.board)

theorem report (here : holds e) (k : CallKey) (o : Outcome) (took : Duration) :
    holds (e.report k o took) := by
  unfold Engine.report
  split
  · exact here
  · exact lasting.course e _ here (Board.course_report (some k) k.command _ e.board)

theorem habit (k : CallKey) : Habit k holds fun _ => True where
  congr := lasting.congr
  note e _ here plain := lasting.course e _ here (.note .refl trivial plain.aside)
  create _ n here := lasting.create here n
  lasting := .always k
  embark e _ here _ := ⟨lasting.course e _ here (.note .refl trivial rfl), trivial⟩
  ask _ here := lasting.ask here k
  grant _ _ _ := trivial
  report _ o took here _ := lasting.report here k o took

theorem served : Served holds where
  serve e n request here := by
    refine lasting.course e _ here ?_
    exact (Board.serve_calm_of_ring (Board.ring_calm 3) n request _).mono fun _ _ => trivial
  setHook e occasion hook here := lasting.course e _ here (.setHook occasion hook .refl)

theorem take (here : holds e) (u : Turn) : holds (e.take u) := by
  rcases u with spec | ⟨j, stage | _⟩
  · exact (lasting.habit default).launch here spec
  · exact (lasting.habit j).pollCode here stage fun _ _ _ => trivial
  · exact (lasting.habit j).pollWatch here fun _ _ _ _ => trivial

/-- What lasts is kept up by any number of turns. -/
theorem settle (here : holds e) (turns : Nat) : holds (settle turns e) := by
  induction turns generalizing e with
  | zero => exact here
  | succ turns ih =>
      unfold Engine.settle
      split
      · exact here
      · next u rest _ =>
          have unqueued : holds { e with queue := rest } :=
            (lasting.habit default).aside here rfl rfl rfl
          exact ih (lasting.take unqueued u)

theorem rest (here : holds e) : holds e.rest := lasting.settle here _

theorem fire (here : holds e) (a : Alarm) : holds (e.fire a) := by
  have habit := lasting.habit default
  exact habit.enqueue (habit.updateCall (lasting.setNow e a.due here) a.call _) _

/-- What lasts is kept up while time passes. -/
theorem runUntil (here : holds e) (turns : Nat) (t : Instant) : holds (runUntil turns t e) := by
  induction turns generalizing e with
  | zero => exact lasting.setNow e t here
  | succ turns ih =>
      unfold Engine.runUntil
      split
      · exact lasting.setNow e t here
      · next a _ =>
          split
          · exact ih (lasting.rest (lasting.fire here a))
          · exact lasting.setNow e t here

/-- A step of a schedule, with all that goes on after it. -/
theorem step (here : holds e) (s : Step)
    (changed : ∀ c, s = .change c → holds { e with policy := e.policy.change c }) :
    holds (e.step s).1 := by
  refine lasting.rest ?_
  cases s with
  | advance d => exact lasting.runUntil here _ _
  | _ => exact (lasting.habit default).begin here lasting.served (by simp) changed

end Lasting

/-! ### Settings -/

/-- What one engine leaves to another, under one policy: the commands in use with their
settings, and new ones with those that the policy gives them. -/
structure Heir (e e' : Engine) : Prop where
  policy : e'.policy = e.policy
  kept : ∀ n s, e.settings? n = some s → e'.settings? n = some s
  founded : ∀ n s, e.settings? n = none → e'.settings? n = some s →
    s = e.policy.settings n ∧ s.defect? = none

namespace Heir

theorem refl (e : Engine) : Heir e e where
  policy := rfl
  kept _ _ used := used
  founded _ _ absent used := by
    rw [absent] at used
    cases used

theorem establish (heir : Heir e e') (absent : e'.settings? n = none)
    (sound : (e'.policy.settings n).defect? = none) : Heir e (e'.establish n) where
  policy := heir.policy
  kept m s used := by
    have differ : n ≠ m := by
      rintro rfl
      rw [heir.kept n s used] at absent
      cases absent
    rw [settings?_establish, if_neg differ]
    exact heir.kept m s used
  founded m s before used := by
    rw [settings?_establish] at used
    split at used
    · next same =>
        subst same
        obtain rfl := Option.some.inj used
        exact ⟨congrArg (·.settings n) heir.policy, sound⟩
    · exact heir.founded m s before used

/-- Whatever happens, settings are left as they are. -/
theorem lasting (e : Engine) : Lasting (Heir e) where
  congr _ _ heir _ policy settings := by
    refine ⟨policy.trans heir.policy, fun n s used => ?_, fun n s absent used => ?_⟩
    · exact (settings n).trans (heir.kept n s used)
    · exact heir.founded n s absent ((settings n).symm.trans used)
  course _ _ heir _ := ⟨heir.policy, heir.kept, heir.founded⟩
  establish _ _ heir absent sound := heir.establish absent sound
  setNow _ _ heir := ⟨heir.policy, heir.kept, heir.founded⟩

end Heir

/-- Every command in use has a circuit that serves its settings. -/
def Furnished (e : Engine) : Prop :=
  ∀ n s, e.settings? n = some s → ∃ c, e.board.circuits.get? n = some c ∧ c.Serves s

theorem Furnished.lasting : Lasting Furnished where
  congr _ _ furnished board _ settings n s used := by
    rw [board]
    exact furnished n s ((settings n).symm.trans used)
  course _ _ furnished course n s used := course.serves (furnished n s used)
  establish e m furnished absent _ n s used := by
    rw [settings?_establish] at used
    split at used
    · next same =>
        subst same
        obtain rfl := Option.some.inj used
        exact ⟨_, Roster.get?_put_self _ _ _, Circuit.serves_make _ _⟩
    · next differ =>
        obtain ⟨c, found, serves⟩ := furnished n s used
        exact ⟨c, (Roster.get?_put_of_ne _ _ differ).trans found, serves⟩
  setNow _ _ furnished := furnished

end Engine

end Bulwark
