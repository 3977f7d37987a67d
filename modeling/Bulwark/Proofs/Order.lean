import Bulwark.Proofs.Tale

/-!
What holds of an engine between two turns.

For every call: its bookkeeping fits together (`Call.Sound`), agrees with what
the journal tells of its operation (`Call.Told`) and of its resolution
(`Resolution`), and each of its parts that has not ended has somebody who will
see to it (`Engine.Tended`): a turn in the queue, a timer, a call that owes it a
verdict, or the caller who is to tell it how to go on. For the engine as a
whole: names are not repeated, every command in use has a circuit, usable
settings and a pool whose tickets are all accounted for (`Engine.Orderly`).

`Engine.Ordered` says all this of every call but perhaps one, whose turn it is.
A regime says how far the runtime may stray: whether workers are held up between
two of their acts, and whether timers go off late.
-/

namespace Bulwark

/-- How far the runtime may stray from running everything at its time. -/
inductive Regime where
  /-- Workers may be held up, and timers may go off late. -/
  | loose
  /-- No worker is held up, and no timer is overdue. -/
  | punctual
  /-- Besides, every deadline lies ahead. -/
  | ahead
  deriving DecidableEq, Repr

def Regime.Timer (r : Regime) (now due : Instant) : Prop :=
  r = .loose ∨ now.nanos ≤ due.nanos

def Regime.Deadline (r : Regime) (now due : Instant) : Prop :=
  r = .loose ∨ now.nanos ≤ due.nanos ∧ (r = .ahead → now.nanos < due.nanos)

/-- How far a worker has come, whatever its operation waits for. -/
inductive Phase where
  | queued
  | asked
  | running
  | done
  deriving DecidableEq, Repr

def Work.phase : Work → Phase
  | .queued _ => .queued
  | .asked _ _ => .asked
  | .running _ _ => .running
  | .done => .done

/-- The bookkeeping of a call fits together. -/
structure Call.Sound (c : Call) : Prop where
  shut_iff : c.slot = .shut ↔ c.watch = .done
  vacant : c.slot = .vacant → c.work.phase ≠ .running
  holding : c.slot = .holding → c.work.phase = .running ∨ c.work.phase = .done
  claimed : c.work.phase = .done → c.claimed = true
  armed : ∀ due, c.watch = .armed due → c.work.phase ≠ .done
  dismissed : c.watch = .dismissed → c.work.phase = .done
  overtaken : c.claimed = true → c.work.phase = .done ∨ c.watch = .done
  watched : c.claimed = false → c.watch ≠ .done

/-- A tale agrees with how far the worker has come. -/
def Work.Told (t : Tale) : Work → Prop
  | .queued _ | .asked _ _ => t.starts = 0 ∧ t.ends = []
  | .running _ _ => t.starts = 1 ∧ t.ends = []
  | .done => t.starts = 0 ∧ t.ends = [] ∨ t.starts = 1 ∧ ∃ fault, t.ends = [fault]

/-- A tale agrees with the call: with how far the worker has come, and with the
watch, which is through before it reports that the time is up. -/
structure Call.Told (t : Tale) (c : Call) : Prop where
  work : c.work.Told t
  late : .timeout ∈ t.events → c.watch = .done

def Rescue.Fresh (rescuable : Bool) : Rescue → Prop
  | .none => rescuable = false
  | .unused _ => rescuable = true
  | .running _ _ _ => False

/-- The error that an outcome other than a success stands for. -/
inductive Tale.Cause (t : Tale) : Outcome → CallError → Prop where
  | shortCircuited : t.starts = 0 → Cause t .shortCircuited .circuitOpen
  | rejected : t.starts = 0 → Cause t .rejected .maxConcurrency
  | timeout : Cause t .timeout .timeout
  | failure {fault : Fault} : t.ends = [some fault] → Cause t .failure (.operation fault)

/-- How far the resolution of a call has come: whether it is claimed, what has
become of its fallback, and its verdict, as its tale tells it. -/
inductive Resolution (t : Tale) : Bool → Rescue → Option Verdict → Prop where
  | unclaimed {rescue : Rescue} : rescue.Fresh t.rescuable → t.beats = [] →
      Resolution t false rescue none
  | succeeded {r : Report} {rescue : Rescue} : rescue.Fresh t.rescuable → r.outcome = .success →
      t.ends = [none] → t.beats = [.reported r, .delivered .ok] →
      Resolution t true rescue (some .ok)
  | denied {r : Report} {cause : CallError} : t.Cause r.outcome cause → t.rescuable = false →
      t.beats = [.reported r, .delivered (.error cause)] →
      Resolution t true .none (some (.error cause))
  | rescuing {r : Report} {cause : CallError} {took : Duration} {wait : Wait} :
      t.Cause r.outcome cause → t.rescuable = true → t.beats = [.reported r, .rescue cause] →
      Resolution t true (.running cause took wait) none
  | rescued {r s : Report} {cause : CallError} : t.Cause r.outcome cause → t.rescuable = true →
      s.outcome = .fallbackSuccess →
      t.beats = [.reported r, .rescue cause, .rescueEnded none, .reported s, .delivered .ok] →
      Resolution t true .none (some .ok)
  | lost {r s : Report} {cause : CallError} {fault : Fault} : t.Cause r.outcome cause →
      t.rescuable = true → s.outcome = .fallbackFailure →
      t.beats = [.reported r, .rescue cause, .rescueEnded (some fault), .reported s,
        .delivered (.error (.fallback fault cause))] →
      Resolution t true .none (some (.error (.fallback fault cause)))

namespace Engine

/-- The verdict of a call is still to come, and some code waits for it. -/
def Owes (e : Engine) (inner : CallKey) (waiter : CallKey × Stage) : Prop :=
  ∃ c, e.call? inner = some c ∧ c.verdict = none ∧ c.waiter = some waiter

/-- Code that waits will be seen to. -/
def Minded (r : Regime) (e : Engine) (k : CallKey) (stage : Stage) : Wait → Prop
  | .timer due _ => r.Timer e.now due
  | .manual => True
  | .call inner => e.Owes inner (k, stage)
  | .turn _ => Turn.poll k (.code stage) ∈ e.queue

/-- A part of a call that has not ended will be seen to. -/
def Tended (r : Regime) (e : Engine) (k : CallKey) (c : Call) : Part → Prop
  | .code .operation =>
      match c.work with
      | .queued _ => Turn.poll k (.code .operation) ∈ e.queue
      | .asked _ _ => r = .loose
      | .running _ wait => e.Minded r k .operation wait
      | .done => True
  | .code .fallback =>
      match c.rescue with
      | .running _ _ wait => e.Minded r k .fallback wait
      | _ => True
  | .watch =>
      match c.watch with
      | .armed due => r.Deadline e.now due
      | .done => True
      | _ => Turn.poll k .watch ∈ e.queue

/-- A call is in order between two turns. -/
structure Kept (r : Regime) (e : Engine) (k : CallKey) (c : Call) : Prop where
  sound : c.Sound
  told : c.Told (e.tale k)
  resolution : Resolution (e.tale k) c.claimed c.rescue c.verdict
  tended : ∀ p, e.Tended r k c p

end Engine

def Desk.seated (desk : Desk) : Nat := desk.calls.countP (·.slot = .holding)

namespace Engine

def handed (e : Engine) (n : Name) : Nat := e.tickets.countP (·.2 = n)

/-- All tickets of a pool are accounted for: they are free, or calls hold them, or
they were taken by hand. -/
structure Balanced (e : Engine) (n : Name) (desk : Desk) : Prop where
  capacity : desk.pool.capacity = desk.settings.maxConcurrent
  balance : desk.pool.free + desk.seated + e.handed n = desk.pool.capacity

/-- The engine apart from its calls is in order. -/
structure Orderly (e : Engine) : Prop where
  distinct : e.desks.names.Nodup
  equipped : ∀ n, (e.desks.get? n).isSome → (e.board.circuits.get? n).isSome
  usable : ∀ n desk, e.desks.get? n = some desk → desk.settings.Usable
  balanced : ∀ n desk, e.desks.get? n = some desk → e.Balanced n desk
  blank : ∀ k, e.call? k = none → e.tale k = {}
  labelled : e.tickets.names.Nodup
  origin : ∀ x ∈ e.tickets, (e.desks.get? x.2).isSome

/-- The engine is in order but perhaps for one call. -/
structure Ordered (r : Regime) (e : Engine) (away : Option CallKey) : Prop where
  orderly : e.Orderly
  kept : ∀ j d, some j ≠ away → e.call? j = some d → e.Kept r j d

/-- The engine in the middle of a turn of a call: all else is in order, and so
are the parts of the call but perhaps the one that is busy. -/
structure Acting (r : Regime) (e : Engine) (k : CallKey) (c : Call) (t : Tale)
    (busy : Option Part) : Prop where
  rest : e.Ordered r (some k)
  here : e.call? k = some c
  tale : e.tale k = t
  tended : ∀ p, some p ≠ busy → e.Tended r k c p

end Engine

/-! ### What code waits for -/

namespace Call

variable {c : Call} {stage : Stage} {wait : Wait}

/-- An operation that waits is running. -/
theorem work_of_wait? (waits : c.wait? .operation = some wait) :
    ∃ since, c.work = .running since wait := by
  cases work : c.work with
  | running since other =>
      obtain rfl : other = wait := by simpa [wait?, work] using waits
      exact ⟨since, rfl⟩
  | _ => simp [wait?, work] at waits

/-- A fallback that waits is running. -/
theorem rescue_of_wait? (waits : c.wait? .fallback = some wait) :
    ∃ cause took, c.rescue = .running cause took wait := by
  cases rescue : c.rescue with
  | running cause took other =>
      obtain rfl : other = wait := by simpa [wait?, rescue] using waits
      exact ⟨cause, took, rfl⟩
  | _ => simp [wait?, rescue] at waits

/-- Code that does not wait is left alone. -/
theorem setWait_of_none (idle : c.wait? stage = none) (wait : Wait) : c.setWait stage wait = c := by
  cases stage with
  | operation => cases work : c.work <;> simp [setWait, wait?, work] at idle ⊢
  | fallback => cases rescue : c.rescue <;> simp [setWait, wait?, rescue] at idle ⊢

theorem wait?_setWait {old : Wait} (waits : c.wait? stage = some old) (wait : Wait) :
    (c.setWait stage wait).wait? stage = some wait := by
  cases stage with
  | operation =>
      obtain ⟨since, work⟩ := work_of_wait? waits
      simp only [setWait, wait?, work]
  | fallback =>
      obtain ⟨cause, took, rescue⟩ := rescue_of_wait? waits
      simp only [setWait, wait?, rescue]

end Call

/-- Code that waits is seen to. -/
theorem Engine.Tended.minded {r : Regime} {e : Engine} {k : CallKey} {c : Call} {stage : Stage}
    {wait : Wait} (tended : e.Tended r k c (.code stage)) (waits : c.wait? stage = some wait) :
    e.Minded r k stage wait := by
  cases stage with
  | operation =>
      obtain ⟨since, work⟩ := Call.work_of_wait? waits
      simpa only [Tended, work] using tended
  | fallback =>
      obtain ⟨cause, took, rescue⟩ := Call.rescue_of_wait? waits
      simpa only [Tended, rescue] using tended

/-! ### What code waits for does not matter to the bookkeeping -/

namespace Call

variable (c : Call) (stage : Stage) (wait : Wait)

@[simp] theorem verdict_setWait : (c.setWait stage wait).verdict = c.verdict := by
  unfold setWait; split <;> split <;> rfl

@[simp] theorem waiter_setWait : (c.setWait stage wait).waiter = c.waiter := by
  unfold setWait; split <;> split <;> rfl

@[simp] theorem slot_setWait : (c.setWait stage wait).slot = c.slot := by
  unfold setWait; split <;> split <;> rfl

@[simp] theorem watch_setWait : (c.setWait stage wait).watch = c.watch := by
  unfold setWait; split <;> split <;> rfl

@[simp] theorem claimed_setWait : (c.setWait stage wait).claimed = c.claimed := by
  unfold setWait; split <;> split <;> rfl

@[simp] theorem phase_setWait : (c.setWait stage wait).work.phase = c.work.phase := by
  unfold setWait
  split
  · split
    · next found => simp [found, Work.phase]
    · rfl
  · split <;> rfl

@[simp] theorem work_setWait_fallback : (c.setWait .fallback wait).work = c.work := by
  unfold setWait; dsimp only; split <;> rfl

@[simp] theorem rescue_setWait_operation : (c.setWait .operation wait).rescue = c.rescue := by
  unfold setWait; dsimp only; split <;> rfl

variable {c}

/-- The bookkeeping is about the ticket, the watch, the claim and the progress of
the worker, and about nothing else. -/
theorem Sound.congr {c' : Call} (sound : c.Sound) (slot : c'.slot = c.slot)
    (watch : c'.watch = c.watch) (claimed : c'.claimed = c.claimed)
    (phase : c'.work.phase = c.work.phase) : c'.Sound := by
  constructor
  case shut_iff => simpa only [slot, watch] using sound.shut_iff
  case vacant => simpa only [slot, phase] using sound.vacant
  case holding => simpa only [slot, phase] using sound.holding
  case claimed => simpa only [claimed, phase] using sound.claimed
  case armed => simpa only [watch, phase] using sound.armed
  case dismissed => simpa only [watch, phase] using sound.dismissed
  case overtaken => simpa only [claimed, watch, phase] using sound.overtaken
  case watched => simpa only [claimed, watch] using sound.watched

theorem Sound.setWait (sound : c.Sound) : (c.setWait stage wait).Sound :=
  sound.congr (by simp) (by simp) (by simp) (by simp)

end Call

theorem Call.Told.setWait {t : Tale} {c : Call} (told : c.Told t) (stage : Stage)
    (wait : Wait) : (c.setWait stage wait).Told t where
  work := by
    cases stage with
    | operation =>
        simp only [Call.setWait]
        split
        · next found => simpa only [found, Work.Told] using told.work
        · exact told.work
    | fallback => simpa using told.work
  late timedOut := by simpa using told.late timedOut

theorem Resolution.setWait {t : Tale} {c : Call}
    (resolution : Resolution t c.claimed c.rescue c.verdict) (stage : Stage) (wait : Wait) :
    Resolution t (c.setWait stage wait).claimed (c.setWait stage wait).rescue
      (c.setWait stage wait).verdict := by
  cases stage with
  | operation => simpa using resolution
  | fallback =>
      simp only [Call.claimed_setWait, Call.verdict_setWait]
      simp only [Call.setWait]
      split
      · next cause took old found =>
          rw [found] at resolution
          generalize c.claimed = claimed at *
          generalize c.verdict = verdict at *
          cases resolution with
          | unclaimed fresh => exact absurd fresh id
          | succeeded fresh => exact absurd fresh id
          | rescuing blame rescuable told => exact .rescuing blame rescuable told
      · exact resolution

end Bulwark
