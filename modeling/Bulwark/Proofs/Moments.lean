import Bulwark.Engine.Overtaken
import Bulwark.Proofs.Callers
import Bulwark.Proofs.Clock

/-!
Every moment of every run.

A run is more than what a schedule does: tasks may take their turns in any order,
callers may step in between any two turns, a worker may be held up between asking
the circuit and going on, the clock may jump, and an alarm that is due may go off
late. `Engine.Next` is one such event, `Engine.Leads` any number of them, and an
engine is reached (`Engine.Reached`) if they lead there from a new one.

* `Reached.ordered`: at every moment of every run all is in order.
* `Reached.step`, `reached_run`: what a schedule does is such a run.
* `Reached.runOvertaken`: so is what happens when a worker is held up until its watch has
  resolved the call.
-/

namespace Bulwark.Engine

variable {e e' e'' : Engine}

/-- Something happens: a caller does something, a task takes a turn, an alarm goes
off, or time passes. -/
inductive Next : Engine → Engine → Prop where
  /-- A caller does something, at any time. -/
  | begin (e : Engine) {s : Step} : (∀ d, s ≠ .advance d) → Next e (e.begin s).1
  /-- Any task of the queue takes its turn. -/
  | take {e : Engine} {before after : List Turn} {u : Turn} : e.queue = before ++ u :: after →
      Next e (({ e with queue := before ++ after } : Engine).take u)
  /-- A worker asks the circuit in its first turn, and is held up. -/
  | hold {e : Engine} {before after : List Turn} {k : CallKey} {c : Call} {operation : Script} :
      e.queue = before ++ .poll k (.code .operation) :: after → e.call? k = some c →
      c.work = .queued operation → c.claimed = false →
      Next e (({ e with queue := before ++ after } : Engine).hold k operation)
  /-- A worker that was held up goes on. -/
  | goOn {e : Engine} {k : CallKey} {c : Call} {answer : Bool} {operation : Script} :
      e.call? k = some c → c.work = .asked answer operation → Next e (e.goOn k)
  /-- An alarm goes off, at its time or later. -/
  | ring {e : Engine} {k : CallKey} {c : Call} {due : Instant} {p : Part} :
      e.call? k = some c → (due, p) ∈ c.alarms → due.nanos ≤ e.now.nanos →
      Next e ((e.updateCall k (·.ring p)).enqueue (.poll k p))
  /-- The clock shows another time. -/
  | clock (e : Engine) (t : Instant) : Next e (e.setNow t)

inductive Leads (e : Engine) : Engine → Prop where
  | refl : Leads e e
  | next {e' e'' : Engine} : Leads e e' → Next e' e'' → Leads e e''

/-- Some run of a new engine comes by this one. -/
def Reached (e : Engine) : Prop :=
  ∃ defaults items hooks, Leads (build defaults items hooks) e

theorem Leads.trans (first : Leads e e') (second : Leads e' e'') : Leads e e'' := by
  induction second with
  | refl => exact first
  | next _ event ih => exact .next ih event

theorem Leads.single (event : Next e e') : Leads e e' := .next .refl event

/-- A sequence of events leads from a reached engine to reached engines only. -/
theorem Reached.leads (reached : e.Reached) (run : Leads e e') : e'.Reached := by
  obtain ⟨defaults, items, hooks, before⟩ := reached
  exact ⟨defaults, items, hooks, before.trans run⟩

/-! ### All is in order -/

/-- An engine as it is built is in order under any regime. -/
theorem ordered_build (r : Regime) (defaults : Overrides) (items : List (Name × Overrides))
    (hooks : Hooks) : (build defaults items hooks).Ordered r none := by
  have nobody : ∀ k, (build defaults items hooks).call? k = none := fun _ => rfl
  constructor
  case orderly =>
    constructor
    case distinct => exact List.nodup_nil
    case equipped => intro n used; simp [build] at used
    case usable => intro n desk found; simp [build] at found
    case balanced => intro n desk found; simp [build] at found
    case blank => exact fun _ _ => rfl
    case labelled => exact List.nodup_nil
    case origin => intro x taken; simp [build] at taken
  case kept =>
    intro k c _ here
    simp [nobody] at here

/-- Whatever happens next, all stays in order. -/
theorem Ordered.next (ordered : e.Ordered .loose none) (event : Next e e') :
    e'.Ordered .loose none := by
  cases event with
  | begin still => exact ordered.begin still
  | take queued => exact ordered.take queued
  | hold queued here work unclaimed =>
      have kept := ordered.kept _ _ (by simp) here
      exact (ordered.open queued here).hold kept.sound kept.told work kept.resolution
  | goOn here work =>
      have kept := ordered.kept _ _ (by simp) here
      exact ((ordered.act here).engage _).goOn kept.sound kept.told kept.resolution work
  | ring here alarm past => exact ordered.ring here alarm
  | clock t => exact ordered.setNow (fun _ => .inl rfl) fun _ _ _ _ _ => .inl rfl

/-- Order survives any sequence of events. -/
theorem Ordered.leads (ordered : e.Ordered .loose none) (run : Leads e e') :
    e'.Ordered .loose none := by
  induction run with
  | refl => exact ordered
  | next _ event ih => exact ih.next event

/-- At every moment of every run all is in order. -/
theorem Reached.ordered (reached : e.Reached) : e.Ordered .loose none := by
  obtain ⟨defaults, items, hooks, run⟩ := reached
  exact (ordered_build .loose defaults items hooks).leads run

/-! ### Schedules -/

/-- Taking the turns of the queue in order is a run. -/
theorem leads_settle (n : Nat) (e : Engine) : Leads e (settle n e) := by
  induction n generalizing e with
  | zero => exact .refl
  | succ n ih =>
      unfold settle
      split
      · exact .refl
      · next u rest queued =>
          have head : e.queue = [] ++ u :: rest := queued
          exact (Leads.single (.take head)).trans (ih _)

theorem leads_rest (e : Engine) : Leads e e.rest := leads_settle _ e

/-- An alarm that fires is an event. -/
theorem Ordered.leads_fire (ordered : e.Ordered .loose none) {a : Alarm} (alarm : a ∈ e.alarms) :
    Leads e (e.fire a) := by
  obtain ⟨c, here, listed⟩ := (mem_alarms_iff ordered.orderly.distinct).mp alarm
  exact (Leads.single (.clock e a.due)).next (.ring here listed (Int.le_refl _))

/-- Waiting until an instant is a sequence of events: alarms in their order, and time between them.
-/
theorem Ordered.leads_runUntil (ordered : e.Ordered .loose none) (n : Nat) (t : Instant) :
    Leads e (runUntil n t e) := by
  induction n generalizing e with
  | zero => exact .single (.clock e t)
  | succ n ih =>
      unfold runUntil
      split
      · exact .single (.clock e t)
      · next a first =>
          split
          · have fired := ordered.leads_fire (Alarm.earliest_le first).1
            have rested := fired.trans (leads_rest (e.fire a))
            exact rested.trans (ih (ordered.leads rested))
          · exact .single (.clock e t)

/-- A step of a schedule, with all that goes on after it, is a run. -/
theorem Ordered.leads_step (ordered : e.Ordered .loose none) (s : Step) :
    Leads e (e.step s).1 := by
  have begun : Leads e (e.begin s).1 := by
    cases s with
    | advance d => exact ordered.leads_runUntil _ _
    | _ => exact .single (.begin e (by simp))
  exact begun.trans (leads_rest _)

/-- A step of a schedule leads from a reached engine to a reached one. -/
theorem Reached.step (reached : e.Reached) (s : Step) : (e.step s).1.Reached :=
  reached.leads (reached.ordered.leads_step s)

theorem Reached.run (reached : e.Reached) (steps : List Step) : (e.run steps).Reached := by
  induction steps generalizing e with
  | nil => exact reached
  | cons s rest ih => exact ih (reached.step s)

/-- What a schedule does with a new engine is a run. -/
theorem reached_run (defaults : Overrides) (items : List (Name × Overrides)) (hooks : Hooks)
    (steps : List Step) : ((build defaults items hooks).run steps).Reached :=
  Reached.run ⟨defaults, items, hooks, .refl⟩ steps

/-! ### Workers that are held up -/

/-- Taking turns behind the first of the queue is a run. -/
theorem leads_settleBehind (n : Nat) (e : Engine) : Leads e (settleBehind n e) := by
  induction n generalizing e with
  | zero => exact .refl
  | succ n ih =>
      unfold settleBehind
      split
      · next first u rest queued =>
          have second : e.queue = [first] ++ u :: rest := queued
          exact (Leads.single (.take second)).trans (ih _)
      · exact .refl

theorem leads_passBy (e : Engine) : Leads e e.passBy := leads_settleBehind _ e

/-- Holding a worker up is an event, or nothing at all. -/
theorem leads_holdUp (e : Engine) (k : CallKey) : Leads e (e.holdUp k) := by
  unfold holdUp
  split
  · next j rest c queued here =>
      split
      · next operation work =>
          split
          · next own =>
              obtain ⟨rfl, unclaimed⟩ := own
              have head : e.queue = [] ++ .poll j (.code .operation) :: rest := queued
              exact .single (.hold head here work unclaimed)
          · exact .refl
      · exact .refl
  · exact .refl

/-- The clock jumps past an alarm, which then goes off late. -/
theorem leads_oversleep (e : Engine) (k : CallKey) (t : Instant) : Leads e (e.oversleep k t) := by
  have later : Leads e (e.setNow t) := .single (.clock e t)
  unfold oversleep
  split
  · next due armed =>
      obtain ⟨c, here, watch⟩ := Option.map_eq_some_iff.mp armed
      split
      · next past =>
          have listed : (due, .watch) ∈ c.alarms := Call.mem_alarms.mpr (.inr ⟨rfl, watch⟩)
          exact later.next (.ring here listed past)
      · exact later
  · exact later

/-- A worker that is held up goes on, whoever it is. -/
theorem leads_goOn (e : Engine) (k : CallKey) : Leads e (e.goOn k) := by
  cases here : e.call? k with
  | none =>
      simp only [goOn, here]
      exact .refl
  | some c =>
      cases work : c.work with
      | asked answer operation => exact .single (.goOn here work)
      | queued | running | done =>
          simp only [goOn, here, work]
          exact .refl

/-- Overtaking a call is a sequence of events, wherever its worker is held up. -/
theorem leads_overtake (e : Engine) (k : CallKey) (hold : Hold) :
    Leads e (e.overtake k hold) := by
  cases hold with
  | start =>
      -- The worker's turn stays the first of the queue until the last rest.
      refine Leads.trans ?_ (leads_rest _)
      refine Leads.trans ?_ (leads_passBy _)
      exact (leads_passBy e).trans (leads_oversleep _ k _)
  | probing | tripping =>
      refine Leads.trans ?_ (leads_rest _)
      refine Leads.trans ?_ (leads_goOn _ k)
      refine Leads.trans ?_ (leads_rest _)
      refine Leads.trans ?_ (leads_oversleep _ k _)
      exact (leads_holdUp e k).trans (leads_rest _)

/-- Bringing a circuit to where a worker can be held up leads to a reached engine. -/
theorem Reached.prepare (reached : e.Reached) (command : Name) (hold : Hold) :
    (e.prepare command hold).Reached := by
  cases hold with
  | start => exact reached
  | probing => exact (reached.step _).step _
  | tripping failures => exact reached.step _

/-- What happens when a worker is overtaken by its watch is a run. -/
theorem Reached.runOvertaken (reached : e.Reached) {spec : CallSpec Script} {hold : Hold}
    {made : Option CallKey} (ran : e.runOvertaken spec hold = .ok (e', made)) : e'.Reached := by
  have created := reached.step (.create spec.command)
  unfold Engine.runOvertaken at ran
  split at ran
  · cases ran
  · next x answer _ step =>
      rw [step] at created
      have begun := (created.prepare spec.command hold).leads
        (.single (.begin _ (s := .call spec) (by simp)))
      split at ran
      · next y start =>
          rw [start] at begun
          split at ran
          · next k _ =>
              obtain ⟨rfl, _⟩ := Prod.mk.inj (Except.ok.inj ran)
              exact begun.leads (leads_overtake y k hold)
          · obtain ⟨rfl, _⟩ := Prod.mk.inj (Except.ok.inj ran)
            exact begun
      · next y _ _ refused =>
          rw [refused] at begun
          obtain ⟨rfl, _⟩ := Prod.mk.inj (Except.ok.inj ran)
          exact begun

end Bulwark.Engine
