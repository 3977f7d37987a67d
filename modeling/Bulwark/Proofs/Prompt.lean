import Bulwark.Proofs.Rest
import Bulwark.Proofs.Speech

/-!
Runs in which everything happens at its time.

Tasks that can go on do so at once, in any order; callers step in, and time passes,
only when no task can go on; and a timer goes off when it is due, before all other
timers that are pending (`Engine.Promptly`). In such a run every deadline that is
pending lies ahead (`ReachedPromptly.ordered`).

A schedule runs like this if no two timers of which one goes off are due at the same
instant (`Engine.untied`, `reachedPromptly_run`).
-/

namespace Bulwark

namespace Call

variable {c : Call} {due : Instant} {p : Part}

theorem wait?_setWait_of_ne {stage other : Stage} (differ : other ≠ stage) (wait : Wait) :
    (c.setWait stage wait).wait? other = c.wait? other := by
  cases stage with
  | operation =>
      cases other with
      | operation => exact absurd rfl differ
      | fallback => simp [wait?]
  | fallback =>
      cases other with
      | operation => simp [wait?]
      | fallback => exact absurd rfl differ

/-- A part whose alarm went off has no alarm any more, and the others keep theirs. -/
theorem mem_alarms_ring (alarm : (due, p) ∈ c.alarms) {later : Instant} {q : Part}
    (left : (later, q) ∈ (c.ring p).alarms) : (later, q) ∈ c.alarms ∧ q ≠ p := by
  rcases mem_alarms.mp alarm with ⟨stage, next, rfl, waits⟩ | ⟨rfl, armed⟩
  · have rung : c.ring (.code stage) = c.setWait stage (.turn next) := by simp only [ring, waits]
    rw [rung] at left
    rcases mem_alarms.mp left with ⟨other, next', rfl, waits'⟩ | ⟨rfl, armed⟩
    · by_cases same : other = stage
      · subst same
        rw [wait?_setWait waits] at waits'
        simp at waits'
      · rw [wait?_setWait_of_ne same] at waits'
        exact ⟨mem_alarms.mpr (.inl ⟨other, next', rfl, waits'⟩), by simpa using same⟩
    · exact ⟨mem_alarms.mpr (.inr ⟨rfl, by simpa using armed⟩), by simp⟩
  · have rung : c.ring .watch = { c with watch := .expired } := by simp only [ring, armed]
    rw [rung] at left
    rcases mem_alarms.mp left with ⟨stage, next, rfl, waits⟩ | ⟨rfl, armed'⟩
    · exact ⟨mem_alarms.mpr (.inl ⟨stage, next, rfl, waits⟩), by simp⟩
    · simp at armed'

end Call

namespace Engine

variable {e e' e'' : Engine}

/-- An alarm is due before all others. -/
def Sooner (e : Engine) (a : Alarm) : Prop := ∀ b ∈ e.alarms, b ≠ a → a.due.nanos < b.due.nanos

/-- Something happens at its time. -/
inductive Promptly : Engine → Engine → Prop where
  /-- A caller does something when no task can go on. -/
  | begin (e : Engine) {s : Step} : e.queue = [] → (∀ d, s ≠ .advance d) → Promptly e (e.begin s).1
  /-- Any task of the queue takes its turn. -/
  | take {e : Engine} {before after : List Turn} {u : Turn} : e.queue = before ++ u :: after →
      Promptly e (({ e with queue := before ++ after } : Engine).take u)
  /-- An alarm goes off when it is due, and is the only one. -/
  | fire {e : Engine} {a : Alarm} : e.queue = [] → a ∈ e.alarms → e.Sooner a → Promptly e (e.fire a)
  /-- Time passes when no task can go on, and no alarm is due until then. -/
  | clock {e : Engine} {t : Instant} : e.queue = [] → e.now.nanos ≤ t.nanos →
      (∀ a ∈ e.alarms, t.nanos < a.due.nanos) → Promptly e (e.setNow t)

/-- A run in which everything happens at its time leads from one engine to another. -/
inductive Prompt (e : Engine) : Engine → Prop where
  | refl : Prompt e e
  | next {e' e'' : Engine} : Prompt e e' → Promptly e' e'' → Prompt e e''

/-- Some run of a new engine in which everything happens at its time comes by this one. -/
def ReachedPromptly (e : Engine) : Prop :=
  ∃ defaults items hooks, Prompt (build defaults items hooks) e

theorem Prompt.trans (first : Prompt e e') (second : Prompt e' e'') : Prompt e e'' := by
  induction second with
  | refl => exact first
  | next _ event ih => exact .next ih event

theorem Prompt.single (event : Promptly e e') : Prompt e e' := .next .refl event

/-! ### All is in order, and every deadline lies ahead -/

/-- It does not matter whether the clock moves before or after the part that is due gets
its turn. -/
theorem fire_eq (e : Engine) (a : Alarm) :
    e.fire a = ((e.updateCall a.call (·.ring a.part)).enqueue (.poll a.call a.part)).setNow
      a.due := by
  cases found : e.desks.get? a.call.command with
  | none => simp [fire, updateCall, updateDesk, setNow, enqueue, found]
  | some desk => simp [fire, updateCall, updateDesk, setNow, enqueue, found]

/-- The first of all alarms goes off. -/
theorem Ordered.fire_sooner (ordered : e.Ordered .ahead none) {a : Alarm} (pending : a ∈ e.alarms)
    (sooner : e.Sooner a) : (e.fire a).Ordered .ahead none := by
  have distinct := ordered.orderly.distinct
  obtain ⟨c, here, listed⟩ := (mem_alarms_iff distinct).mp pending
  rw [fire_eq]
  refine (ordered.ring here listed).setNow (by simp) ?_
  intro k d known b alarm
  have later : a.due.nanos < b.1.nanos := by
    rw [call?_enqueue, call?_updateCall] at known
    by_cases same : k = a.call
    · subst same
      rw [if_pos rfl, here] at known
      obtain rfl := Option.some.inj known
      have left : (b.1, b.2) ∈ (c.ring a.part).alarms := alarm
      obtain ⟨still, other⟩ := Call.mem_alarms_ring listed left
      exact sooner ⟨b.1, a.call, b.2⟩ ((mem_alarms_iff distinct).mpr ⟨c, here, still⟩)
        fun all => other (congrArg Alarm.part all)
    · rw [if_neg same] at known
      exact sooner ⟨b.1, k, b.2⟩ ((mem_alarms_iff distinct).mpr ⟨d, known, alarm⟩)
        fun all => same (congrArg Alarm.call all)
  exact .inr ⟨Int.le_of_lt later, fun _ => later⟩

/-- Whatever happens at its time, every deadline lies ahead. -/
theorem Ordered.promptly (ordered : e.Ordered .ahead none) (event : Promptly e e') :
    e'.Ordered .ahead none := by
  cases event with
  | begin atRest still => exact ordered.begin still
  | take queued => exact ordered.take queued
  | fire atRest pending sooner => exact ordered.fire_sooner pending sooner
  | clock atRest onward ahead => exact ordered.pass (by simp) ahead

theorem ReachedPromptly.ordered (reached : e.ReachedPromptly) : e.Ordered .ahead none := by
  obtain ⟨defaults, items, hooks, run⟩ := reached
  induction run with
  | refl => exact ordered_build .ahead defaults items hooks
  | next _ event ih => exact ih.promptly event

/-! ### Schedules -/

/-- Going from one alarm to the next up to an instant, no alarm goes off while another is
due at the same instant. -/
def untiedUntil : Nat → Instant → Engine → Bool
  | 0, _, _ => true
  | n + 1, t, e =>
    match Alarm.earliest e.alarms with
    | none => true
    | some a =>
      if a.due.nanos ≤ t.nanos then
        e.alarms.all (fun b => b = a || a.due.nanos < b.due.nanos) &&
          untiedUntil n t (e.fire a).rest
      else true

/-- In a schedule no alarm goes off while another is due at the same instant. -/
def untied : Engine → List Step → Bool
  | _, [] => true
  | e, s :: rest =>
    (match s with
      | .advance d => untiedUntil e.turns (e.now.later d) e
      | _ => true) && untied (e.step s).1 rest

/-- Taking turns is a sequence of prompt events. -/
theorem prompt_settle (n : Nat) (e : Engine) : Prompt e (settle n e) := by
  induction n generalizing e with
  | zero => exact .refl
  | succ n ih =>
      unfold settle
      split
      · exact .refl
      · next u rest queued =>
          have head : e.queue = [] ++ u :: rest := queued
          exact (Prompt.single (.take head)).trans (ih _)

theorem prompt_rest (e : Engine) : Prompt e e.rest := prompt_settle _ e

/-- A turn takes no time. -/
theorem now_take (e : Engine) (u : Turn) : (e.take u).now = e.now := by
  rcases u with spec | ⟨k, stage | _⟩
  · exact ((Says.refl default e).launch spec).trail.now
  · exact ((Says.refl k e).pollCode stage).trail.now
  · exact ((Says.refl k e).pollWatch).trail.now

theorem now_settle (n : Nat) (e : Engine) : (settle n e).now = e.now := by
  induction n generalizing e with
  | zero => rfl
  | succ n ih =>
      unfold settle
      split
      · rfl
      · rw [ih, now_take]
        rfl

/-- Waiting is a sequence of prompt events where no two alarms are due at once. -/
theorem Ordered.prompt_runUntil (ordered : e.Ordered .ahead none) (atRest : e.queue = []) {n : Nat}
    (enough : e.turns ≤ n) {t : Instant} (onward : e.now.nanos ≤ t.nanos)
    (apart : untiedUntil n t e = true) : Prompt e (Engine.runUntil n t e) := by
  induction n generalizing e with
  -- The turns still needed bound the alarms, so no alarm is left.
  | zero =>
      refine .single (.clock atRest onward fun a pending => ?_)
      have needed := ordered.turns_pos atRest pending
      omega
  | succ n ih =>
      unfold Engine.runUntil
      unfold untiedUntil at apart
      split
      · next none_ =>
          refine .single (.clock atRest onward ?_)
          simp [Alarm.earliest_eq_none none_]
      · next a first =>
          rw [first] at apart
          obtain ⟨pending, least⟩ := Alarm.earliest_le first
          split
          · next soon =>
              simp only [soon, if_true, Bool.and_eq_true, List.all_eq_true, Bool.or_eq_true,
                decide_eq_true_eq] at apart
              have sooner : e.Sooner a := fun b other differ =>
                (apart.1 b other).resolve_left differ
              have fired := ordered.fire_sooner pending sooner
              obtain ⟨rested, none_⟩ := fired.rest
              have used := ordered.punctual.fuel_fire atRest first
              rw [turns_of_rest none_, turns_of_rest atRest] at used
              have moment : (e.fire a).rest.now = a.due := by
                rw [Engine.rest, now_settle, fire_eq]
                rfl
              refine ((Prompt.single (.fire atRest pending sooner)).trans (prompt_rest _)).trans ?_
              exact ih rested none_ (by omega) (by rw [moment]; exact soon) apart.2
          · next later =>
              refine .single (.clock atRest onward fun b other => ?_)
              have bound := least b other
              omega

/-- A step of a schedule, with all that goes on after it, happens at its time. -/
theorem Ordered.prompt_step (ordered : e.Ordered .ahead none) (atRest : e.queue = []) {s : Step}
    (apart : ∀ d, s = .advance d → untiedUntil e.turns (e.now.later d) e = true) :
    Prompt e (e.step s).1 := by
  have begun : Prompt e (e.begin s).1 := by
    cases s with
    | advance d =>
        have onward : e.now.nanos ≤ (e.now.later d).nanos := by
          simp only [Instant.later]
          omega
        exact ordered.prompt_runUntil atRest (Nat.le_refl _) onward (apart d rfl)
    | _ => exact .single (.begin e atRest (by simp))
  exact begun.trans (prompt_rest _)

/-- A schedule in which no two alarms are due at once is a sequence of prompt events. -/
theorem Ordered.prompt_run (ordered : e.Ordered .ahead none) (atRest : e.queue = [])
    {steps : List Step} (apart : untied e steps = true) : Prompt e (e.run steps) := by
  induction steps generalizing e with
  | nil => exact .refl
  | cons s rest ih =>
      simp only [untied, Bool.and_eq_true] at apart
      obtain ⟨after, none_⟩ := ordered.step atRest s
      refine (ordered.prompt_step atRest ?_).trans (ih after none_ apart.2)
      rintro d rfl
      exact apart.1

/-- What a schedule does with a new engine happens at its time, if no two timers are due at
the same instant. -/
theorem reachedPromptly_run (defaults : Overrides) (items : List (Name × Overrides))
    (hooks : Hooks) {steps : List Step}
    (apart : untied (build defaults items hooks) steps = true) :
    ((build defaults items hooks).run steps).ReachedPromptly :=
  ⟨defaults, items, hooks,
    (ordered_build .ahead defaults items hooks).prompt_run rfl apart⟩

end Engine

end Bulwark
