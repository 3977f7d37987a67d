import Bulwark.Proofs.Fuel

/-!
Schedules come to rest.

The fuel of an engine is enough to take turns until none is left (`Ordered.rest`),
and the turns that calls still need are enough to go from alarm to alarm up to any
instant (`Ordered.runUntil`). So after every step of a schedule nothing can go on,
no timer is overdue, and every deadline lies ahead (`ordered_run`).
-/

namespace Bulwark

namespace Call

variable {c : Call} {due : Instant}

/-- An alarm takes no turn from its call. -/
theorem turns_ring {p : Part} (alarm : (due, p) ∈ c.alarms) : (c.ring p).turns = c.turns := by
  rcases mem_alarms.mp alarm with ⟨stage, next, rfl, waits⟩ | ⟨rfl, armed⟩
  · have weighed := turns_setWait waits (.turn next)
    simp only [Wait.turns] at weighed
    simp only [ring, waits]
    omega
  · simp only [ring, armed, turns, Watch.turns_armed, Watch.turns_expired]

theorem turns_pos {p : Part} (alarm : (due, p) ∈ c.alarms) : 0 < c.turns := by
  rcases mem_alarms.mp alarm with ⟨stage, next, rfl, waits⟩ | ⟨rfl, armed⟩
  · exact Nat.lt_of_lt_of_le (Wait.turns_pos _) (turns_le_of_wait? waits)
  · simp only [turns, armed, Watch.turns_armed]
    omega

/-- Code whose timer went off can go on. -/
theorem wait?_ring {stage : Stage} {next : Script}
    (waits : c.wait? stage = some (.timer due next)) :
    (c.ring (.code stage)).wait? stage = some (.turn next) := by
  simp only [ring, waits]
  exact wait?_setWait waits _

end Call

namespace Engine

variable {r : Regime} {e : Engine}

/-! ### Taking all turns -/

/-- With enough fuel no turn is left, and all is still in order. -/
theorem Ordered.settle (ordered : e.Ordered r none) {n : Nat} (enough : e.fuel ≤ n) :
    (settle n e).Ordered r none ∧ (settle n e).queue = [] ∧ (settle n e).fuel ≤ e.fuel := by
  induction n generalizing e with
  | zero =>
      refine ⟨ordered, ?_, Nat.le_refl _⟩
      have none_ : e.queue.length = 0 := by
        simp only [fuel] at enough
        omega
      exact List.eq_nil_of_length_eq_zero none_
  | succ n ih =>
      unfold Engine.settle
      split
      · next none_ => exact ⟨ordered, none_, Nat.le_refl _⟩
      · next u rest queued =>
          have head : e.queue = [] ++ u :: rest := queued
          have spent := fuel_take ordered.orderly.distinct head
          have taken := ordered.take head
          obtain ⟨after, none_, less⟩ := ih taken (by simp only [List.nil_append] at spent ⊢; omega)
          simp only [List.nil_append] at spent less
          exact ⟨after, none_, by omega⟩

/-- At rest no turn is left, and all is still in order. -/
theorem Ordered.rest (ordered : e.Ordered r none) :
    e.rest.Ordered r none ∧ e.rest.queue = [] := by
  obtain ⟨after, none_, _⟩ := ordered.settle (Nat.le_refl e.fuel)
  exact ⟨after, none_⟩

/-- Resting begins with the turn that is queued. -/
theorem Ordered.fuel_rest (ordered : e.Ordered r none) {u : Turn} (queued : e.queue = [u]) :
    e.rest.fuel ≤ (({ e with queue := [] } : Engine).take u).fuel := by
  have head : e.queue = [] ++ u :: [] := queued
  have taken := ordered.take head
  have spent := fuel_take ordered.orderly.distinct head
  simp only [List.nil_append] at taken spent
  cases fuel : e.fuel with
  | zero => omega
  | succ n =>
      have rested : e.rest = Engine.settle n (({ e with queue := [] } : Engine).take u) := by
        simp only [Engine.rest, fuel, Engine.settle, queued]
      rw [rested]
      obtain ⟨_, _, less⟩ := taken.settle (n := n) (by omega)
      exact less

/-! ### From alarm to alarm -/

/-- Time may pass up to the first alarm. -/
theorem Ordered.wait (ordered : e.Ordered .punctual none) {t : Instant}
    (ahead : ∀ a ∈ e.alarms, t.nanos ≤ a.due.nanos) : (e.setNow t).Ordered .punctual none := by
  refine ordered.setNow (by simp) ?_
  intro k d known b alarm
  refine .inr ⟨?_, by simp⟩
  exact ahead ⟨b.1, k, b.2⟩ ((mem_alarms_iff ordered.orderly.distinct).mpr ⟨d, known, alarm⟩)

/-- The first alarm goes off at its time. -/
theorem Ordered.fire (ordered : e.Ordered .punctual none) {a : Alarm}
    (first : Alarm.earliest e.alarms = some a) : (e.fire a).Ordered .punctual none := by
  obtain ⟨member, least⟩ := Alarm.earliest_le first
  obtain ⟨c, here, listed⟩ := (mem_alarms_iff ordered.orderly.distinct).mp member
  exact (ordered.wait least).ring here listed

/-- A part that an alarm gave its turn uses up a turn that its call still needed. -/
theorem Ordered.fuel_fire (ordered : e.Ordered .punctual none) (atRest : e.queue = []) {a : Alarm}
    (first : Alarm.earliest e.alarms = some a) : (e.fire a).rest.fuel < e.fuel := by
  have fired := ordered.fire first
  obtain ⟨member, _⟩ := Alarm.earliest_le first
  obtain ⟨c, here, listed⟩ := (mem_alarms_iff ordered.orderly.distinct).mp member
  have queued : (e.fire a).queue = [.poll a.call a.part] := by
    simp [Engine.fire, atRest]
  -- The engine once the turn of the part that is due has been taken from the queue.
  let rung : Engine := { e.fire a with queue := [] }
  have there : rung.call? a.call = some (c.ring a.part) := by
    have known : (e.setNow a.due).call? a.call = some c := here
    change ((e.setNow a.due).updateCall a.call (·.ring a.part)).call? a.call = _
    rw [call?_updateCall_self, known]
    rfl
  have same : rung.fuel = e.fuel := by
    have weighed := fuel_updateCall (e := e.setNow a.due) here (·.ring a.part)
    rw [Call.turns_ring listed] at weighed
    have moved : (e.setNow a.due).fuel = e.fuel := rfl
    have emptied : rung.fuel = ((e.setNow a.due).updateCall a.call (·.ring a.part)).fuel :=
      fuel_congr rfl (by simp [rung, atRest])
    omega
  have distinct : rung.desks.names.Nodup := fired.orderly.distinct
  have used : (rung.take (.poll a.call a.part)).fuel < e.fuel := by
    rw [← same]
    rcases Call.mem_alarms.mp listed with ⟨stage, next, part, waits⟩ | ⟨part, armed⟩
    · rw [part] at there ⊢
      exact fuel_pollCode_of_ready distinct there (Call.wait?_ring waits)
    · rw [part] at there ⊢
      exact fuel_pollWatch_of_expired distinct there (by simp only [Call.ring, armed])
  exact Nat.lt_of_le_of_lt (fired.fuel_rest queued) used

/-- At rest all the fuel is for turns to come. -/
theorem turns_of_rest (atRest : e.queue = []) : e.fuel = 4 * e.turns := by
  simp [fuel, atRest]

/-- An alarm that is still to go off stands for a turn that its call still needs. -/
theorem Ordered.turns_pos (ordered : e.Ordered r none) (atRest : e.queue = []) {a : Alarm}
    (member : a ∈ e.alarms) : 0 < e.turns := by
  obtain ⟨c, here, listed⟩ := (mem_alarms_iff ordered.orderly.distinct).mp member
  let finished : Call → Call := fun c => { c with work := .done, watch := .done, rescue := .none }
  have weighed := fuel_updateCall here finished
  have spent : (finished c).turns = 0 := rfl
  have needed := Call.turns_pos listed
  rw [turns_of_rest atRest] at weighed
  omega

/-- Time passes up to an instant: everything goes on that is due until then, and
after that every alarm lies ahead. -/
theorem Ordered.runUntil (ordered : e.Ordered .punctual none) (atRest : e.queue = []) {n : Nat}
    (enough : e.turns ≤ n) (t : Instant) :
    (runUntil n t e).Ordered .ahead none ∧ (runUntil n t e).queue = [] ∧
      ∀ a ∈ (runUntil n t e).alarms, t.nanos < a.due.nanos := by
  induction n generalizing e with
  | zero =>
      -- Every alarm stands for a turn, and no turn is needed any more.
      have quiet : ∀ a ∈ e.alarms, t.nanos < a.due.nanos := by
        intro a member
        have needed := ordered.turns_pos atRest member
        omega
      exact ⟨ordered.pass (by simp) quiet, atRest, quiet⟩
  | succ n ih =>
      unfold Engine.runUntil
      split
      · next none_ =>
          have quiet : ∀ a ∈ e.alarms, t.nanos < a.due.nanos := by
            simp [Alarm.earliest_eq_none none_]
          exact ⟨ordered.pass (by simp) quiet, atRest, quiet⟩
      · next a first =>
          split
          -- The alarm that goes off uses up turns, so the rest needs fewer.
          · obtain ⟨rested, none_⟩ := (ordered.fire first).rest
            have used := ordered.fuel_fire atRest first
            rw [turns_of_rest none_, turns_of_rest atRest] at used
            exact ih rested none_ (by omega)
          · next later =>
              have quiet : ∀ b ∈ e.alarms, t.nanos < b.due.nanos := by
                intro b member
                have least := (Alarm.earliest_le first).2 b member
                omega
              exact ⟨ordered.pass (by simp) quiet, atRest, quiet⟩

/-! ### Schedules -/

/-- Where every deadline lies ahead, nothing is overdue. -/
theorem Ordered.punctual (ordered : e.Ordered .ahead none) : e.Ordered .punctual none := by
  have moved : (e.setNow e.now).Ordered .punctual none := by
    refine ordered.setNow (by simp) ?_
    rintro k c here ⟨due, p⟩ listed
    have kept := ordered.kept k c (by simp) here
    rcases Call.mem_alarms.mp listed with ⟨stage, next, rfl, waits⟩ | ⟨rfl, armed⟩
    · have minded := (kept.tended (.code stage)).minded waits
      simp only [Minded, Regime.Timer, reduceCtorEq, false_or] at minded
      exact .inr ⟨minded, by simp⟩
    · have tended := kept.tended .watch
      simp only [Tended, armed, Regime.Deadline, reduceCtorEq, false_or] at tended
      exact .inr ⟨tended.1, by simp⟩
  exact moved

/-- A step of a schedule comes to rest, with every deadline ahead. -/
theorem Ordered.step (ordered : e.Ordered .ahead none) (atRest : e.queue = []) (s : Step) :
    (e.step s).1.Ordered .ahead none ∧ (e.step s).1.queue = [] := by
  have begun : (e.begin s).1.Ordered .ahead none := by
    cases s with
    | advance d => exact (ordered.punctual.runUntil atRest (Nat.le_refl _) _).1
    | _ => exact ordered.begin (by simp)
  exact begun.rest

/-- After every schedule all is in order and at rest. -/
theorem Ordered.run (ordered : e.Ordered .ahead none) (atRest : e.queue = [])
    (steps : List Step) : (e.run steps).Ordered .ahead none ∧ (e.run steps).queue = [] := by
  induction steps generalizing e with
  | nil => exact ⟨ordered, atRest⟩
  | cons s rest ih =>
      obtain ⟨after, none_⟩ := ordered.step atRest s
      exact ih after none_

/-- Whatever a schedule does with a new engine, it comes to rest with everything in
order and every deadline ahead. -/
theorem ordered_run (defaults : Overrides) (items : List (Name × Overrides)) (hooks : Hooks)
    (steps : List Step) :
    ((build defaults items hooks).run steps).Ordered .ahead none ∧
      ((build defaults items hooks).run steps).queue = [] :=
  (ordered_build .ahead defaults items hooks).run rfl steps

end Engine

end Bulwark
