import Bulwark.Proofs.Delivery

/-!
No call is stranded.

When a schedule has come to rest, a call whose verdict is still to come is either
at work or being rescued (`undelivered`). At work, its operation waits for
something that can still come, it holds a ticket, and its deadline lies ahead, so
the watch will see to it. Being rescued, it has given its ticket back, and its
fallback waits for something that can still come.
-/

namespace Bulwark.Engine

variable {r : Regime} {e : Engine} {k : CallKey} {c : Call}

/-- Code waits for something that can still come: a timer, the caller, or the
verdict of a call that has yet to deliver it. -/
def Awaits (e : Engine) (k : CallKey) (stage : Stage) : Wait → Prop
  | .timer due _ => e.now.nanos ≤ due.nanos
  | .manual => True
  | .call inner => e.Owes inner (k, stage)
  | .turn _ => False

structure Working (e : Engine) (k : CallKey) (c : Call) : Prop where
  unreported : (e.tale k).events = []
  started : (e.tale k).starts = 1 ∧ (e.tale k).ends = []
  waits : ∃ wait, c.wait? .operation = some wait ∧ e.Awaits k .operation wait
  seated : c.slot = .holding
  watched : ∃ due, c.watch = .armed due ∧ e.now.nanos < due.nanos

structure Rescuing (e : Engine) (k : CallKey) (c : Call) : Prop where
  reported : ∃ p, (e.tale k).events = [p] ∧ p.isPrimary = true ∧ p.isError = true
  started : ∃ r cause, (e.tale k).beats = [.reported r, .rescue cause]
  waits : ∃ wait, c.wait? .fallback = some wait ∧ e.Awaits k .fallback wait
  unseated : c.slot ≠ .holding

/-- Code that is seen to while the queue is empty waits for something. -/
theorem Minded.awaits {stage : Stage} {wait : Wait} (strict : r ≠ .loose) (atRest : e.queue = [])
    (minded : e.Minded r k stage wait) : e.Awaits k stage wait := by
  cases wait with
  | timer due next => exact minded.resolve_left strict
  | manual => trivial
  | call inner => exact minded
  | turn next => simp [Minded, atRest] at minded

/-- Only the loose regime holds up workers. -/
theorem Kept.free (kept : e.Kept r k c) (strict : r ≠ .loose) : c.work.phase ≠ .asked := by
  have tended := kept.tended (.code .operation)
  cases work : c.work with
  | asked answer operation =>
      simp only [Tended, work] at tended
      exact absurd tended strict
  | _ => simp [Work.phase]

/-- While the queue is empty, a watch waits or is through. -/
theorem Kept.watch_of_rest (kept : e.Kept r k c) (atRest : e.queue = []) :
    (∃ due, c.watch = .armed due ∧ r.Deadline e.now due) ∨ c.watch = .done := by
  have tended := kept.tended .watch
  simp only [Tended] at tended
  split at tended
  · next due armed => exact .inl ⟨due, armed, tended⟩
  · next through => exact .inr through
  · simp [atRest] at tended

/-- While the queue is empty, a worker that is not held up runs or is done. -/
theorem Kept.phase_of_rest (kept : e.Kept r k c) (atRest : e.queue = [])
    (free : c.work.phase ≠ .asked) : c.work.phase = .running ∨ c.work.phase = .done := by
  have tended := kept.tended (.code .operation)
  cases work : c.work with
  | queued operation => simp [Tended, work, atRest] at tended
  | asked answer operation => simp [work, Work.phase] at free
  | running since wait => exact .inl rfl
  | done => exact .inr rfl

/-- While the queue is empty, only a call whose worker runs and whose watch waits
holds a ticket. -/
theorem Kept.holding_iff (kept : e.Kept r k c) (atRest : e.queue = []) :
    c.slot = .holding ↔ c.work.phase = .running ∧ c.watch ≠ .done := by
  have sound := kept.sound
  constructor
  · intro seated
    have open_ : c.watch ≠ .done :=
      fun through => absurd (sound.shut_iff.mpr through) (by simp [seated])
    rcases kept.watch_of_rest atRest with ⟨due, armed, _⟩ | through
    · exact ⟨(sound.holding seated).resolve_right (sound.armed due armed), open_⟩
    · exact absurd through open_
  · rintro ⟨running, open_⟩
    cases slot : c.slot with
    | vacant => exact absurd running (sound.vacant slot)
    | holding => rfl
    | shut => exact absurd (sound.shut_iff.mp slot) open_

/-- An undelivered call is at work or being rescued, when nothing can go on and no
deadline is overdue. -/
theorem Kept.working_or_rescuing (kept : e.Kept .ahead k c) (atRest : e.queue = [])
    (unread : c.verdict = none) : e.Working k c ∨ e.Rescuing k c := by
  have phase := kept.phase_of_rest atRest (kept.free (by simp))
  have seated := kept.holding_iff atRest
  have resolution := kept.resolution
  rw [unread] at resolution
  generalize claimed : c.claimed = b at resolution
  generalize rescue : c.rescue = s at resolution
  cases resolution with
  | unclaimed fresh blank =>
      -- A call that nobody claimed is at work, since its worker has had its turn and is not done.
      have open_ := kept.sound.watched claimed
      have running : c.work.phase = .running :=
        phase.resolve_right fun done => by simp [kept.sound.claimed done] at claimed
      obtain ⟨due, armed, ahead⟩ := (kept.watch_of_rest atRest).resolve_right open_
      cases work : c.work with
      | running since wait =>
          apply Or.inl
          have told := kept.told.work
          simp only [work, Work.Told] at told
          have waits : c.wait? .operation = some wait := by simp [Call.wait?, work]
          have minded := (kept.tended (.code .operation)).minded waits
          constructor
          case unreported => simp [Tale.events, blank]
          case started => exact told
          case waits => exact ⟨wait, waits, minded.awaits (by simp) atRest⟩
          case seated => exact seated.mpr ⟨running, open_⟩
          case watched => exact ⟨due, armed, (ahead.resolve_left (by simp)).2 rfl⟩
      | _ => simp [work, Work.phase] at running
  | @rescuing r cause took wait blame rescuable beats =>
      apply Or.inr
      have waits : c.wait? .fallback = some wait := by simp [Call.wait?, rescue]
      have minded := (kept.tended (.code .fallback)).minded waits
      constructor
      case reported => exact ⟨r.outcome, by simp [Tale.events, beats, Beat.outcome?], blame.primary⟩
      case started => exact ⟨r, cause, beats⟩
      case waits => exact ⟨wait, waits, minded.awaits (by simp) atRest⟩
      case unseated =>
        -- A call holds its ticket while it is at work, and this one was claimed.
        intro held
        obtain ⟨running, open_⟩ := seated.mp held
        rcases kept.sound.overtaken claimed with done | through
        · simp [done] at running
        · exact open_ through

/-- A call whose verdict is still to come is at work or being rescued, and not both. -/
def Responsible (e : Engine) (k : CallKey) (c : Call) : Prop :=
  e.Working k c ∧ ¬ e.Rescuing k c ∨ e.Rescuing k c ∧ ¬ e.Working k c

/-- At rest a call without a verdict is at work or being rescued, and not both. -/
theorem Kept.responsible (kept : e.Kept .ahead k c) (atRest : e.queue = [])
    (unread : c.verdict = none) : e.Responsible k c := by
  have apart : e.Working k c → e.Rescuing k c → False := by
    intro working rescuing
    obtain ⟨p, reported, _⟩ := rescuing.reported
    simp [working.unreported] at reported
  rcases kept.working_or_rescuing atRest unread with work | rescue
  · exact .inl ⟨work, apart work⟩
  · exact .inr ⟨rescue, fun work => apart work rescue⟩

/-- Nothing can go on before an alarm goes off or a caller does something: no turn
is left, and no worker is held up. -/
structure AtRest (e : Engine) : Prop where
  queue : e.queue = []
  free : ∀ entry ∈ e.desks, ∀ c ∈ entry.2.calls, c.work.phase ≠ .asked

theorem AtRest.phase (atRest : e.AtRest) (here : e.call? k = some c) :
    c.work.phase ≠ .asked := by
  obtain ⟨desk, found, numbered⟩ := desk_of_call? here
  exact atRest.free _ (Roster.mem_of_get? found) c (List.mem_of_getElem? numbered)

/-- A schedule is at rest after every step. -/
theorem atRest_run (defaults : Overrides) (items : List (Name × Overrides)) (hooks : Hooks)
    (steps : List Step) : ((build defaults items hooks).run steps).AtRest := by
  obtain ⟨ordered, none_⟩ := ordered_run defaults items hooks steps
  refine ⟨none_, ?_⟩
  intro entry member c listed
  obtain ⟨i, numbered⟩ := List.mem_iff_getElem?.mp listed
  have found := Roster.get?_of_mem ordered.orderly.distinct member
  have here : ((build defaults items hooks).run steps).call? ⟨entry.1, i⟩ = some c :=
    (call?_of_desk found i).trans numbered
  exact (ordered.kept _ c (by simp) here).free (by simp)

/-- Wherever a run is at rest with every alarm ahead, and wherever a schedule comes to
rest, each call whose verdict is still to come is at work or being rescued. -/
theorem undelivered :
    (∀ e, Reached e → AtRest e → (∀ a ∈ e.alarms, e.now.nanos < a.due.nanos) →
      ∀ k c, e.call? k = some c → c.verdict = none → e.Responsible k c) ∧
    ∀ defaults items hooks steps, ((build defaults items hooks).run steps).AtRest ∧
      ∀ k c, ((build defaults items hooks).run steps).call? k = some c → c.verdict = none →
        ((build defaults items hooks).run steps).Responsible k c := by
  constructor
  · intro e reached atRest ahead k c here unread
    have ordered := reached.ordered
    have strict : (e.setNow e.now).Ordered .ahead none :=
      ordered.pass (fun _ k c here => atRest.phase here) ahead
    exact (strict.kept k c (by simp) here).responsible atRest.queue unread
  · intro defaults items hooks steps
    obtain ⟨ordered, none_⟩ := ordered_run defaults items hooks steps
    refine ⟨atRest_run defaults items hooks steps, ?_⟩
    intro k c here unread
    exact (ordered.kept k c (by simp) here).responsible none_ unread

/-- A call holds the only ticket of its command while its operation waits for a
call of the same command, which finds none left and waits in its fallback. -/
theorem undelivered_of_nested :
    let e := (build { maxConcurrent := some 1 } [] {}).run [
      .call ⟨"a", "c", .nested ⟨"b", "c", .succeed, some .manual, .detached⟩, none, .detached⟩]
    ∃ outer inner, e.call? ⟨"c", 0⟩ = some outer ∧ outer.verdict = none ∧
      e.call? ⟨"c", 1⟩ = some inner ∧ inner.verdict = none ∧
      e.Responsible ⟨"c", 0⟩ outer ∧ e.Responsible ⟨"c", 1⟩ inner :=
  ⟨_, _, rfl, rfl, rfl, rfl,
    undelivered.1 _ (reached_run { maxConcurrent := some 1 } [] {} _)
      (atRest_run { maxConcurrent := some 1 } [] {} _) (by decide) _ _ rfl rfl,
    (undelivered.2 { maxConcurrent := some 1 } [] {} _).2 _ _ rfl rfl⟩

end Bulwark.Engine
