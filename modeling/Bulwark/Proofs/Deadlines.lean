import Bulwark.Proofs.Prompt
import Bulwark.Proofs.Stranded
import Bulwark.Proofs.Timely

/-!
Every call keeps to its times.

Where everything happens at its time, a call is at any moment within its time
(`Engine.Clocked`), but for the moment between the alarm of its watch and the turn
that the watch then takes (`Engine.Overdue`). Nothing else can happen in between,
since tasks go on before time does.

* `ReachedPromptly.timely`: every call keeps to its times, at every moment.
* `ReachedPromptly.chronological`: the journal tells everything in order.
-/

namespace Bulwark

/-- The journal, newest first, tells everything in order, and nothing before its time. -/
structure Board.Chronological (b : Board) : Prop where
  past : ∀ x ∈ b.journal, x.written.nanos ≤ b.now.nanos
  sorted : b.journal.Pairwise fun x y => y.written.nanos ≤ x.written.nanos

namespace Board

variable {b b' : Board}

theorem Chronological.note (told : b.Chronological) (x : Entry) : (b.note x).Chronological where
  past := by
    intro y member
    rcases List.mem_cons.mp member with rfl | old
    · exact Int.le_refl _
    · exact told.past y old
  sorted := List.pairwise_cons.mpr ⟨told.past, told.sorted⟩

/-- What happens at an instant is told at that instant, so the notes stay in order. -/
theorem Trail.chronological {kind : Entry → Prop} (trail : Trail kind b b')
    (told : b.Chronological) : b'.Chronological := by
  induction trail with
  | refl => exact told
  | note _ _ _ ih => exact ih.note _
  | setHook _ _ _ ih => exact ⟨ih.past, ih.sorted⟩
  | equip _ _ _ ih => exact ⟨ih.past, ih.sorted⟩
  | move _ _ _ ih => exact ⟨ih.past, ih.sorted⟩
  | @record _ n _ caller r _ _ _ ih =>
      have noted := ih.note (.recorded n caller r)
      exact ⟨noted.past, noted.sorted⟩

/-- What was told later was not written earlier. -/
theorem Chronological.written_le (told : b.Chronological) {x y : Note} {earlier : List Note}
    (known : x :: earlier <:+ b.journal) (later : y ∈ b.journal) (fresh : y ∉ earlier) :
    x.written.nanos ≤ y.written.nanos := by
  obtain ⟨new, whole⟩ := known
  rw [← whole] at later
  have sorted := told.sorted
  rw [← whole, List.pairwise_append] at sorted
  rcases List.mem_append.mp later with late | rest
  · exact sorted.2.2 y late x List.mem_cons_self
  · rcases List.mem_cons.mp rest with rfl | old
    · exact Int.le_refl _
    · exact absurd old fresh

end Board

/-- Time passes for a call that has begun and that its watch looks after. -/
theorem Call.Dated.pass {k : CallKey} {s t : Instant} {D : Duration} {b : Board} {c : Call}
    (dated : c.Dated k s D b) (begun : c.work.phase ≠ .queued) (watched : c.watch ≠ .queued)
    (left : c.claimed = false → t.nanos < (s.due D).nanos) :
    c.Dated k s D { b with now := t } where
  start := dated.start
  queued waits := absurd waits begun
  since := dated.since
  watched waits := absurd waits watched
  armed := dated.armed
  unexpired := dated.unexpired
  early := left
  took := dated.took

namespace Engine

variable {k : CallKey} {s : Instant} {D : Duration} {e e' : Engine} {c : Call}

/-- The time of a call is just up, and its watch is about to take its turn and claim the
call, unless somebody has. -/
structure Overdue (k : CallKey) (s : Instant) (D : Duration) (e : Engine) : Prop where
  limit : e.limit k.command = D
  equipped : (e.desks.get? k.command).isSome →
    (e.board.circuits.get? k.command).isSome ∧ 0 < D.nanos
  due : e.now = s.due D
  next : e.queue = [.poll k .watch]
  told : e.board.Chronicled k s D
  dated : ∃ c, e.call? k = some c ∧ c.watch = .expired ∧
    Call.Dated k s D e.board { c with slot := .shut, watch := .done, claimed := true }

/-- A call keeps to its times, up to the moment when its time is up. -/
def Timely (k : CallKey) (e : Engine) : Prop :=
  ∃ s D, e.Clocked k s D ∨ e.Overdue k s D

/-! ### Alarms -/

theorem board_fire (e : Engine) (a : Alarm) : (e.fire a).board = { e.board with now := a.due } :=
  board_updateCall (e.setNow a.due) ..

/-- No alarm is overdue. -/
theorem Ordered.now_le_due (ordered : e.Ordered .ahead none) {a : Alarm} (pending : a ∈ e.alarms) :
    e.now.nanos ≤ a.due.nanos := by
  obtain ⟨c, here, listed⟩ := (mem_alarms_iff ordered.orderly.distinct).mp pending
  have kept := ordered.kept _ c (by simp) here
  rcases Call.mem_alarms.mp listed with ⟨stage, next, part, waits⟩ | ⟨part, armed⟩
  · have minded := (kept.tended (.code stage)).minded waits
    simpa [Minded, Regime.Timer] using minded
  · have tended := kept.tended .watch
    simp only [Tended, armed, Regime.Deadline, reduceCtorEq, false_or] at tended
    exact tended.1

/-! ### Before the call is made -/

/-- A call that was not made and not heard of is clocked from now on. -/
theorem Ordered.clocked_unmade {r : Regime} (ordered : e.Ordered r none)
    (unmade : e.call? k = none) (unheard : Unheard k e.board.journal) :
    e.Clocked k e.now (e.limit k.command) where
  limit := rfl
  equipped used := by
    obtain ⟨desk, found⟩ := Option.isSome_iff_exists.mp used
    have usable := ordered.orderly.usable _ desk found
    refine ⟨ordered.orderly.equipped _ used, ?_⟩
    simpa [Engine.limit, settings?, found] using usable.timeout
  unmade _ := ⟨rfl, unheard⟩
  told made := by simp [unmade] at made
  dated c here := by simp [unmade] at here

/-- Before a call is made it does not matter what the time is. -/
theorem Clocked.repick {r : Regime} (clocked : e.Clocked k s D) (ordered : e'.Ordered r none)
    (unmade : e.call? k = none) (same : e'.call? k = e.call? k)
    (journal : e'.board.journal = e.board.journal) : e'.Timely k :=
  ⟨_, _, .inl (ordered.clocked_unmade (same.trans unmade)
    (journal ▸ (clocked.unmade unmade).2))⟩

/-! ### Turns and steps -/

/-- A change of the policy is no concern of a call that was made. -/
theorem Clocked.change (clocked : e.Clocked k s D) {r : Regime} (ordered : e.Ordered r none)
    (c : Policy.Change) : (e.begin (.change c)).1.Timely k := by
  have changed := ordered.begin (s := .change c) (by simp)
  cases used : e.desks.get? k.command with
  | none =>
      have unmade : e.call? k = none := by simp [call?, used]
      exact clocked.repick changed unmade rfl rfl
  | some desk =>
      refine ⟨s, D, .inl (clocked.quiet .refl rfl ⟨?_, rfl⟩)⟩
      simp [Engine.begin, Engine.limit, settings?, used]

/-- If nobody has claimed a call by the time that is up, its operation has begun and goes on. -/
theorem Overdue.going (overdue : e.Overdue k s D) {r : Regime} (kept : e.Kept r k c)
    (strict : r ≠ .loose) (here : e.call? k = some c) (unclaimed : c.claimed = false) :
    (e.tale k).starts = 1 ∧ (e.tale k).ends = [] := by
  obtain ⟨d, known, expired, dated⟩ := overdue.dated
  obtain rfl := Option.some.inj (here.symm.trans known)
  have told := kept.told.work
  cases work : c.work with
  | queued operation => exact absurd rfl ((dated.queued (by simp [work, Work.phase])).2)
  | asked answer operation =>
      exact absurd (by simp [work, Work.phase]) (kept.free strict)
  | running since wait => simpa only [work, Work.Told] using told
  | done =>
      have through := kept.sound.claimed (by simp [work, Work.phase])
      simp [unclaimed] at through

/-- The watch of a call whose time is up takes its turn. -/
theorem Overdue.take (overdue : e.Overdue k s D) {r : Regime} (ordered : e.Ordered r none)
    (strict : r ≠ .loose) :
    (({ e with queue := [] } : Engine).take (.poll k .watch)).Clocked k s D := by
  obtain ⟨c, here, expired, dated⟩ := overdue.dated
  have queued : e.queue = [] ++ .poll k .watch :: [] := overdue.next
  have kept := ordered.kept k c (by simp) here
  have acting := ordered.open queued here
  obtain ⟨desk, used, _⟩ := desk_of_call? acting.here
  simp only [List.nil_append] at acting used
  simp only [Engine.take, Engine.pollWatch, acting.here, used, expired]
  obtain ⟨claimed, won⟩ := acting.vacate.claim
  generalize taken : ({ e with queue := [] } : Engine) = base at *
  have board : ((base.vacate k).claim k).1.board = e.board := by
    rw [board_claim, board_vacate, ← taken]
  have same : SameTerms k.command e base := taken ▸ ⟨rfl, rfl⟩
  have terms : SameTerms k.command e ((base.vacate k).claim k).1 :=
    same.trans ((SameTerms.vacate ..).trans (SameTerms.claim ..))
  -- The watch leaves and claims in one instant, so only its report is left.
  refine Clocked.expire ?_ fun _ first => ⟨?_, ?_⟩
  · constructor
    case limit => exact terms.limit.trans overdue.limit
    case equipped => rw [terms.desk, board]; exact overdue.equipped
    case unmade =>
      intro unmade
      simp [claimed.here] at unmade
    case told => intro _; rw [board]; exact overdue.told
    case dated =>
      intro d known
      obtain rfl := Option.some.inj (claimed.here.symm.trans known)
      rw [board]
      exact dated
  · rw [← overdue.due, ← taken]
    rfl
  · have same : base.tale k = e.tale k := by rw [← taken]; rfl
    rw [same]
    exact overdue.going kept strict here (by simpa [won] using first)

/-- A call that has begun and whose time is not up goes on when time passes. -/
theorem Clocked.pass (clocked : e.Clocked k s D) (ordered : e.Ordered .ahead none)
    (atRest : e.queue = []) (here : e.call? k = some c) {t : Instant}
    (onward : e.now.nanos ≤ t.nanos)
    (left : c.claimed = false → ∀ due, c.watch = .armed due → t.nanos < due.nanos) :
    (e.setNow t).Clocked k s D := by
  have kept := ordered.kept k c (by simp) here
  have dated := clocked.dated c here
  have told := clocked.told (by rw [here]; rfl)
  constructor
  case limit => exact clocked.limit
  case equipped => exact clocked.equipped
  case unmade =>
    intro unmade
    rw [call?_setNow, here] at unmade
    cases unmade
  case told =>
    intro _
    exact ⟨Int.le_trans told.past onward, told.issued, told.judged⟩
  case dated =>
    intro d known
    rw [call?_setNow] at known
    obtain rfl := Option.some.inj (here.symm.trans known)
    have begun : c.work.phase ≠ .queued := by
      rcases kept.phase_of_rest atRest (kept.free (by simp)) with phase | phase <;> simp [phase]
    rcases kept.watch_of_rest atRest with ⟨due, armed, _⟩ | through
    · refine dated.pass begun (by simp [armed]) fun unclaimed => ?_
      rw [← dated.armed due armed]
      exact left unclaimed due armed
    · refine dated.pass begun (by simp [through]) fun unclaimed => ?_
      exact absurd through (kept.sound.watched unclaimed)

/-- The alarm of another call, or of code, goes off. -/
theorem Clocked.fire (clocked : e.Clocked k s D) (ordered : e.Ordered .ahead none)
    (atRest : e.queue = []) (here : e.call? k = some c) {a : Alarm} (pending : a ∈ e.alarms)
    (sooner : e.Sooner a) (other : a.call = k → a.part ≠ .watch) : (e.fire a).Clocked k s D := by
  have distinct := ordered.orderly.distinct
  have passed : (e.setNow a.due).Clocked k s D := by
    refine clocked.pass ordered atRest here (ordered.now_le_due pending) fun _ due armed => ?_
    refine sooner ⟨due, k, .watch⟩ ((mem_alarms_iff distinct).mpr ⟨c, here, ?_⟩) ?_
    · exact Call.mem_alarms.mpr (.inr ⟨rfl, armed⟩)
    · rintro rfl
      exact other rfl rfl
  refine Clocked.enqueue (passed.updateCall fun self d _ dated => ?_) _
  cases part : a.part with
  | code stage =>
      simp only [Call.ring]
      split
      · exact dated.setWait ..
      · exact dated
  | watch => exact absurd part (other self)

/-- The alarm of the watch goes off. -/
theorem Clocked.overdue (clocked : e.Clocked k s D) (ordered : e.Ordered .ahead none)
    (atRest : e.queue = []) {a : Alarm} (pending : a ∈ e.alarms) (self : a.call = k)
    (watch : a.part = .watch) : (e.fire a).Overdue k s D := by
  subst self
  obtain ⟨c, here, listed⟩ := (mem_alarms_iff ordered.orderly.distinct).mp pending
  have kept := ordered.kept _ c (by simp) here
  have dated := clocked.dated c here
  have told := clocked.told (by rw [here]; rfl)
  have armed : c.watch = .armed a.due := by
    rcases Call.mem_alarms.mp listed with ⟨stage, next, part, waits⟩ | ⟨part, armed⟩
    · simp [watch] at part
    · exact armed
  have due := dated.armed _ armed
  have terms : SameTerms a.call.command e (e.fire a) := by
    have rung := SameTerms.updateCall (e.setNow a.due) a.call.command a.call (·.ring a.part)
    exact ⟨rung.limit, rung.desk⟩
  have board := board_fire e a
  constructor
  case limit => exact terms.limit.trans clocked.limit
  case equipped => rw [terms.desk, board]; exact clocked.equipped
  case due => rw [Engine.now, board]; exact due
  case next => simp [Engine.fire, atRest, watch]
  case told =>
    rw [board]
    exact ⟨Int.le_trans told.past (ordered.now_le_due pending), told.issued, told.judged⟩
  case dated =>
    have rung : (e.fire a).call? a.call = some (c.ring a.part) := by
      have known : (e.setNow a.due).call? a.call = some c := here
      change ((e.setNow a.due).updateCall a.call (·.ring a.part)).call? a.call = _
      rw [call?_updateCall_self, known]
      rfl
    have begun : c.work.phase ≠ .queued := by
      rcases kept.phase_of_rest atRest (kept.free (by simp)) with phase | phase <;> simp [phase]
    refine ⟨_, rung, by simp [watch, Call.ring, armed], ?_⟩
    rw [board]
    simp only [watch, Call.ring, armed]
    exact ⟨dated.start, fun queued => absurd queued begun, dated.since, by simp, by simp, by simp,
      by simp, dated.took⟩

/-- A call keeps to its times whatever happens at its time. -/
theorem Timely.promptly (timely : e.Timely k) (ordered : e.Ordered .ahead none)
    (event : Promptly e e') : e'.Timely k := by
  have after := ordered.promptly event
  obtain ⟨s, D, clocked | overdue⟩ := timely
  · cases event with
    | @begin t atRest still =>
        cases t with
        | change c => exact clocked.change ordered c
        | _ => exact ⟨s, D, .inl (clocked.begin still (by simp))⟩
    | take queued => exact ⟨s, D, .inl (clocked.take ordered queued)⟩
    | @fire a atRest pending sooner =>
        cases here : e.call? k with
        | none =>
            refine clocked.repick after here ?_ ?_
            · have unchanged : (e.setNow a.due).call? k = none := here
              change ((e.setNow a.due).updateCall a.call (·.ring a.part)).call? k = e.call? k
              rw [call?_updateCall, here, unchanged]
              simp
            · rw [board_fire]
        | some c =>
            by_cases own : a.call = k ∧ a.part = .watch
            · exact ⟨s, D, .inr (clocked.overdue ordered atRest pending own.1 own.2)⟩
            · exact ⟨s, D, .inl (clocked.fire ordered atRest here pending sooner
                fun self watch => own ⟨self, watch⟩)⟩
    | @clock t atRest onward ahead =>
        cases here : e.call? k with
        | none => exact clocked.repick after here rfl rfl
        | some c =>
            refine ⟨s, D, .inl (clocked.pass ordered atRest here onward fun _ due armed => ?_)⟩
            have listed : (due, Part.watch) ∈ c.alarms := Call.mem_alarms.mpr (.inr ⟨rfl, armed⟩)
            exact ahead ⟨due, k, .watch⟩
              ((mem_alarms_iff ordered.orderly.distinct).mpr ⟨c, here, listed⟩)
  · -- No caller steps in and no time passes before the watch has taken its turn.
    have busy : e.queue ≠ [] := by simp [overdue.next]
    cases event with
    | begin atRest still => exact absurd atRest busy
    | @take before late u queued =>
        have only := overdue.next.symm.trans queued
        obtain ⟨rfl, rfl, rfl⟩ : before = [] ∧ u = .poll k .watch ∧ late = [] := by
          cases before with
          | nil => simpa using only.symm
          | cons _ _ => simp at only
        exact ⟨s, D, .inl (overdue.take ordered (by simp))⟩
    | fire atRest pending sooner => exact absurd atRest busy
    | clock atRest onward ahead => exact absurd atRest busy

/-! ### Runs -/

/-- At every moment every call keeps to its times. -/
theorem ReachedPromptly.timely (reached : e.ReachedPromptly) (k : CallKey) : e.Timely k := by
  obtain ⟨defaults, items, hooks, run⟩ := reached
  induction run with
  | refl =>
      have start := ordered_build .ahead defaults items hooks
      exact ⟨_, _, .inl (start.clocked_unmade rfl (by simp [Unheard, build]))⟩
  | next before event ih =>
      exact ih.promptly (ReachedPromptly.ordered ⟨defaults, items, hooks, before⟩) event

/-- What happens at its time is told in order. -/
theorem Promptly.chronological (event : Promptly e e') (ordered : e.Ordered .ahead none)
    (told : e.board.Chronological) : e'.board.Chronological := by
  have moved : ∀ {t : Instant}, e.now.nanos ≤ t.nanos →
      Board.Chronological { e.board with now := t } := fun onward =>
    ⟨fun x member => Int.le_trans (told.past x member) onward, told.sorted⟩
  cases event with
  | begin atRest still => exact ((Says.refl default e).begin still).trail.chronological told
  | @take before after u queued =>
      have start : ({ e with queue := before ++ after } : Engine).board.Chronological := told
      rcases u with spec | ⟨j, stage | _⟩
      · exact ((Says.refl default _).launch spec).trail.chronological start
      · exact ((Says.refl j _).pollCode stage).trail.chronological start
      · exact ((Says.refl j _).pollWatch).trail.chronological start
  | fire atRest pending sooner =>
      rw [board_fire]
      exact moved (ordered.now_le_due pending)
  | clock atRest onward ahead => exact moved onward

/-- The notes of an engine that is served promptly are in order of time. -/
theorem ReachedPromptly.chronological (reached : e.ReachedPromptly) : e.board.Chronological := by
  obtain ⟨defaults, items, hooks, run⟩ := reached
  induction run with
  | refl => exact ⟨by simp [build], by simp [build]⟩
  | next before event ih =>
      exact event.chronological (ReachedPromptly.ordered ⟨defaults, items, hooks, before⟩) ih

end Engine

end Bulwark
