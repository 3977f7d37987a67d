import Bulwark.Proofs.Play

/-!
The worker of a call.

The worker is followed from its first turn on: it may find the call claimed and
leave, it may be turned away by the circuit or the pool, or it takes a ticket and
starts the operation. The operation goes on until it has to wait or ends, and
when it ends the worker claims the call unless the watch has done so. Each time
all is in order after that.

* `Acting.enter`, `Acting.start`: the first turn of the worker.
* `Acting.playOperation`: every later turn.
* `Acting.hold`, `Acting.goOn`: a worker may be held up after the circuit has
  answered, under the regime that allows it.
-/

namespace Bulwark

/-! ### The worker is done -/

/-- A call whose worker is done: a watch that waited for that has its turn. -/
def Call.leave (c : Call) : Call :=
  match c.watch with
  | .armed _ => { c with work := .done, watch := .dismissed }
  | _ => { c with work := .done }

namespace Call

variable (c : Call)

@[simp] theorem work_leave : c.leave.work = .done := by unfold leave; split <;> rfl
@[simp] theorem slot_leave : c.leave.slot = c.slot := by unfold leave; split <;> rfl
@[simp] theorem start_leave : c.leave.start = c.start := by unfold leave; split <;> rfl
@[simp] theorem rescue_leave : c.leave.rescue = c.rescue := by unfold leave; split <;> rfl
@[simp] theorem claimed_leave : c.leave.claimed = c.claimed := by unfold leave; split <;> rfl
@[simp] theorem verdict_leave : c.leave.verdict = c.verdict := by unfold leave; split <;> rfl
@[simp] theorem waiter_leave : c.leave.waiter = c.waiter := by unfold leave; split <;> rfl

theorem watch_leave_eq_done_iff : c.leave.watch = .done ↔ c.watch = .done := by
  unfold leave
  split
  · next armed => simp [armed]
  · rfl

def quit : Call := { c.leave with claimed := true }

variable {c}

/-- A call that was claimed and left is sound if its ticket and its watch agree. -/
theorem sound_quit (shut : c.slot = .shut ↔ c.watch = .done) : c.quit.Sound where
  shut_iff := by simpa [quit, watch_leave_eq_done_iff] using shut
  vacant := by simp [quit, Work.phase]
  holding := by simp [quit, Work.phase]
  claimed := by simp [quit]
  armed due := by
    simp only [quit, leave]
    split
    · simp
    · next unarmed => exact fun armed => absurd armed (unarmed due)
  dismissed := by simp [quit, Work.phase]
  overtaken := by simp [quit, Work.phase]
  watched := by simp [quit]

/-- The bookkeeping of an unclaimed call once it has a ticket and its operation runs. -/
theorem sound_embarked (sound : c.Sound) (unclaimed : c.claimed = false)
    (notDone : c.work.phase ≠ .done) (since : Instant) (wait : Wait) :
    Sound { c with slot := .holding, work := .running since wait } where
  shut_iff := by simpa using sound.watched unclaimed
  vacant := by simp
  holding := by simp [Work.phase]
  claimed := by simp [Work.phase]
  armed := by simp [Work.phase]
  dismissed dismissed := absurd (sound.dismissed dismissed) notDone
  overtaken := by simp [unclaimed]
  watched := sound.watched

theorem leave_eq_quit (claimed : c.claimed = true) : c.leave = c.quit := by
  have kept : c.leave.claimed = true := by simpa using claimed
  unfold quit
  rw [← kept]

theorem told_quit {t : Tale}
    (past : t.starts = 0 ∧ t.ends = [] ∨ t.starts = 1 ∧ ∃ fault, t.ends = [fault])
    (late : .timeout ∈ t.events → c.watch = .done) : c.quit.Told t where
  work := by simpa [quit, Work.Told] using past
  late timedOut := (watch_leave_eq_done_iff c).mpr (late timedOut)

end Call

theorem Resolution.of_unclaimed {t : Tale} {rescue : Rescue} {verdict : Option Verdict}
    (resolution : Resolution t false rescue verdict) :
    rescue.Fresh t.rescuable ∧ t.beats = [] ∧ verdict = none := by
  cases resolution with
  | unclaimed fresh blank => exact ⟨fresh, blank, rfl⟩

/-- An operation that ends after its call was claimed changes nothing about the
resolution. -/
theorem Resolution.of_ends {t : Tale} {rescue : Rescue} {verdict : Option Verdict}
    (resolution : Resolution t true rescue verdict) (open_ : t.ends = [])
    (ends : List (Option Fault)) :
    Resolution { t with ends := ends } true rescue verdict := by
  have blame : ∀ {o cause}, t.Cause o cause → Tale.Cause { t with ends := ends } o cause := by
    intro o cause blame
    cases blame with
    | shortCircuited idle => exact .shortCircuited idle
    | rejected idle => exact .rejected idle
    | timeout => exact .timeout
    | failure ended => simp [open_] at ended
  cases resolution with
  | succeeded fresh success ended beats => simp [open_] at ended
  | denied cause unrescued beats => exact .denied (blame cause) unrescued beats
  | rescuing cause rescuable beats => exact .rescuing (blame cause) rescuable beats
  | rescued cause rescuable success beats => exact .rescued (blame cause) rescuable success beats
  | lost cause rescuable failure beats => exact .lost (blame cause) rescuable failure beats

namespace Engine

variable {r : Regime} {e : Engine} {k : CallKey} {c : Call} {t : Tale} {away : Option CallKey}

namespace Acting

/-- The part that was busy is seen to again. -/
theorem disengage {p : Part} (acting : e.Acting r k c t (some p)) (tended : e.Tended r k c p) :
    e.Acting r k c t none where
  rest := acting.rest
  here := acting.here
  tale := acting.tale
  tended q _ := by
    by_cases same : q = p
    · exact same ▸ tended
    · exact acting.tended q (by simpa using same)

/-- To dismiss a worker is to leave its call, and to dismiss its watch where that waits. -/
theorem dismiss (acting : e.Acting r k c t (some (.code .operation))) :
    (e.dismiss k).Acting r k c.leave t none := by
  simp only [Engine.dismiss, acting.here]
  split
  · next due armed =>
      let left : Call → Call := fun c => { c with work := .done, watch := .dismissed }
      rw [show c.leave = left c by simp only [Call.leave, armed, left]]
      have gone : (e.updateCall k left).Acting r k (left c) t (some .watch) := by
        refine acting.update (f := left) (fun _ => rfl) rfl rfl ?_
        intro p free
        rcases p with stage | _
        · cases stage with
          | operation => trivial
          | fallback => exact acting.tended (.code .fallback) (by simp)
        · exact absurd rfl free
      apply (gone.enqueue (.poll k .watch)).disengage
      exact List.mem_append_right _ (List.mem_singleton.mpr rfl)
  · next unarmed =>
      let left : Call → Call := fun c => { c with work := .done }
      have gone : c.leave = left c := by
        unfold Call.leave
        split
        · next due armed => exact absurd armed (unarmed due)
        · rfl
      rw [gone]
      refine acting.update (f := left) (fun _ => rfl) rfl rfl ?_
      intro p _
      rcases p with stage | _
      · cases stage with
        | operation => trivial
        | fallback => exact acting.tended (.code .fallback) (by simp)
      · exact acting.tended .watch (by simp)

/-- A claim is granted to whoever comes first, and after it the call is claimed. -/
theorem claim (acting : e.Acting r k c t none) :
    (e.claim k).1.Acting r k { c with claimed := true } t none ∧
      (e.claim k).2 = !c.claimed := by
  simp only [Engine.claim, acting.here]
  split
  · next claimed =>
      have same : { c with claimed := true } = c := by rw [← claimed]
      exact ⟨same ▸ acting, by simp [claimed]⟩
  · next unclaimed =>
      let own : Call → Call := fun c => { c with claimed := true }
      constructor
      · exact acting.update (f := own) (fun _ => rfl) rfl rfl acting.tended
      · simp [unclaimed]

/-- A call that is not let through is in order after that. -/
theorem turnAway {outcome : Outcome} {cause : CallError}
    (acting : e.Acting r k c t (some (.code .operation)))
    (shut : c.slot = .shut ↔ c.watch = .done) (idle : t.starts = 0 ∧ t.ends = [])
    (late : .timeout ∈ t.events → c.watch = .done)
    (resolution : Resolution t c.claimed c.rescue c.verdict) (blame : t.Cause outcome cause)
    (other : outcome ≠ .timeout) (m : Remark) :
    (e.turnAway k m outcome cause).Ordered r none := by
  obtain ⟨claimed, won⟩ := acting.dismiss.claim
  simp only [Engine.turnAway]
  split
  · next after lost =>
      rw [lost] at claimed won
      have already : c.claimed = true := by simpa using won
      apply claimed.close (Call.sound_quit shut) (Call.told_quit (.inl idle) late)
      simpa [already] using resolution
  · next after first =>
      rw [first] at claimed won
      have unclaimed : c.claimed = false := by simpa using won
      rw [unclaimed] at resolution
      obtain ⟨fresh, blank, unread⟩ := resolution.of_unclaimed
      refine ((claimed.remark k.command m).report outcome .zero).resolve
        ⟨outcome, c.leave.start, .zero⟩ (Call.sound_quit shut)
        (Call.told_quit (.inl idle) fun timedOut => late ?_) rfl (by simpa using unread)
        (by simpa using fresh) (blame.of_beats _) (by simp [blank]) .zero
      simpa [Tale.events, Beat.outcome?, Ne.symm other] using timedOut

/-! ### The operation -/

/-- Whatever the operation ended with, the call is in order after that. -/
theorem endOperation (acting : e.Acting r k c t (some (.code .operation)))
    (shut : c.slot = .shut ↔ c.watch = .done) (started : t.starts = 1) (open_ : t.ends = [])
    (late : .timeout ∈ t.events → c.watch = .done)
    (resolution : Resolution t c.claimed c.rescue c.verdict) (took : Duration)
    (fault : Option Fault) : (e.endOperation k took fault).Ordered r none := by
  obtain ⟨claimed, won⟩ := (acting.note (x := .ended k .operation fault) rfl).dismiss.claim
  have told : c.quit.Told (t.add (.ended k .operation fault)) :=
    Call.told_quit (.inr ⟨started, fault, by simp [Tale.add, open_]⟩) late
  have ended : (t.add (.ended k .operation fault)).ends = [fault] := by simp [Tale.add, open_]
  cases verdict : ((e.note (.ended k .operation fault)).dismiss k).claim k with
  | mk after first =>
      rw [verdict] at claimed won
      cases first with
      | false =>
          -- The watch was faster, so the call is resolved and the end comes too late.
          have already : c.claimed = true := by simpa using won
          have finished : after.Ordered r none := by
            apply claimed.close (Call.sound_quit shut) told
            rw [already] at resolution
            simpa [Tale.add] using resolution.of_ends open_ (t.ends ++ [fault])
          cases fault with
          | none => simpa only [Engine.endOperation, verdict] using finished
          | some fault =>
              simp only [Engine.endOperation, verdict]
              exact finished.besides (besides_note _) (by simp) fun _ _ => rfl
      | true =>
          have unclaimed : c.claimed = false := by simpa using won
          rw [unclaimed] at resolution
          obtain ⟨fresh, blank, unread⟩ := resolution.of_unclaimed
          cases fault with
          | none =>
              simp only [Engine.endOperation, verdict]
              refine (claimed.report .success took).deliver (Call.sound_quit shut)
                ⟨told.work, fun timedOut => told.late ?_⟩ ?_
              · simpa [Tale.events, Beat.outcome?] using timedOut
              · refine .succeeded (r := ⟨.success, c.leave.start, took⟩) ?_ rfl ended ?_
                · simpa [Tale.add] using fresh
                · simp [Tale.add, blank]
          | some fault =>
              simp only [Engine.endOperation, verdict]
              refine (claimed.report .failure took).resolve
                ⟨.failure, c.leave.start, took⟩ (Call.sound_quit shut)
                ⟨told.work, fun timedOut => told.late ?_⟩ rfl (by simpa using unread)
                (by simpa [Tale.add] using fresh) (.failure ended) (by simp [Tale.add, blank]) took
              simpa [Tale.events, Beat.outcome?] using timedOut

/-- The operation of a call goes on. -/
theorem playOperation {since : Instant} (acting : e.Acting r k c t (some (.code .operation)))
    (idle : c.isManual .operation = false)
    (sound : ∀ wait, Call.Sound { c with work := .running since wait }) (started : t.starts = 1)
    (open_ : t.ends = []) (late : .timeout ∈ t.events → c.watch = .done)
    (resolution : Resolution t c.claimed c.rescue c.verdict) (s : Script) :
    (e.playOperation k since s).Ordered r none := by
  obtain ⟨c', played, spared, minded⟩ := acting.play idle s
  have shut' : c'.slot = .shut ↔ c'.watch = .done := by
    rw [spared.slot, spared.watch]
    exact (sound .manual).shut_iff
  have late' : .timeout ∈ t.events → c'.watch = .done := by rwa [spared.watch]
  simp only [Engine.playOperation]
  split
  · next after wait went =>
      rw [went] at played minded
      let waiting : Call → Call := fun c => { c with work := .running since wait }
      refine Acting.close (k := k) (c := waiting c') (t := t) ?_ ?_ ⟨⟨started, open_⟩, late'⟩
        (spared.resolution resolution)
      · refine played.update (f := waiting) (fun _ => rfl) rfl rfl ?_
        intro p _
        rcases p with stage | _
        · cases stage with
          | operation => exact minded wait rfl
          | fallback => exact played.tended (.code .fallback) (by simp)
        · exact played.tended .watch (by simp)
      · have before := sound wait
        exact before.congr spared.slot spared.watch spared.claimed rfl
  · next after went =>
      rw [went] at played
      exact played.endOperation shut' started open_ late' (spared.resolution resolution) _ _
  · next after fault went =>
      rw [went] at played
      exact played.endOperation shut' started open_ late' (spared.resolution resolution) _ _

/-! ### Entering -/

/-- The call takes a ticket from the pool. -/
theorem seat (acting : e.Acting r k c t (some (.code .operation))) {desk : Desk} {pool : Pool}
    (found : e.desks.get? k.command = some desk) (granted : desk.pool.acquire? = some pool)
    (vacant : c.slot = .vacant) :
    ((e.updateDesk k.command fun desk => { desk with pool := pool }).updateCall k
      fun c => { c with slot := .holding }).Acting r k { c with slot := .holding } t
        (some (.code .operation)) := by
  let sit : Call → Call := fun c => { c with slot := .holding }
  obtain ⟨capacity, free⟩ := Pool.of_acquire? granted
  have work := deskwork_of_pool acting.here found (f := sit) (g := fun _ => pool) capacity
    (by simp [sit, vacant, free])
  rw [Engine.updateCall, updateDesk_updateDesk]
  exact acting.deskwork work rfl rfl acting.tended

/-- The call takes a ticket, and its operation starts. -/
theorem embark (acting : e.Acting r k c t (some (.code .operation))) {desk : Desk} {pool : Pool}
    (found : e.desks.get? k.command = some desk) (granted : desk.pool.acquire? = some pool)
    (vacant : c.slot = .vacant) :
    (((e.updateDesk k.command fun desk => { desk with pool := pool }).updateCall k
      fun c => { c with slot := .holding }).mark k .operation .started).Acting r k
        { c with slot := .holding } { t with starts := t.starts + 1 }
        (some (.code .operation)) := by
  have seated := acting.seat found granted vacant
  have marked := seated.note (x := .operation k c.id .started) rfl
  simp only [Engine.mark, seated.here]
  exact marked

/-- The worker of a claimed call leaves without a trace. -/
theorem withdraw (acting : e.Acting r k c t (some (.code .operation)))
    (shut : c.slot = .shut ↔ c.watch = .done) (idle : t.starts = 0 ∧ t.ends = [])
    (late : .timeout ∈ t.events → c.watch = .done) (claimed : c.claimed = true)
    (resolution : Resolution t c.claimed c.rescue c.verdict) : (e.dismiss k).Ordered r none := by
  have left := acting.dismiss
  rw [Call.leave_eq_quit claimed] at left
  apply left.close (Call.sound_quit shut) (Call.told_quit (.inl idle) late)
  simpa [Call.quit, claimed] using resolution

/-- The worker goes on after the circuit has answered. -/
theorem enter (acting : e.Acting r k c t (some (.code .operation))) (sound : c.Sound)
    (told : c.Told t) (waits : c.work.phase = .queued ∨ c.work.phase = .asked)
    (resolution : Resolution t c.claimed c.rescue c.verdict) (answer : Bool)
    (operation : Script) : (e.enter k answer operation).Ordered r none := by
  have idle : t.starts = 0 ∧ t.ends = [] := by
    have past := told.work
    cases found : c.work with
    | queued operation => simpa only [found, Work.Told] using past
    | asked answer operation => simpa only [found, Work.Told] using past
    | running since wait => simp [found, Work.phase] at waits
    | done => simp [found, Work.phase] at waits
  have notDone : c.work.phase ≠ .done := by rcases waits with h | h <;> simp [h]
  cases answer with
  | false =>
      exact acting.turnAway sound.shut_iff idle told.late resolution (.shortCircuited idle.1)
        (by simp) .shortCircuited
  | true =>
      obtain ⟨desk, found, _⟩ := desk_of_call? acting.here
      simp only [Engine.enter, if_true, acting.here, found]
      split
      · next shut =>
          -- The watch has shut the place for the ticket, so the call is claimed.
          have claimed : c.claimed = true := by
            have unwatched := sound.shut_iff.mp shut
            cases claimed : c.claimed with
            | true => rfl
            | false => exact absurd unwatched (sound.watched claimed)
          exact acting.withdraw sound.shut_iff idle told.late claimed resolution
      · next unshut =>
          -- While the place is not shut, nobody has claimed the call.
          have vacant : c.slot = .vacant := by
            cases slot : c.slot with
            | vacant => rfl
            | holding => rcases sound.holding slot, waits with ⟨h | h, g | g⟩ <;> simp [h] at g
            | shut => exact absurd slot unshut
          have watched : c.watch ≠ .done := fun through => unshut (sound.shut_iff.mpr through)
          have unclaimed : c.claimed = false := by
            cases claimed : c.claimed with
            | false => rfl
            | true => rcases sound.overtaken claimed with h | h <;> contradiction
          split
          · exact acting.turnAway sound.shut_iff idle told.late resolution (.rejected idle.1)
              (by simp) .rejected
          · next pool granted =>
              have marked := acting.embark found granted vacant
              have sound' := Call.sound_embarked sound unclaimed notDone e.now
              refine marked.playOperation ?_ sound' ?_ idle.2 told.late ?_ operation
              · cases work : c.work <;>
                  simp [work, Work.phase, Call.isManual, Call.wait?] at waits ⊢
              · simp [idle.1]
              · rw [unclaimed] at resolution
                obtain ⟨fresh, blank, unread⟩ := resolution.of_unclaimed
                simp only [unclaimed, unread]
                exact .unclaimed fresh blank

/-- The first turn of the worker. -/
theorem start {operation : Script} (acting : e.Acting r k c t (some (.code .operation)))
    (sound : c.Sound) (told : c.Told t) (queued : c.work = .queued operation)
    (resolution : Resolution t c.claimed c.rescue c.verdict) :
    (e.start k operation).Ordered r none := by
  simp only [Engine.start, acting.here]
  split
  · next claimed =>
      have idle : t.starts = 0 ∧ t.ends = [] := by
        simpa only [queued, Work.Told] using told.work
      exact acting.withdraw sound.shut_iff idle told.late claimed resolution
  · exact acting.ask.enter sound told (.inl (by simp [queued, Work.phase])) resolution _ _

/-- A worker asks the circuit and is held up. -/
theorem hold {operation : Script} (acting : e.Acting .loose k c t (some (.code .operation)))
    (sound : c.Sound) (told : c.Told t) (queued : c.work = .queued operation)
    (resolution : Resolution t c.claimed c.rescue c.verdict) :
    (e.hold k operation).Ordered .loose none := by
  let answer := (e.ask k).2
  let held : Call → Call := fun c => { c with work := .asked answer operation }
  have notDone : c.work.phase ≠ .done := by simp [queued, Work.phase]
  have asked : ((e.ask k).1.updateCall k held).Acting .loose k (held c) t none := by
    refine acting.ask.update (f := held) (fun _ => rfl) rfl rfl ?_
    intro p _
    rcases p with stage | _
    · cases stage with
      | operation => exact rfl
      | fallback => exact acting.ask.tended (.code .fallback) (by simp)
    · exact acting.ask.tended .watch (by simp)
  have told' : (held c).Told t := ⟨by simpa only [queued, Work.Told] using told.work, told.late⟩
  refine asked.close ?_ told' resolution
  constructor
  case shut_iff => exact sound.shut_iff
  case vacant => simp [held, Work.phase]
  case holding =>
    intro seated
    have past := sound.holding seated
    simp [queued, Work.phase] at past
  case claimed => simp [held, Work.phase]
  case armed => simp [held, Work.phase]
  case dismissed => exact fun dismissed => absurd (sound.dismissed dismissed) notDone
  case overtaken => exact fun claimed => .inr ((sound.overtaken claimed).resolve_left notDone)
  case watched => exact sound.watched

/-- A worker that was held up goes on. -/
theorem goOn (acting : e.Acting r k c t (some (.code .operation))) (sound : c.Sound)
    (told : c.Told t) (resolution : Resolution t c.claimed c.rescue c.verdict)
    {answer : Bool} {operation : Script} (asked : c.work = .asked answer operation) :
    (e.goOn k).Ordered r none := by
  simp only [Engine.goOn, acting.here, asked]
  exact acting.enter sound told (.inr (by simp [asked, Work.phase])) resolution _ _

end Acting

end Engine

end Bulwark
