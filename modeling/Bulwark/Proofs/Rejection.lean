import Bulwark.Proofs.Outcomes

/-!
Why a call is rejected.

A call that was rejected reported that first, and its operation never started. So
an event by which a call comes to have been rejected is neither one in which the
call reports something else first nor one in which its operation starts. What is
left is the turn in which its worker asks for a ticket and finds none
(`Ordered.full_of_rejected`).
-/

namespace Bulwark

namespace Engine

variable {r : Regime} {e e' m : Engine} {j k : CallKey} {c : Call} {t : Tale}

/-- What was told before is a first part of what is told after. -/
theorem Says.earlier (spoken : Says j m e') (k : CallKey) :
    (m.tale k).events <+: (e'.tale k).events ∧ (m.tale k).starts ≤ (e'.tale k).starts := by
  obtain ⟨new, grown, _⟩ := spoken.trail.journal
  have past : m.board.journal <:+ e'.board.journal := ⟨new, grown.symm⟩
  exact ⟨Tale.events_of_earlier past k, Tale.starts_of_earlier past k⟩

/-- The call is on another way than to be rejected: it reported something else, or
its operation started. -/
def Elsewhere (e : Engine) (k : CallKey) : Prop :=
  (e.tale k).starts ≠ 0 ∨ ∃ o rest, (e.tale k).events = o :: rest ∧ o ≠ .rejected

/-- A call that is on another way is not rejected later in the same turn. -/
theorem Ordered.not_rejected (ordered : e'.Ordered r none) (spoken : Says j m e')
    (elsewhere : m.Elsewhere k) : .rejected ∉ (e'.tale k).events := by
  intro rejected
  obtain ⟨grown, more⟩ := spoken.earlier k
  have first : (e'.tale k).starts = 0 ∧ (e'.tale k).events.head? = some .rejected := by
    cases here : e'.call? k with
    | none =>
        have blank := ordered.orderly.blank k here
        simp [blank, Tale.events] at rejected
    | some c =>
        have resolution := (ordered.kept k c (by simp) here).resolution
        exact ⟨resolution.idle (.inl rejected),
          (resolution.cause_of_event rejected rfl (by simp)).1⟩
  rcases elsewhere with started | ⟨o, rest, reported, other⟩
  · omega
  · obtain ⟨later, same⟩ := grown
    rw [← same, reported] at first
    exact other (by simpa using first.2)

namespace Acting

/-- A call that is turned away for another reason reports that first. -/
theorem turnAway_elsewhere (acting : e.Acting r k c t (some (.code .operation)))
    (unclaimed : c.claimed = false) (blank : t.beats = []) {outcome : Outcome}
    (other : outcome ≠ .rejected) (n : Remark) (cause : CallError) :
    ∃ m, Says k m (e.turnAway k n outcome cause) ∧ m.Elsewhere k := by
  obtain ⟨claimed, won⟩ := acting.dismiss.claim
  simp only [Engine.turnAway]
  split
  · next after lost =>
      rw [lost] at won
      simp [unclaimed] at won
  · next after first =>
      rw [first] at claimed
      have reported := (claimed.remark k.command n).report outcome .zero
      refine ⟨_, (Says.refl k _).resolve cause .zero, .inr ⟨outcome, [], ?_, other⟩⟩
      rw [reported.tale]
      simp [Tale.events, Beat.outcome?, blank]

/-- A call whose time is up reports that first. -/
theorem expire_elsewhere (acting : e.Acting r k c t (some .watch)) (unclaimed : c.claimed = false)
    (blank : t.beats = []) : ∃ m, Says k m (e.expire k) ∧ m.Elsewhere k := by
  obtain ⟨claimed, won⟩ := acting.vacate.claim
  simp only [Engine.expire]
  split
  · next after lost =>
      rw [lost] at won
      simp [unclaimed] at won
  · next after first =>
      rw [first] at claimed
      generalize Remark.deadlineExceeded _ = n
      have reported := (claimed.remark k.command n).report .timeout .zero
      refine ⟨_, (Says.refl k _).resolve .timeout .zero, .inr ⟨.timeout, [], ?_, by simp⟩⟩
      rw [reported.tale]
      simp [Tale.events, Beat.outcome?, blank]

/-- A call that enters while a ticket is free is not rejected. -/
theorem enter_elsewhere (acting : e.Acting r k c t (some (.code .operation))) (sound : c.Sound)
    (waits : c.work.phase = .queued ∨ c.work.phase = .asked) (unclaimed : c.claimed = false)
    (blank : t.beats = []) {desk : Desk} (found : e.desks.get? k.command = some desk)
    (free : desk.pool.free ≠ 0) (answer : Bool) (operation : Script) :
    ∃ m, Says k m (e.enter k answer operation) ∧ m.Elsewhere k := by
  cases answer with
  | false => exact acting.turnAway_elsewhere unclaimed blank (by simp) .shortCircuited .circuitOpen
  | true =>
      have vacant : c.slot = .vacant := by
        cases slot : c.slot with
        | vacant => rfl
        | holding => rcases sound.holding slot, waits with ⟨h | h, g | g⟩ <;> simp [h] at g
        | shut => exact absurd (sound.shut_iff.mp slot) (sound.watched unclaimed)
      have granted : desk.pool.acquire? = some { desk.pool with free := desk.pool.free - 1 } := by
        simp [Pool.acquire?, free]
      have marked := acting.embark found granted vacant
      refine ⟨_, ?_, .inl (by rw [marked.tale]; simp)⟩
      simp only [Engine.enter, if_true, acting.here, found, vacant, granted]
      exact (Says.refl k _).playOperation e.now operation

end Acting

@[simp] theorem tale_vacate (i j : CallKey) : (e.vacate i).tale j = e.tale j := by
  unfold vacate
  split
  · rfl
  · dsimp only
    split
    · rw [tale_updateDesk, tale_updateCall]
    · exact tale_updateCall ..

/-- A turn of a call is taken with nothing told of the call, or leads it elsewhere, if
a ticket is free. -/
theorem Acting.take_elsewhere {p : Part} (acting : e.Acting r k c t (some p)) (sound : c.Sound)
    (told : c.Told t) (resolution : Resolution t c.claimed c.rescue c.verdict)
    (fresh : .rejected ∉ t.events) {desk : Desk} (found : e.desks.get? k.command = some desk)
    (free : desk.pool.free ≠ 0) :
    (((e.take (.poll k p)).tale k) = t) ∨
      ∃ m, Says k m (e.take (.poll k p)) ∧ m.Elsewhere k := by
  have same : e.tale k = t := acting.tale
  rcases p with stage | _
  · simp only [Engine.take, Engine.pollCode, acting.here]
    cases stage with
    | operation =>
        cases work : c.work with
        | queued operation =>
            cases claimed : c.claimed with
            | true =>
                apply Or.inl
                simp only [Engine.start, acting.here, claimed, if_true, tale_dismiss, same]
            | false =>
                rw [claimed] at resolution
                apply Or.inr
                simp only [Engine.start, acting.here, claimed, Bool.false_eq_true, if_false]
                exact acting.ask.enter_elsewhere sound (.inl (by simp [work, Work.phase])) claimed
                  resolution.of_unclaimed.2.1 found free _ _
        | running since wait =>
            cases wait with
            | turn next =>
                have started : t.starts = 1 := by
                  have past := told.work
                  simp only [work, Work.Told] at past
                  exact past.1
                exact .inr ⟨e, (Says.refl k e).playOperation since next,
                  .inl (by rw [same, started]; simp)⟩
            | timer | manual | call => exact .inl same
        | asked | done => exact .inl same
    | fallback =>
        cases rescue : c.rescue with
        | running cause took wait =>
            cases wait with
            | turn next =>
                rw [rescue] at resolution
                -- A fallback goes on for what was reported before.
                obtain ⟨_, _, rep, _, _, beats⟩ := resolution.of_running
                have reported : t.events = [rep.outcome] := by
                  simp [Tale.events, beats, Beat.outcome?]
                refine .inr ⟨e, (Says.refl k e).playRescue cause took next,
                  .inr ⟨rep.outcome, [], by rw [same, reported], fun rejected => fresh ?_⟩⟩
                rw [reported, rejected]
                exact List.mem_singleton.mpr rfl
            | timer | manual | call => exact .inl same
        | none | unused => exact .inl same
  · simp only [Engine.take, Engine.pollWatch, acting.here, found]
    cases watch : c.watch with
    | queued =>
        dsimp only
        split
        · exact .inl (by rw [tale_vacate, same])
        · exact .inl (by rw [tale_updateCall, same])
    | dismissed => exact .inl (by rw [tale_vacate, same])
    | armed | done => exact .inl same
    | expired =>
        cases claimed : c.claimed with
        | true =>
            have lost : (e.vacate k).claim k = (e.vacate k, false) :=
              claim_of_claimed acting.vacate.here claimed
            apply Or.inl
            simp only [Engine.expire, lost, tale_vacate, same]
        | false =>
            rw [claimed] at resolution
            exact .inr (acting.expire_elsewhere claimed resolution.of_unclaimed.2.1)

/-- If an event makes a call one that was rejected, no ticket of its command is free. -/
theorem Ordered.full_of_rejected (ordered : e.Ordered .loose none) (event : Next e e')
    (rejected : .rejected ∈ (e'.tale k).events) (fresh : .rejected ∉ (e.tale k).events)
    {desk : Desk} (found : e.desks.get? k.command = some desk) : desk.pool.free = 0 := by
  have settled := ordered.next event
  -- With a free ticket the turn of the call ends elsewhere than in a rejection.
  apply Decidable.byContradiction
  intro free
  have unmoved : (e'.tale k).beats ≠ (e.tale k).beats := fun same =>
    fresh (by simpa only [Tale.events, same] using rejected)
  rcases event.own_turn k with ⟨same, _⟩ | ⟨before, after, p, queued, rfl⟩ |
    ⟨d, answer, operation, known, work, rfl⟩
  case inl => exact unmoved same
  case inr.inl =>
    cases here : e.call? k with
    | none =>
        have blank := ordered.orderly.blank k here
        have gone : ({ e with queue := before ++ after } : Engine).call? k = none := here
        apply unmoved
        rcases p with stage | _
        · simp only [Engine.take, Engine.pollCode, gone]
          rfl
        · simp only [Engine.take, Engine.pollWatch, gone]
          rfl
    | some c =>
        have kept := ordered.kept k c (by simp) here
        rcases (ordered.open queued here).take_elsewhere kept.sound kept.told kept.resolution
          fresh found free with same | ⟨m, spoken, elsewhere⟩
        · exact unmoved (congrArg Tale.beats same)
        · exact settled.not_rejected spoken elsewhere rejected
  case inr.inr =>
    have kept := ordered.kept k d (by simp) known
    cases claimed : d.claimed with
    | true =>
        rw [tale_goOn_of_claimed known kept.sound claimed work] at unmoved
        exact unmoved rfl
    | false =>
        have resolution := kept.resolution
        rw [claimed] at resolution
        have acting := (ordered.act known).engage (some (.code .operation))
        obtain ⟨m, spoken, elsewhere⟩ := acting.enter_elsewhere kept.sound
          (.inr (by simp [work, Work.phase])) claimed resolution.of_unclaimed.2.1 found free answer
          operation
        have entered : Says k m (e.goOn k) := by simpa only [Engine.goOn, known, work] using spoken
        exact settled.not_rejected entered elsewhere rejected

end Engine

end Bulwark
