import Bulwark.Proofs.Rest

/-!
Every call is resolved once.

A call reports a success, or how it went wrong and then perhaps how its fallback
went (`Course`), and at every moment it has reported a first part of that. The
fallback starts at most once, right after the report and with the error that the
report stands for. The operation starts at most once, and not at all if the call
was not let through. An operation that ends after the time of its call was up
finds the call claimed, and adds nothing (`Ordered.beats_late`).
-/

namespace Bulwark

/-- What a call may report in all, in order. -/
inductive Course (rescuable : Bool) : List Outcome → Prop where
  | succeeded : Course rescuable [.success]
  | denied {p : Outcome} : p.isPrimary = true → p.isError = true → Course rescuable [p]
  | rescued {p : Outcome} : p.isPrimary = true → p.isError = true → rescuable = true →
      Course rescuable [p, .fallbackSuccess]
  | lost {p : Outcome} : p.isPrimary = true → p.isError = true → rescuable = true →
      Course rescuable [p, .fallbackFailure]

namespace Tale

variable {t : Tale}

/-- What a call can be blamed for is primary, and an error. -/
theorem Cause.primary {o : Outcome} {cause : CallError} (blame : t.Cause o cause) :
    o.isPrimary = true ∧ o.isError = true := by
  cases blame <;> exact ⟨rfl, rfl⟩

end Tale

namespace Resolution

variable {t : Tale} {claimed : Bool} {rescue : Rescue} {verdict : Option Verdict}

/-- A call has reported nothing, or a success, or how it went wrong and then perhaps
how its fallback went. -/
theorem events_cases (resolution : Resolution t claimed rescue verdict) :
    claimed = false ∧ t.events = [] ∨ t.events = [.success] ∧ t.ends = [none] ∨
      ∃ o cause rest, t.Cause o cause ∧ t.events = o :: rest ∧ (rest = [] ∨
        t.rescuable = true ∧ (rest = [.fallbackSuccess] ∨ rest = [.fallbackFailure])) := by
  cases resolution with
  | unclaimed fresh blank => exact .inl ⟨rfl, by simp [Tale.events, blank]⟩
  | succeeded fresh success ended beats =>
      exact .inr (.inl ⟨by simp [Tale.events, beats, Beat.outcome?, success], ended⟩)
  | denied blame unrescued beats =>
      exact .inr (.inr ⟨_, _, _, blame, by simp [Tale.events, beats, Beat.outcome?], .inl rfl⟩)
  | rescuing blame rescuable beats =>
      exact .inr (.inr ⟨_, _, _, blame, by simp [Tale.events, beats, Beat.outcome?], .inl rfl⟩)
  | rescued blame rescuable success beats =>
      exact .inr (.inr ⟨_, _, _, blame,
        by simp [Tale.events, beats, List.filterMap_cons, Beat.outcome?, success],
        .inr ⟨rescuable, .inl rfl⟩⟩)
  | lost blame rescuable failure beats =>
      exact .inr (.inr ⟨_, _, _, blame,
        by simp [Tale.events, beats, List.filterMap_cons, Beat.outcome?, failure],
        .inr ⟨rescuable, .inr rfl⟩⟩)

/-- A call has reported a first part of a course. -/
theorem course (resolution : Resolution t claimed rescue verdict) :
    ∃ course, Course t.rescuable course ∧ t.events <+: course := by
  rcases resolution.events_cases with ⟨_, blank⟩ | ⟨success, _⟩ |
    ⟨o, cause, rest, blame, reported, more⟩
  · exact ⟨_, .succeeded, by simp [blank]⟩
  · exact ⟨_, .succeeded, by simp [success]⟩
  · obtain ⟨primary, wrong⟩ := blame.primary
    rcases more with rfl | ⟨rescuable, rfl | rfl⟩
    · exact ⟨_, .denied primary wrong, by simp [reported]⟩
    · exact ⟨_, .rescued primary wrong rescuable, by simp [reported]⟩
    · exact ⟨_, .lost primary wrong rescuable, by simp [reported]⟩

/-- The fallback starts after one report, because of what was reported, and once. -/
theorem rescue_cause (resolution : Resolution t claimed rescue verdict) {cause : CallError}
    (started : .rescue cause ∈ t.beats) :
    ∃ r rest, t.beats = .reported r :: .rescue cause :: rest ∧ t.Cause r.outcome cause ∧
      ∀ other, .rescue other ∉ rest := by
  cases resolution with
  | unclaimed fresh blank => simp [blank] at started
  | succeeded fresh success ended beats => simp [beats] at started
  | denied blame unrescued beats => simp [beats] at started
  | rescuing blame rescuable beats =>
      obtain rfl : cause = _ := by simpa [beats] using started
      exact ⟨_, _, beats, blame, by simp⟩
  | rescued blame rescuable success beats =>
      obtain rfl : cause = _ := by simpa [beats] using started
      exact ⟨_, _, beats, blame, by simp⟩
  | lost blame rescuable failure beats =>
      obtain rfl : cause = _ := by simpa [beats] using started
      exact ⟨_, _, beats, blame, by simp⟩

/-- What a call reported that is not about its fallback, and is no success, it reported
first. -/
theorem cause_of_event (resolution : Resolution t claimed rescue verdict) {o : Outcome}
    (reported : o ∈ t.events) (primary : o.isPrimary = true) (wrong : o ≠ .success) :
    t.events.head? = some o ∧ ∃ cause, t.Cause o cause := by
  rcases resolution.events_cases with ⟨_, blank⟩ | ⟨success, _⟩ |
    ⟨p, cause, rest, blame, events, more⟩
  · simp [blank] at reported
  · exact absurd (by simpa [success] using reported) wrong
  · have first : o = p := by
      rw [events] at reported
      rcases more with rfl | ⟨_, rfl | rfl⟩
      · simpa using reported
      · rcases List.mem_cons.mp reported with same | last
        · exact same
        · obtain rfl := List.mem_singleton.mp last
          simp [Outcome.isPrimary] at primary
      · rcases List.mem_cons.mp reported with same | last
        · exact same
        · obtain rfl := List.mem_singleton.mp last
          simp [Outcome.isPrimary] at primary
    subst first
    exact ⟨by simp [events], cause, blame⟩

/-- The operation of a call that was not let through has not been started. -/
theorem idle (resolution : Resolution t claimed rescue verdict)
    (away : .rejected ∈ t.events ∨ .shortCircuited ∈ t.events) : t.starts = 0 := by
  rcases away with rejected | shortCircuited
  · obtain ⟨_, cause, blame⟩ := resolution.cause_of_event rejected rfl (by simp)
    cases blame with
    | rejected idle => exact idle
  · obtain ⟨_, cause, blame⟩ := resolution.cause_of_event shortCircuited rfl (by simp)
    cases blame with
    | shortCircuited idle => exact idle

/-- A call that has reported anything is claimed. -/
theorem claimed_of_event (resolution : Resolution t claimed rescue verdict) {o : Outcome}
    (reported : o ∈ t.events) : claimed = true := by
  cases resolution with
  | unclaimed fresh blank => simp [Tale.events, blank] at reported
  | _ => rfl

end Resolution

/-- A call starts once at most. -/
theorem Call.Told.starts_le {t : Tale} {c : Call} (told : c.Told t) : t.starts ≤ 1 := by
  have past := told.work
  cases work : c.work with
  | queued operation => simp only [work, Work.Told] at past; omega
  | asked answer operation => simp only [work, Work.Told] at past; omega
  | running since wait => simp only [work, Work.Told] at past; omega
  | done => simp only [work, Work.Told] at past; omega

namespace Engine

variable {r : Regime} {e e' : Engine} {k : CallKey} {c : Call} {t : Tale}

/-! ### Operations that end late -/

@[simp] theorem tale_dismiss (i j : CallKey) : (e.dismiss i).tale j = e.tale j := by
  unfold dismiss
  split
  · rfl
  · split
    · exact tale_updateCall ..
    · exact tale_updateCall ..

/-- The claim of a call that is claimed is lost. -/
theorem claim_of_claimed (here : e.call? k = some c) (claimed : c.claimed = true) :
    e.claim k = (e, false) := by
  simp only [claim, here, claimed, if_true]

theorem call?_dismiss (here : e.call? k = some c) : (e.dismiss k).call? k = some c.leave := by
  simp only [dismiss, here]
  split
  · next due armed => simp [here, Call.leave, armed]
  · next unarmed =>
      rw [call?_updateCall_self, here]
      unfold Call.leave
      split
      · next due armed => exact absurd armed (unarmed due)
      · rfl

theorem beats_endOperation_of_claimed (here : e.call? k = some c) (claimed : c.claimed = true)
    (took : Duration) (fault : Option Fault) :
    ((e.endOperation k took fault).tale k).beats = (e.tale k).beats := by
  let noted := e.note (.ended k .operation fault)
  have told : (noted.tale k).beats = (e.tale k).beats := by
    rw [tale_note_self e rfl]
    rfl
  have left : (noted.dismiss k).call? k = some c.leave := call?_dismiss here
  have lost : (noted.dismiss k).claim k = (noted.dismiss k, false) :=
    claim_of_claimed left (by simpa using claimed)
  cases fault with
  | none =>
      simp only [endOperation]
      rw [lost]
      simpa using told
  | some fault =>
      simp only [endOperation]
      rw [lost]
      simpa using told

theorem beats_playOperation_of_claimed (acting : e.Acting r k c t (some (.code .operation)))
    (idle : c.isManual .operation = false) (claimed : c.claimed = true) (since : Instant)
    (s : Script) : ((e.playOperation k since s).tale k).beats = t.beats := by
  obtain ⟨c', played, spared, _⟩ := acting.play idle s
  have claimed' := spared.claimed.trans claimed
  simp only [playOperation]
  split
  · next after wait went =>
      rw [went] at played
      rw [tale_updateCall, played.tale]
  · next after went =>
      rw [went] at played
      rw [beats_endOperation_of_claimed played.here claimed', played.tale]
  · next after fault went =>
      rw [went] at played
      rw [beats_endOperation_of_claimed played.here claimed', played.tale]

/-- A worker that was held up until its call was claimed leaves without a trace. -/
theorem tale_goOn_of_claimed (here : e.call? k = some c) (sound : c.Sound)
    (claimed : c.claimed = true) {answer : Bool} {operation : Script}
    (asked : c.work = .asked answer operation) : (e.goOn k).tale k = e.tale k := by
  have through : c.watch = .done := by
    apply (sound.overtaken claimed).resolve_left
    simp [asked, Work.phase]
  have shut := sound.shut_iff.mpr through
  obtain ⟨desk, found, _⟩ := desk_of_call? here
  simp only [goOn, here, asked]
  cases answer with
  | true => simp only [enter, if_true, here, found, shut, tale_dismiss]
  | false =>
      have lost : (e.dismiss k).claim k = (e.dismiss k, false) :=
        claim_of_claimed (call?_dismiss here) (by simpa using claimed)
      simp only [enter, turnAway, Bool.false_eq_true, if_false, lost, tale_dismiss]

theorem ends_deliver (here : e.call? k = some c) (v : Verdict) :
    ((e.deliver k v).tale k).ends = (e.tale k).ends := by
  have told : (((e.updateCall k fun c => { c with verdict := some v }).note
      (.resolved k v)).tale k).ends = (e.tale k).ends := by
    rw [tale_note_self _ rfl, tale_updateCall]
    rfl
  simp only [deliver, here]
  split
  · exact told
  · rw [tale_wake]
    exact told

theorem ends_endRescue (here : e.call? k = some c)
    (equipped : (e.board.circuits.get? k.command).isSome) (outcome : Outcome) (took : Duration)
    (v : Verdict) : ((e.endRescue k outcome took v).tale k).ends = (e.tale k).ends := by
  let finished : Call → Call := fun c => { c with rescue := .none }
  have there : (e.updateCall k finished).call? k = some (finished c) := by
    rw [call?_updateCall_self, here]
    rfl
  have reported := tale_report there (by simpa using equipped) outcome took k
  change (((((e.updateCall k finished).report k outcome took).deliver k v).tale k).ends = _)
  rw [ends_deliver (by rw [call?_report]; exact there), reported, if_pos rfl, tale_updateCall]

/-- A turn of the fallback does not end the operation. -/
theorem ends_pollCode_fallback (acting : e.Acting r k c t (some (.code .fallback))) :
    ((e.pollCode k .fallback).tale k).ends = t.ends := by
  have same : e.tale k = t := acting.tale
  simp only [pollCode, acting.here]
  cases rescue : c.rescue with
  | running cause took wait =>
      cases wait with
      | turn next =>
          have idle : c.isManual .fallback = false := by simp [Call.isManual, Call.wait?, rescue]
          obtain ⟨c', played, _, _⟩ := acting.play idle next
          have equipped := played.rest.orderly.equipped_of_call? played.here
          have ended : ∀ fault, (((e.play k .fallback next).1.note (.ended k .fallback fault)).tale
              k).ends = t.ends := by
            intro fault
            rw [tale_note_self _ rfl, played.tale]
            rfl
          simp only [playRescue]
          split
          · next after waits went =>
              rw [went] at played
              rw [tale_updateCall, played.tale]
          · next after went =>
              rw [went] at played equipped ended
              rw [ends_endRescue (e := after.note (.ended k .fallback none)) played.here equipped]
              exact ended none
          · next after fault went =>
              rw [went] at played equipped ended
              rw [ends_endRescue (e := after.note (.ended k .fallback (some fault))) played.here
                equipped]
              exact ended (some fault)
      | timer | manual | call => rw [same]
  | none | unused => rw [same]

/-- If the operation of a call ends whose time was up, then in a turn of that
operation. -/
theorem Ordered.turn_of_late (ordered : e.Ordered .loose none) (here : e.call? k = some c)
    (timedOut : .timeout ∈ (e.tale k).events) (event : Next e e')
    (ended : (e'.tale k).ends ≠ (e.tale k).ends) :
    ∃ before after since next, e.queue = before ++ .poll k (.code .operation) :: after ∧
      c.work = .running since (.turn next) ∧
      e' = ({ e with queue := before ++ after } : Engine).playOperation k since next := by
  have kept := ordered.kept k c (by simp) here
  have claimed := kept.resolution.claimed_of_event timedOut
  have through := kept.told.late timedOut
  rcases event.own_turn k with ⟨_, _, same⟩ | ⟨before, after, p, queued, rfl⟩ |
    ⟨d, answer, operation, known, work, rfl⟩
  case inl => exact absurd same ended
  case inr.inl =>
    have acting := ordered.open queued here
    rcases p with (_ | _) | _
    -- A claimed call starts no operation, so only one that goes on can end.
    · simp only [Engine.take, Engine.pollCode, acting.here] at ended ⊢
      cases work : c.work with
      | queued operation =>
          simp only [work, Engine.start, acting.here, claimed, if_true, tale_dismiss] at ended
          exact absurd rfl ended
      | running since wait =>
          cases wait with
          | turn next => exact ⟨before, after, since, next, queued, rfl, rfl⟩
          | timer | manual | call =>
              simp only [work] at ended
              exact absurd rfl ended
      | asked | done =>
          simp only [work] at ended
          exact absurd rfl ended
    · exact absurd (ends_pollCode_fallback acting) ended
    · obtain ⟨desk, found, _⟩ := desk_of_call? acting.here
      simp only [Engine.take, Engine.pollWatch, acting.here, found, through] at ended
      exact absurd rfl ended
  case inr.inr =>
    obtain rfl := Option.some.inj (here.symm.trans known)
    rw [tale_goOn_of_claimed here kept.sound claimed work] at ended
    exact absurd rfl ended

/-- An operation that ends after its call reported that the time was up adds no
report, no fallback and no delivery. -/
theorem Ordered.beats_late (ordered : e.Ordered .loose none) (here : e.call? k = some c)
    (timedOut : .timeout ∈ (e.tale k).events) (event : Next e e')
    (ended : (e'.tale k).ends ≠ (e.tale k).ends) : (e'.tale k).beats = (e.tale k).beats := by
  have kept := ordered.kept k c (by simp) here
  have claimed := kept.resolution.claimed_of_event timedOut
  obtain ⟨before, after, since, next, queued, work, rfl⟩ :=
    ordered.turn_of_late here timedOut event ended
  exact beats_playOperation_of_claimed (ordered.open queued here)
    (by simp [Call.isManual, Call.wait?, work]) claimed since next

/-! ### Once -/

/-- A call is resolved once, as far as the journal tells. -/
structure ResolvedOnce (e : Engine) (k : CallKey) : Prop where
  /-- At every moment up to now it had reported a first part of the same course. -/
  course : ∃ course, Course (e.tale k).rescuable course ∧
    ∀ earlier, earlier <:+ e.board.journal → (Tale.of k earlier).events <+: course
  /-- The fallback starts at most once, right after the one report of how the call
  went wrong, and because of what was reported. -/
  rescue : ∀ cause, .rescue cause ∈ (e.tale k).beats →
    ∃ r rest, (e.tale k).beats = .reported r :: .rescue cause :: rest ∧
      (e.tale k).Cause r.outcome cause ∧ ∀ other, .rescue other ∉ rest
  /-- The operation starts at most once. -/
  started : (e.tale k).starts ≤ 1
  /-- The operation of a call that was not let through does not start. -/
  idle : .rejected ∈ (e.tale k).events ∨ .shortCircuited ∈ (e.tale k).events →
    (e.tale k).starts = 0
  /-- An operation that ends after the time was up adds no report, no fallback and no
  delivery. -/
  late : .timeout ∈ (e.tale k).events → ∀ e', Next e e' → (e'.tale k).ends ≠ (e.tale k).ends →
    (e'.tale k).beats = (e.tale k).beats

/-- At every moment of every run, every call is resolved at most once. -/
theorem Reached.resolvedOnce (reached : e.Reached) (known : (e.call? k).isSome) :
    e.ResolvedOnce k := by
  obtain ⟨c, here⟩ := Option.isSome_iff_exists.mp known
  have ordered := reached.ordered
  have kept := ordered.kept k c (by simp) here
  constructor
  case course =>
    obtain ⟨course, listed, reported⟩ := kept.resolution.course
    refine ⟨course, listed, ?_⟩
    intro earlier past
    exact (Tale.events_of_earlier past k).trans reported
  case rescue => exact fun cause started => kept.resolution.rescue_cause started
  case started => exact kept.told.starts_le
  case idle => exact fun away => kept.resolution.idle away
  case late => exact fun timedOut e' event ended => ordered.beats_late here timedOut event ended

/-- A call whose time is up while its operation runs, and whose fallback waits. -/
theorem resolvedOnce_of_timeout :
    let e := (build {} [] {}).run [
      .call ⟨"a", "c", .after (.ofMillis 1500) .succeed, some (.after (.ofMillis 900) .succeed),
        .detached⟩,
      .advance (.ofMillis 1200)]
    e.Reached ∧ (e.call? ⟨"c", 0⟩).isSome ∧ (e.tale ⟨"c", 0⟩).events = [.timeout] ∧
      e.ResolvedOnce ⟨"c", 0⟩ :=
  ⟨reached_run .., by rfl, by rfl, (reached_run ..).resolvedOnce (by rfl)⟩

end Engine

end Bulwark
