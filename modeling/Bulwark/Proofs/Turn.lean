import Bulwark.Proofs.Worker

/-!
Turns keep everything in order.

The watch gives back the ticket of its call, and resolves the call if the time is
up and nobody claimed it (`Acting.expire`). With the worker, that is all that
tasks do, so all is in order after every turn, whichever turn of the queue is
taken (`Ordered.take`).
-/

namespace Bulwark

/-- A fallback that runs was started by a call that had reported how it went wrong,
and has not delivered. -/
theorem Resolution.of_running {t : Tale} {claimed : Bool} {cause : CallError} {took : Duration}
    {wait : Wait} {verdict : Option Verdict}
    (resolution : Resolution t claimed (.running cause took wait) verdict) :
    claimed = true ∧ verdict = none ∧ ∃ rep : Report, t.Cause rep.outcome cause ∧
      t.rescuable = true ∧ t.beats = [.reported rep, .rescue cause] := by
  cases resolution with
  | unclaimed fresh => exact absurd fresh id
  | succeeded fresh => exact absurd fresh id
  | rescuing blame rescuable beats => exact ⟨rfl, rfl, _, blame, rescuable, beats⟩

namespace Engine

variable {r : Regime} {e : Engine} {k : CallKey} {c : Call} {t : Tale}

namespace Acting

/-! ### The watch -/

/-- The watch gives back the ticket, if there is one, and is through. -/
theorem vacate (acting : e.Acting r k c t (some .watch)) :
    (e.vacate k).Acting r k { c with slot := .shut, watch := .done } t none := by
  let shut : Call → Call := fun c => { c with slot := .shut, watch := .done }
  obtain ⟨desk, found, _⟩ := desk_of_call? acting.here
  have tended : ∀ p, some p ≠ none → e.Tended r k (shut c) p := by
    intro p _
    rcases p with stage | _
    · cases stage with
      | operation => exact acting.tended (.code .operation) (by simp)
      | fallback => exact acting.tended (.code .fallback) (by simp)
    · trivial
  simp only [Engine.vacate, acting.here]
  split
  · next seated =>
      have work := deskwork_of_pool acting.here found (f := shut)
        (g := fun desk => desk.pool.release) rfl (by simp [shut, seated, Pool.release])
      rw [Engine.updateCall, updateDesk_updateDesk]
      exact acting.deskwork work rfl rfl tended
  · next free =>
      have work := deskwork_of_pool acting.here found (f := shut) (g := fun desk => desk.pool)
        rfl (by simpa [shut] using free)
      exact acting.deskwork work rfl rfl tended

theorem sound_vacated (sound : c.Sound) (claimed : c.claimed = true) :
    Call.Sound { c with slot := .shut, watch := .done } where
  shut_iff := by simp
  vacant := by simp
  holding := by simp
  claimed := sound.claimed
  armed := by simp
  dismissed := by simp
  overtaken _ := .inr rfl
  watched unclaimed := by simp [claimed] at unclaimed

/-- The watch of a call that was claimed is through. -/
theorem vacate_claimed (acting : e.Acting r k c t (some .watch)) (sound : c.Sound)
    (told : c.Told t) (claimed : c.claimed = true)
    (resolution : Resolution t c.claimed c.rescue c.verdict) : (e.vacate k).Ordered r none :=
  acting.vacate.close (sound_vacated sound claimed) ⟨told.work, fun _ => rfl⟩ resolution

/-- The time of a call is up: the ticket is given back, and the call is resolved
unless it was claimed. -/
theorem expire (acting : e.Acting r k c t (some .watch)) (told : c.Told t)
    (resolution : Resolution t c.claimed c.rescue c.verdict) : (e.expire k).Ordered r none := by
  obtain ⟨claimed, won⟩ := acting.vacate.claim
  have sound' : Call.Sound { c with slot := .shut, watch := .done, claimed := true } := by
    constructor <;> simp
  simp only [Engine.expire]
  split
  · next after lost =>
      rw [lost] at claimed won
      have already : c.claimed = true := by simpa using won
      refine claimed.close sound' ⟨told.work, fun _ => rfl⟩ ?_
      simpa only [already] using resolution
  · next after first =>
      rw [first] at claimed won
      have unclaimed : c.claimed = false := by simpa using won
      rw [unclaimed] at resolution
      obtain ⟨fresh, blank, unread⟩ := resolution.of_unclaimed
      exact ((claimed.remark k.command _).report .timeout .zero).resolve
        ⟨.timeout, c.start, .zero⟩ sound' ⟨told.work, fun _ => rfl⟩ rfl unread fresh
        .timeout (by simp [blank]) .zero

/-- The watch starts to wait for the worker, or for the time to be up. -/
theorem arm (acting : e.Acting r k c t (some .watch)) (sound : c.Sound) (told : c.Told t)
    (queued : c.watch = .queued) (working : c.work.phase ≠ .done)
    (resolution : Resolution t c.claimed c.rescue c.verdict) {timeout : Duration}
    (positive : 0 < timeout.nanos) :
    (e.updateCall k fun c => { c with watch := .armed (e.now.due timeout) }).Ordered r none := by
  let armed : Call → Call := fun c => { c with watch := .armed (e.now.due timeout) }
  have waits : (e.updateCall k armed).Acting r k (armed c) t none := by
    refine acting.update (f := armed) (fun _ => rfl) rfl rfl ?_
    intro p _
    rcases p with stage | _
    · cases stage with
      | operation => exact acting.tended (.code .operation) (by simp)
      | fallback => exact acting.tended (.code .fallback) (by simp)
    -- The alarm is due at the deadline or later, and not before now.
    · have ahead := e.now.later_le_due timeout
      simp only [Instant.later] at ahead
      exact .inr ⟨by omega, fun _ => by omega⟩
  have told' : (armed c).Told t := by
    refine ⟨told.work, ?_⟩
    intro timedOut
    have through := told.late timedOut
    simp [queued] at through
  refine waits.close ?_ told' resolution
  constructor
  case shut_iff =>
    have open_ := sound.shut_iff
    simpa [armed, queued] using open_
  case vacant => exact sound.vacant
  case holding => exact sound.holding
  case claimed => exact sound.claimed
  case armed => exact fun _ _ => working
  case dismissed => simp [armed]
  case overtaken =>
    intro claimed
    have past := sound.overtaken claimed
    simp only [queued, reduceCtorEq, or_false] at past
    exact absurd past working
  case watched => simp [armed]

end Acting

/-! ### Turns from the queue -/

section Taken

variable {before after : List Turn}

/-- Code that cannot go on does not need a turn. -/
theorem Tended.unready {stage : Stage} (tended : e.Tended r k c (.code stage)) (queue : List Turn)
    (unqueued : ∀ operation, stage = .operation → c.work = .queued operation → False)
    (waits : ∀ since next, stage = .operation → c.work = .running since (.turn next) → False)
    (unrescued : ∀ cause took next, stage = .fallback →
      c.rescue = .running cause took (.turn next) → False) :
    ({ e with queue := queue } : Engine).Tended r k c (.code stage) := by
  cases stage with
  | operation =>
      cases work : c.work with
      | queued operation => exact absurd work (unqueued operation rfl)
      | asked answer operation => simpa only [Tended, work] using tended
      | running since wait =>
          simp only [Tended, work] at tended ⊢
          cases wait with
          | timer due next => exact tended
          | manual => trivial
          | call inner => exact tended
          | turn next => exact absurd work (waits since next rfl)
      | done => simp only [Tended, work]
  | fallback =>
      cases rescue : c.rescue with
      | none => simp only [Tended, rescue]
      | unused fallback => simp only [Tended, rescue]
      | running cause took wait =>
          simp only [Tended, rescue] at tended ⊢
          cases wait with
          | timer due next => exact tended
          | manual => trivial
          | call inner => exact tended
          | turn next => exact absurd rescue (unrescued cause took next rfl)

/-- A turn of the watch. -/
theorem Ordered.pollWatch (ordered : e.Ordered r none)
    (queued : e.queue = before ++ .poll k .watch :: after) :
    (({ e with queue := before ++ after } : Engine).pollWatch k).Ordered r none := by
  cases here : e.call? k with
  | none =>
      have idle : ({ e with queue := before ++ after } : Engine).pollWatch k =
          { e with queue := before ++ after } := by
        simp only [Engine.pollWatch]
        rw [show ({ e with queue := before ++ after } : Engine).call? k = none from here]
      rw [idle]
      apply ordered.skip queued
      intro i p d same found
      obtain ⟨rfl, _⟩ := Turn.poll.inj same
      simp [here] at found
  | some c =>
      have acting := ordered.open queued here
      have kept := ordered.kept k c (by simp) here
      obtain ⟨desk, found, _⟩ := desk_of_call? acting.here
      simp only [Engine.pollWatch, acting.here, found]
      split
      · next waits =>
          split
          -- The worker was faster than the first turn of the watch.
          · next done =>
              have past : c.work.phase = .done := by
                cases work : c.work <;> simp [Call.isWorkDone, work, Work.phase] at done ⊢
              exact acting.vacate_claimed kept.sound kept.told (kept.sound.claimed past)
                kept.resolution
          · next working =>
              have phase : c.work.phase ≠ .done := by
                cases work : c.work <;> simp [Call.isWorkDone, work, Work.phase] at working ⊢
              have usable := acting.rest.orderly.usable _ desk found
              exact acting.arm kept.sound kept.told waits phase kept.resolution usable.timeout
      · next dismissed =>
          have claimed := kept.sound.claimed (kept.sound.dismissed dismissed)
          exact acting.vacate_claimed kept.sound kept.told claimed kept.resolution
      · exact acting.expire kept.told kept.resolution
      · next unqueued undismissed unexpired =>
          -- A turn that the watch does not wait for is skipped.
          apply ordered.skip queued
          intro i p d same known
          obtain ⟨rfl, rfl⟩ := Turn.poll.inj same
          obtain rfl : c = d := Option.some.inj (here.symm.trans known)
          have tended := kept.tended .watch
          simp only [Tended] at tended ⊢
          split at tended
          · exact tended
          · trivial
          · next unarmed through =>
              cases watch : c.watch with
              | queued => exact absurd watch unqueued
              | armed due => exact absurd watch (unarmed due)
              | expired => exact absurd watch unexpired
              | dismissed => exact absurd watch undismissed
              | done => exact absurd watch through

/-- A turn of the code of a stage. -/
theorem Ordered.pollCode (ordered : e.Ordered r none) {stage : Stage}
    (queued : e.queue = before ++ .poll k (.code stage) :: after) :
    (({ e with queue := before ++ after } : Engine).pollCode k stage).Ordered r none := by
  cases here : e.call? k with
  | none =>
      have idle : ({ e with queue := before ++ after } : Engine).pollCode k stage =
          { e with queue := before ++ after } := by
        simp only [Engine.pollCode]
        rw [show ({ e with queue := before ++ after } : Engine).call? k = none from here]
      rw [idle]
      apply ordered.skip queued
      intro i p d same found
      obtain ⟨rfl, _⟩ := Turn.poll.inj same
      simp [here] at found
  | some c =>
      have acting := ordered.open queued here
      have kept := ordered.kept k c (by simp) here
      simp only [Engine.pollCode, acting.here]
      split
      · next operation work => exact acting.start kept.sound kept.told work kept.resolution
      · next since next work =>
          have past := kept.told.work
          simp only [work, Work.Told] at past
          refine acting.playOperation (by simp [Call.isManual, Call.wait?, work]) (fun wait => ?_)
            past.1 past.2 kept.told.late kept.resolution next
          exact kept.sound.congr rfl rfl rfl (by simp [work, Work.phase])
      · next cause took next rescue =>
          have resolution := kept.resolution
          rw [rescue] at resolution
          obtain ⟨claimed, unread, rep, blame, rescuable, beats⟩ := resolution.of_running
          exact acting.playRescue (by simp [Call.isManual, Call.wait?, rescue]) kept.sound kept.told
            claimed unread blame rescuable beats took next
      · next unqueued unready unrescued =>
          apply ordered.skip queued
          intro i p d same known
          obtain ⟨rfl, rfl⟩ := Turn.poll.inj same
          obtain rfl : c = d := Option.some.inj (here.symm.trans known)
          exact (kept.tended _).unready _ unqueued unready unrescued

/-- The task of an awaited call makes the call. -/
theorem Ordered.launch (ordered : e.Ordered r none) (spec : CallSpec Script) :
    (e.launch spec).Ordered r none := by
  simp only [Engine.launch]
  have after : (e.execute spec).1.Ordered r none := by
    cases made : e.execute spec with
    | mk after answer =>
        cases answer with
        | ok i => exact (ordered.execute made).1
        | error error => exact (execute_of_error made).symm ▸ ordered
  exact after.besides ⟨rfl, fun _ => id, rfl, rfl, fun _ => id⟩ (by simp) fun _ _ => rfl

/-- Whichever turn of the queue is taken, all is in order after it. -/
theorem Ordered.take (ordered : e.Ordered r none) {u : Turn}
    (queued : e.queue = before ++ u :: after) :
    (({ e with queue := before ++ after } : Engine).take u).Ordered r none := by
  rcases u with spec | ⟨k, stage | _⟩
  · refine (ordered.skip queued fun i p d same _ => ?_).launch spec
    simp at same
  · exact ordered.pollCode queued
  · exact ordered.pollWatch queued

end Taken

end Engine

end Bulwark
