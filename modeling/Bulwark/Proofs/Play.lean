import Bulwark.Proofs.Exchange
import Bulwark.Proofs.Making

/-!
How code goes on, and how a call is resolved.

Code that goes on leaves its own call as it is, but that other code of the call
may be told to succeed (`Call.Spares`). If it comes to wait, somebody will see to
it (`Acting.play`). A claimed call that reported how it went wrong delivers an
error, or runs its fallback and delivers after that (`Acting.resolve`,
`Acting.playRescue`).
-/

namespace Bulwark

/-- Between two states of a call at most the wait of the code of another stage
differs. -/
def Call.Spares (stage : Stage) (c c' : Call) : Prop :=
  c' = c ∨ ∃ other, other ≠ stage ∧ c' = c.setWait other (.turn .succeed)

namespace Call.Spares

variable {stage : Stage} {c c' : Call} {t : Tale}

theorem slot (spared : Spares stage c c') : c'.slot = c.slot := by
  rcases spared with rfl | ⟨other, _, rfl⟩
  · rfl
  · simp

theorem watch (spared : Spares stage c c') : c'.watch = c.watch := by
  rcases spared with rfl | ⟨other, _, rfl⟩
  · rfl
  · simp

theorem claimed (spared : Spares stage c c') : c'.claimed = c.claimed := by
  rcases spared with rfl | ⟨other, _, rfl⟩
  · rfl
  · simp

theorem verdict (spared : Spares stage c c') : c'.verdict = c.verdict := by
  rcases spared with rfl | ⟨other, _, rfl⟩
  · rfl
  · simp

theorem work (spared : Spares .operation c c') : c'.work = c.work := by
  rcases spared with rfl | ⟨_ | _, differ, rfl⟩
  · rfl
  · exact absurd rfl differ
  · simp

theorem rescue (spared : Spares .fallback c c') : c'.rescue = c.rescue := by
  rcases spared with rfl | ⟨_ | _, differ, rfl⟩
  · rfl
  · simp
  · exact absurd rfl differ

theorem sound (spared : Spares stage c c') (sound : c.Sound) : c'.Sound := by
  rcases spared with rfl | ⟨other, _, rfl⟩
  · exact sound
  · exact sound.setWait ..

theorem told (spared : Spares stage c c') (told : c.Told t) : c'.Told t := by
  rcases spared with rfl | ⟨other, _, rfl⟩
  · exact told
  · exact told.setWait ..

theorem resolution (spared : Spares stage c c')
    (resolution : Resolution t c.claimed c.rescue c.verdict) :
    Resolution t c'.claimed c'.rescue c'.verdict := by
  rcases spared with rfl | ⟨other, _, rfl⟩
  · exact resolution
  · exact resolution.setWait ..

end Call.Spares

/-- A timer that is set now is not overdue. -/
theorem Regime.timer_due (r : Regime) (now : Instant) (d : Duration) :
    r.Timer now (now.due d) := by
  have reached := now.later_le_due d
  simp only [Instant.later] at reached
  exact .inr (by omega)

/-- The error that an outcome stands for does not depend on what was told since. -/
theorem Tale.Cause.of_beats {t : Tale} {o : Outcome} {cause : CallError} (blame : t.Cause o cause)
    (beats : List Beat) : Tale.Cause { t with beats := beats } o cause := by
  cases blame with
  | shortCircuited idle => exact .shortCircuited idle
  | rejected idle => exact .rejected idle
  | timeout => exact .timeout
  | failure ended => exact .failure ended

namespace Engine

variable {r : Regime} {e : Engine} {k : CallKey} {c : Call} {t : Tale} {busy : Option Part}

namespace Acting

theorem engage (acting : e.Acting r k c t none) (busy : Option Part) : e.Acting r k c t busy :=
  ⟨acting.rest, acting.here, acting.tale, fun p _ => acting.tended p (by simp)⟩

/-- Code goes on. -/
theorem play {stage : Stage} (acting : e.Acting r k c t (some (.code stage)))
    (idle : c.isManual stage = false) (s : Script) :
    ∃ c', (e.play k stage s).1.Acting r k c' t (some (.code stage)) ∧ c.Spares stage c' ∧
      ∀ wait, (e.play k stage s).2 = .waits wait →
        (e.play k stage s).1.Minded r k stage wait := by
  cases s with
  | succeed => exact ⟨c, acting.mark k stage (by simp), .inl rfl, by simp [Engine.play]⟩
  | fail fault => exact ⟨c, acting.mark k stage (by simp), .inl rfl, by simp [Engine.play]⟩
  | panic message => exact ⟨c, acting.remark .., .inl rfl, by simp [Engine.play]⟩
  | after d next =>
      refine ⟨c, acting, .inl rfl, ?_⟩
      intro wait waits
      obtain rfl : Wait.timer (e.now.due d) next = wait := by simpa [Engine.play] using waits
      exact Regime.timer_due r e.now d
  | manual =>
      obtain ⟨c', cleared, _, spared⟩ := acting.clearManual
      refine ⟨c', cleared, ?_, fun wait waits => ?_⟩
      · rcases spared with same | ⟨other, manual, woken⟩
        · exact .inl same
        · refine .inr ⟨other, ?_, woken⟩
          rintro rfl
          simp [idle] at manual
      · obtain rfl : Wait.manual = wait := by simpa [Engine.play] using waits
        trivial
  | nested spec =>
      simp only [Engine.play]
      split
      · next after inner made =>
          obtain ⟨acting, owed⟩ := acting.execute made stage
          refine ⟨c, acting, .inl rfl, ?_⟩
          intro wait waits
          obtain rfl : Wait.call inner = wait := by simpa using waits
          exact owed
      · next after error failed =>
          obtain rfl := execute_of_error failed
          exact ⟨c, acting.mark k stage (by simp), .inl rfl, by simp⟩

/-! ### The fallback -/

/-- The fallback of a claimed call has ended, and the verdict is delivered. -/
theorem endRescue (acting : e.Acting r k c t (some (.code .fallback))) (sound : c.Sound)
    (told : c.Told t) {outcome : Outcome} {took : Duration} {verdict : Verdict}
    (other : outcome ≠ .timeout)
    (resolution : Resolution
      { t with beats := t.beats ++ [.reported ⟨outcome, c.start, took⟩] ++ [.delivered verdict] }
      c.claimed .none (some verdict)) :
    (e.endRescue k outcome took verdict).Ordered r none := by
  let ended : Call → Call := fun c => { c with rescue := .none }
  have finished : (e.updateCall k ended).Acting r k (ended c) t none := by
    refine acting.update (f := ended) (fun _ => rfl) rfl rfl ?_
    intro p _
    rcases p with stage | _
    · cases stage with
      | operation => exact acting.tended (.code .operation) (by simp)
      | fallback => trivial
    · exact acting.tended .watch (by simp)
  refine (finished.report outcome took).deliver ?_ ⟨told.work, fun timedOut => told.late ?_⟩
    resolution
  · exact sound.congr rfl rfl rfl rfl
  · simpa [Tale.events, Beat.outcome?, Ne.symm other] using timedOut

/-- The fallback of a call goes on, that has been started because of an error. -/
theorem playRescue {rep : Report} {cause : CallError}
    (acting : e.Acting r k c t (some (.code .fallback))) (idle : c.isManual .fallback = false)
    (sound : c.Sound) (told : c.Told t) (claimed : c.claimed = true) (unread : c.verdict = none)
    (blame : t.Cause rep.outcome cause) (rescuable : t.rescuable = true)
    (beats : t.beats = [.reported rep, .rescue cause]) (took : Duration) (s : Script) :
    (e.playRescue k cause took s).Ordered r none := by
  obtain ⟨c', played, spared, minded⟩ := acting.play idle s
  have claimed' := spared.claimed.trans claimed
  simp only [Engine.playRescue]
  split
  · next after wait went =>
      rw [went] at played minded
      let waiting : Call → Call := fun c => { c with rescue := .running cause took wait }
      refine Acting.close (k := k) (c := waiting c') (t := t) ?_ ?_ ?_ ?_
      · refine played.update (f := waiting) (fun _ => rfl) rfl rfl ?_
        intro p _
        rcases p with stage | _
        · cases stage with
          | operation => exact played.tended (.code .operation) (by simp)
          | fallback => exact minded wait rfl
        · exact played.tended .watch (by simp)
      · exact (spared.sound sound).congr rfl rfl rfl rfl
      · have told' := spared.told told
        exact ⟨told'.work, told'.late⟩
      · simp only [waiting, claimed', spared.verdict, unread]
        exact .rescuing blame rescuable beats
  · next after went =>
      rw [went] at played
      have ended := played.note (x := .ended k .fallback none) rfl
      refine ended.endRescue (spared.sound sound) ⟨?_, fun timedOut => ?_⟩ (by simp) ?_
      · exact (spared.told told).work
      -- The end of a fallback is no event, so a timeout was told before it.
      · apply (spared.told told).late
        simpa [Tale.events, Tale.add, Beat.outcome?] using timedOut
      · rw [claimed']
        exact .rescued (s := ⟨.fallbackSuccess, c'.start, took⟩) (blame.of_beats _) rescuable rfl
          (by simp [Tale.add, beats])
  · next after fault went =>
      rw [went] at played
      have ended := played.note (x := .ended k .fallback (some fault)) rfl
      refine ended.endRescue (spared.sound sound) ⟨?_, fun timedOut => ?_⟩ (by simp) ?_
      · exact (spared.told told).work
      · apply (spared.told told).late
        simpa [Tale.events, Tale.add, Beat.outcome?] using timedOut
      · rw [claimed']
        exact .lost (s := ⟨.fallbackFailure, c'.start, took⟩) (blame.of_beats _) rescuable rfl
          (by simp [Tale.add, beats])

/-- A claimed call that reported how it went wrong is resolved. -/
theorem resolve {cause : CallError} (acting : e.Acting r k c t none) (rep : Report)
    (sound : c.Sound) (told : c.Told t) (claimed : c.claimed = true) (unread : c.verdict = none)
    (fresh : c.rescue.Fresh t.rescuable) (blame : t.Cause rep.outcome cause)
    (beats : t.beats = [.reported rep]) (took : Duration) :
    (e.resolve k cause took).Ordered r none := by
  simp only [Engine.resolve, acting.here]
  split
  · next fallback found =>
      let begun : Call → Call := fun c => { c with rescue := .none }
      have cleared : (e.updateCall k begun).Acting r k (begun c) t none := by
        refine acting.update (f := begun) (fun _ => rfl) rfl rfl ?_
        intro p _
        rcases p with stage | _
        · cases stage with
          | operation => exact acting.tended (.code .operation) (by simp)
          | fallback => trivial
        · exact acting.tended .watch (by simp)
      have started := (cleared.note (x := .fallback k c.id cause) rfl).engage
        (some (.code .fallback))
      refine started.playRescue rfl ?_ ⟨told.work, fun timedOut => told.late ?_⟩ claimed unread
        (blame.of_beats _) ?_ (by simp [Tale.add, beats]) took fallback
      · exact sound.congr rfl rfl rfl rfl
      · simpa [Tale.events, Tale.add, Beat.outcome?] using timedOut
      · simpa [found, Rescue.Fresh, Tale.add] using fresh
  · next used =>
      have unrescued : c.rescue = .none ∧ t.rescuable = false := by
        cases found : c.rescue with
        | none => exact ⟨rfl, by simpa [found, Rescue.Fresh] using fresh⟩
        | unused fallback => exact absurd found (used fallback)
        | running cause took wait => simp [found, Rescue.Fresh] at fresh
      apply acting.deliver sound told
      rw [claimed, unrescued.1]
      exact .denied (blame.of_beats _) unrescued.2 (by simp [beats])

end Acting

end Engine

end Bulwark
