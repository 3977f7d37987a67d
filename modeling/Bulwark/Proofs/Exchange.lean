import Bulwark.Proofs.Frame

/-!
Waking code that waits.

Code is woken when it is told how to go on, and when the call whose verdict it
waits for delivers it. Either way it gets a turn, so nothing is left without
somebody to see to it.

* `Ordered.wake`: waking code keeps everything in order.
* `Acting.deliver`: a call that delivers its verdict is in order after that, and
  so is the call that waited for it.
* `Acting.clearManual`: making room for code that is to be told how to go on
  wakes no code that had not waited for that.
-/

namespace Bulwark.Engine

variable {r : Regime} {e e' : Engine} {k j : CallKey} {c d : Call} {t : Tale}
  {busy : Option Part} {away : Option CallKey}

/-! ### Waking -/

/-- If one piece of waiting code is woken, it no longer matters who owed it
something; everything else is seen to as before. -/
theorem Tended.wake {outer : CallKey} {stage : Stage} {next : Script} (now : e'.now = e.now)
    (queue : e.queue ⊆ e'.queue) (woken : Turn.poll outer (.code stage) ∈ e'.queue)
    (owes : ∀ i w, e.Owes i w → w = (outer, stage) ∨ e'.Owes i w) {p : Part}
    (tended : e.Tended r j d p) :
    e'.Tended r j (if j = outer then d.setWait stage (.turn next) else d) p := by
  -- Code other than the one that is woken waits for what it waited for.
  have minded : ∀ {s : Stage} {wait : Wait}, (j, s) ≠ (outer, stage) →
      e.Minded r j s wait → e'.Minded r j s wait := by
    intro s wait other before
    cases wait with
    | timer due next => simpa only [Minded, now] using before
    | manual => trivial
    | call inner => exact (owes _ _ before).resolve_left other
    | turn next => exact queue before
  rcases p with s | _
  · by_cases self : j = outer
    · subst self
      rw [if_pos rfl]
      cases stage <;> cases s
      · cases work : d.work with
        | queued operation =>
            simp only [Tended, Call.setWait, work] at tended ⊢
            exact queue tended
        | asked answer operation => simpa only [Tended, Call.setWait, work] using tended
        | running since wait =>
            simp only [Tended, Call.setWait, work]
            exact woken
        | done => simp only [Tended, Call.setWait, work]
      · simp only [Tended, Call.rescue_setWait_operation] at tended ⊢
        split at tended
        · exact minded (by simp) tended
        · trivial
      · simp only [Tended, Call.work_setWait_fallback] at tended ⊢
        split at tended
        · exact queue tended
        · exact tended
        · exact minded (by simp) tended
        · trivial
      · cases rescue : d.rescue with
        | none | unused => simp only [Tended, Call.setWait, rescue]
        | running cause took wait =>
            simp only [Tended, Call.setWait, rescue]
            exact woken
    · rw [if_neg self]
      have other : ∀ s, (j, s) ≠ (outer, stage) := fun s same => self (Prod.mk.inj same).1
      cases s with
      | operation =>
          simp only [Tended] at tended ⊢
          split at tended
          · exact queue tended
          · exact tended
          · exact minded (other _) tended
          · trivial
      | fallback =>
          simp only [Tended] at tended ⊢
          split at tended
          · exact minded (other _) tended
          · trivial
  · have watch : (if j = outer then d.setWait stage (.turn next) else d).watch = d.watch := by
      split <;> simp
    simp only [Tended, watch] at tended ⊢
    split at tended
    · rwa [now]
    · trivial
    · exact queue tended

/-- Only the task that wakes has a script to go on with. -/
theorem call?_wake (i : CallKey) (stage : Stage) (next : Script) (j : CallKey) :
    (e.wake i stage next).call? j =
      if j = i then (e.call? j).map (·.setWait stage (.turn next)) else e.call? j := by
  simp [wake, call?_updateCall]

theorem tale_wake (i : CallKey) (stage : Stage) (next : Script) (j : CallKey) :
    (e.wake i stage next).tale j = e.tale j := by
  simp [wake]

theorem queue_wake (i : CallKey) (stage : Stage) (next : Script) :
    (e.wake i stage next).queue = e.queue ++ [.poll i (.code stage)] := by
  simp [wake]

theorem now_wake (i : CallKey) (stage : Stage) (next : Script) :
    (e.wake i stage next).now = e.now := now_updateCall ..

theorem Orderly.wake (orderly : e.Orderly) (i : CallKey) (stage : Stage) (next : Script) :
    (e.wake i stage next).Orderly :=
  (orderly.deskwork (deskwork_of_slot fun _ => Call.slot_setWait ..)).besides
    (besides_enqueue _) fun _ _ => rfl

/-- A call that is owed something is owed it still, whatever code is woken. -/
theorem Owes.wake {inner : CallKey} {w : CallKey × Stage} (owed : e.Owes inner w) (i : CallKey)
    (stage : Stage) (next : Script) : (e.wake i stage next).Owes inner w := by
  obtain ⟨c, here, open_, waits⟩ := owed
  simp only [Owes, call?_wake, here]
  split
  · exact ⟨_, rfl, by simpa using open_, by simpa using waits⟩
  · exact ⟨c, rfl, open_, waits⟩

/-- What is kept of a call is kept when another task or its own wakes. -/
theorem Kept.wake (kept : e.Kept r j d) (i : CallKey) (stage : Stage) (next : Script) :
    (e.wake i stage next).Kept r j (if j = i then d.setWait stage (.turn next) else d) where
  sound := by
    split
    · exact kept.sound.setWait ..
    · exact kept.sound
  told := by
    rw [tale_wake]
    split
    · exact kept.told.setWait ..
    · exact kept.told
  resolution := by
    rw [tale_wake]
    split
    · exact kept.resolution.setWait ..
    · exact kept.resolution
  tended p := by
    refine (kept.tended p).wake (now_wake ..) ?_ ?_ fun _ _ owed => .inr (owed.wake ..)
    · simp [queue_wake]
    · simp [queue_wake]

/-- A task that wakes has its turn to come, so all stays in order. -/
theorem Ordered.wake (ordered : e.Ordered r away) (i : CallKey) (stage : Stage) (next : Script) :
    (e.wake i stage next).Ordered r away where
  orderly := ordered.orderly.wake ..
  kept j d other found := by
    rw [call?_wake] at found
    split at found
    · next self =>
        obtain ⟨before, here, rfl⟩ := Option.map_eq_some_iff.mp found
        simpa [self] using (ordered.kept j before other here).wake i stage next
    · next differ => simpa [differ] using (ordered.kept j d other found).wake i stage next

/-- A call in action stays so when any task wakes. -/
theorem Acting.wake (acting : e.Acting r k c t busy) (i : CallKey) (stage : Stage)
    (next : Script) :
    (e.wake i stage next).Acting r k (if k = i then c.setWait stage (.turn next) else c) t
      busy where
  rest := acting.rest.wake ..
  here := by
    rw [call?_wake, acting.here]
    split <;> rfl
  tale := (tale_wake ..).trans acting.tale
  tended p free := by
    refine (acting.tended p free).wake (now_wake ..) ?_ ?_ fun _ _ owed => .inr (owed.wake ..)
    · simp [queue_wake]
    · simp [queue_wake]

/-! ### Delivering -/

/-- The verdict of a call is delivered last, and whoever waited for it is woken. -/
theorem Acting.deliver (acting : e.Acting r k c t none) (sound : c.Sound)
    (told : c.Told t) {v : Verdict}
    (resolution : Resolution { t with beats := t.beats ++ [.delivered v] } c.claimed c.rescue
      (some v)) : (e.deliver k v).Ordered r none := by
  let written : Call → Call := fun c => { c with verdict := some v }
  let e₁ := (e.updateCall k written).note (.resolved k v)
  have tale : ∀ i, e₁.tale i =
      if i = k then { t with beats := t.beats ++ [.delivered v] } else e.tale i := by
    intro i
    by_cases self : i = k
    · subst self
      simp [e₁, tale_note, Entry.call?, Tale.add, acting.tale]
    · simp [e₁, tale_note, Entry.call?, self, Ne.symm self]
  have call : ∀ i, e₁.call? i = if i = k then some (written c) else e.call? i := by
    intro i
    by_cases self : i = k
    · subst self; simp [e₁, acting.here]
    · simp [e₁, call?_updateCall, self]
  have orderly : e₁.Orderly := by
    have changed : (e.updateCall k written).Orderly :=
      acting.rest.orderly.deskwork (deskwork_of_slot fun _ => rfl)
    apply changed.besides (besides_note (.resolved k v))
    intro i unknown
    apply tale_note_of_ne _
    intro about
    obtain rfl : k = i := by simpa [Entry.call?] using about
    simp [acting.here] at unknown
  have owes : ∀ i w, e.Owes i w → c.waiter = some w ∧ i = k ∨ e₁.Owes i w := by
    rintro i w ⟨inner, here, unread, waits⟩
    by_cases self : i = k
    · subst self
      obtain rfl : c = inner := Option.some.inj (acting.here.symm.trans here)
      exact .inl ⟨waits, rfl⟩
    · exact .inr ⟨inner, by simp [call, self, here], unread, waits⟩
  -- Every call but for what it waits for, before anyone is woken.
  have settled : ∀ i d, e₁.call? i = some d →
      d.Sound ∧ d.Told (e₁.tale i) ∧ Resolution (e₁.tale i) d.claimed d.rescue d.verdict ∧
        ∀ p, e.Tended r i d p := by
    intro i d here
    rw [call] at here
    rw [tale]
    split at here
    · next self =>
        subst self
        obtain rfl := Option.some.inj here
        refine ⟨sound.congr rfl rfl rfl rfl, ?_, ?_, fun p => ?_⟩
        · rw [if_pos rfl]
          refine ⟨told.work, fun timedOut => told.late ?_⟩
          simpa [Tale.events, Beat.outcome?] using timedOut
        · rw [if_pos rfl]; exact resolution
        · exact acting.tended p (by simp)
    · next differ =>
        have kept := acting.rest.kept i d (by simpa using differ) here
        rw [if_neg differ]
        exact ⟨kept.sound, kept.told, kept.resolution, kept.tended⟩
  have now : e₁.now = e.now := now_updateCall ..
  cases waiter : c.waiter with
  | none =>
      have delivered : e.deliver k v = e₁ := by
        simp only [Engine.deliver, acting.here, waiter]
        rfl
      rw [delivered]
      refine ⟨orderly, ?_⟩
      intro i d _ here
      obtain ⟨sound, told, resolution, tended⟩ := settled i d here
      refine ⟨sound, told, resolution, fun p => (tended p).transfer now ?_ ?_⟩
      · intro inner w owed
        exact (owes inner w owed).resolve_left fun waits => by simp [waiter] at waits
      · intro member; simpa [e₁] using member
  | some w =>
      obtain ⟨outer, stage⟩ := w
      have delivered : e.deliver k v = e₁.wake outer stage (.ofVerdict v) := by
        simp only [Engine.deliver, acting.here, waiter]
        rfl
      rw [delivered]
      refine ⟨orderly.wake .., ?_⟩
      intro i d _ here
      -- `d` is the call before it was woken, if it was.
      obtain ⟨before, found, rfl⟩ : ∃ before, e₁.call? i = some before ∧
          d = if i = outer then before.setWait stage (.turn (.ofVerdict v)) else before := by
        rw [call?_wake] at here
        split at here
        · next self =>
            obtain ⟨before, found, rfl⟩ := Option.map_eq_some_iff.mp here
            exact ⟨before, found, by simp [self]⟩
        · next differ => exact ⟨d, here, by simp [differ]⟩
      obtain ⟨sound, told, resolution, tended⟩ := settled i before found
      refine ⟨?_, ?_, ?_, fun p => (tended p).wake ?_ ?_ ?_ ?_⟩
      · split
        · exact sound.setWait ..
        · exact sound
      · rw [tale_wake]
        split
        · exact told.setWait ..
        · exact told
      · rw [tale_wake]
        split
        · exact resolution.setWait ..
        · exact resolution
      · exact (now_wake ..).trans now
      · simp [queue_wake, e₁]
      · simp [queue_wake]
      · intro inner w owed
        rcases owes inner w owed with ⟨same, _⟩ | still
        · exact .inl (Option.some.inj (same.symm.trans waiter))
        · exact .inr (still.wake ..)

/-! ### Telling code how to go on -/

/-- A script handed to a task by hand leaves all in order. -/
theorem Ordered.instruct (ordered : e.Ordered r away) (id : String) (next : Script) :
    (e.instruct id next).1.Ordered r away := by
  unfold Engine.instruct
  split
  · exact ordered
  · exact ordered.wake ..

/-- Room is made for code of the call itself: if code of that call is woken for it,
that code waited to be told. -/
theorem Acting.clearManual (acting : e.Acting r k c t busy) :
    ∃ c', (e.clearManual k).Acting r k c' t busy ∧ (e.clearManual k).now = e.now ∧
      (c' = c ∨ ∃ stage, c.isManual stage = true ∧ c' = c.setWait stage (.turn .succeed)) := by
  simp only [Engine.clearManual, acting.here, Engine.instruct]
  split
  · exact ⟨c, acting, rfl, .inl rfl⟩
  · next i stage found =>
      refine ⟨_, acting.wake i stage .succeed, now_wake .., ?_⟩
      split
      · next self =>
          subst self
          obtain ⟨d, here, manual⟩ := isManual_of_manual? acting.rest.orderly.distinct found
          obtain rfl : c = d := Option.some.inj (acting.here.symm.trans here)
          exact .inr ⟨stage, manual, rfl⟩
      · exact .inl rfl

end Bulwark.Engine
