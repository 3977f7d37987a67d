import Bulwark.Proofs.Speech

/-!
Every turn uses up fuel.

`Engine.fuel` bounds the turns until nothing can go on: four for every turn that
some call still needs, and one for every turn in the queue. Here each operation
is weighed, and in the end every turn that is taken uses up fuel (`fuel_take`). A
turn of a part that is due uses up one that its call still needed, too
(`fuel_pollCode_of_ready`, `fuel_pollWatch_of_expired`).
-/

namespace Bulwark

/-- Every task that waits has a turn ahead of it. -/
theorem Wait.turns_pos (wait : Wait) : 1 ≤ wait.turns := by
  cases wait <;> simp [Wait.turns]

/-- A bound on the turns that code needs after it went on. -/
def Progress.turns : Progress → Nat
  | .waits wait => wait.turns
  | _ => 0

namespace Call

variable {c : Call} {stage : Stage} {old : Wait}

/-- Code that waits for something else needs the turns for that. -/
theorem turns_setWait (waits : c.wait? stage = some old) (wait : Wait) :
    (c.setWait stage wait).turns + old.turns = c.turns + wait.turns := by
  cases stage with
  | operation =>
      obtain ⟨since, work⟩ := work_of_wait? waits
      simp only [setWait, turns, work, Work.turns_running]
      omega
  | fallback =>
      obtain ⟨cause, took, rescue⟩ := rescue_of_wait? waits
      simp only [setWait, turns, rescue, Rescue.turns_running]
      omega

/-- What a task has ahead of it is part of what its call has. -/
theorem turns_le_of_wait? (waits : c.wait? stage = some old) : old.turns ≤ c.turns := by
  cases stage with
  | operation =>
      obtain ⟨since, work⟩ := work_of_wait? waits
      simp only [turns, work, Work.turns_running]
      omega
  | fallback =>
      obtain ⟨cause, took, rescue⟩ := rescue_of_wait? waits
      simp only [turns, rescue, Rescue.turns_running]
      omega

/-- Code that is woken to end at once needs no more turns than before. -/
theorem turns_setWait_le {next : Script} (last : next.turns = 0) (c : Call) (stage : Stage) :
    (c.setWait stage (.turn next)).turns ≤ c.turns := by
  have woken : (Wait.turn next).turns = 1 := by simp [Wait.turns, last]
  cases waits : c.wait? stage with
  | none => exact Nat.le_of_eq (congrArg turns (setWait_of_none waits _))
  | some old =>
      have weighed := turns_setWait waits (.turn next)
      have bound := old.turns_pos
      omega

end Call

namespace Engine

variable {e e' : Engine} {k : CallKey} {c : Call}

/-! ### Small changes -/

theorem fuel_congr (desks : e'.desks = e.desks) (queue : e'.queue = e.queue) :
    e'.fuel = e.fuel := by
  simp only [fuel, turns, desks, queue]

theorem fuel_enqueue (k : CallKey) (p : Part) : (e.enqueue (.poll k p)).fuel = e.fuel + 1 := by
  simp only [fuel, turns, enqueue, weigh_append, weigh_cons, weigh_nil, List.length_append,
    List.length_cons, List.length_nil, Turn.turns]
  omega

theorem fuel_mark (i : CallKey) (stage : Stage) (m : Mark) : (e.mark i stage m).fuel = e.fuel :=
  fuel_congr (desks_mark ..) (queue_mark ..)

theorem fuel_report (i : CallKey) (o : Outcome) (took : Duration) :
    (e.report i o took).fuel = e.fuel := fuel_congr (desks_report ..) (queue_report ..)

/-- A desk changes. -/
theorem fuel_updateDesk {n : Name} {desk : Desk} (found : e.desks.get? n = some desk)
    (g : Desk → Desk) :
    (e.updateDesk n g).fuel + 4 * desk.turns = e.fuel + 4 * (g desk).turns := by
  have replaced : weigh (fun entry => entry.2.turns) (e.desks.put n (g desk)) + desk.turns =
      weigh (fun entry => entry.2.turns) e.desks + (g desk).turns :=
    Roster.weigh_put (fun entry => entry.2.turns) (g desk) found
  simp only [updateDesk, found, fuel, turns]
  omega

theorem fuel_updateDesk_of_calls {n : Name} {g : Desk → Desk}
    (calls : ∀ desk, (g desk).calls = desk.calls) : (e.updateDesk n g).fuel = e.fuel := by
  cases found : e.desks.get? n with
  | none => simp only [updateDesk, found]
  | some desk =>
      have weighed := fuel_updateDesk found g
      simp only [Desk.turns, calls] at weighed
      omega

/-- A call changes. -/
theorem fuel_updateCall (here : e.call? k = some c) (f : Call → Call) :
    (e.updateCall k f).fuel + 4 * c.turns = e.fuel + 4 * (f c).turns := by
  obtain ⟨desk, found, numbered⟩ := desk_of_call? here
  obtain ⟨before, after, split, changed⟩ := modify_split numbered f
  have weighed := fuel_updateDesk found fun desk =>
    { desk with calls := desk.calls.modify k.number f }
  simp only [Desk.turns] at weighed
  rw [changed, split] at weighed
  simp only [weigh_append, weigh_cons] at weighed
  simp only [updateCall]
  omega

/-- Work on a call that does not lengthen it costs no fuel. -/
theorem fuel_updateCall_le {f : Call → Call} (shrinks : ∀ d, (f d).turns ≤ d.turns)
    (i : CallKey) : (e.updateCall i f).fuel ≤ e.fuel := by
  cases here : e.call? i with
  | some d =>
      have weighed := fuel_updateCall here f
      have bound := shrinks d
      omega
  | none =>
      cases found : e.desks.get? i.command with
      | none => simp only [updateCall, updateDesk, found, Nat.le_refl]
      | some desk =>
          have weighed := fuel_updateDesk found fun desk =>
            { desk with calls := desk.calls.modify i.number f }
          have absent : desk.calls[i.number]? = none := by
            rw [← call?_of_desk found]
            exact here
          rw [List.modify_eq_self (by simpa using absent)] at weighed
          simp only [Desk.turns] at weighed
          simp only [updateCall]
          omega

/-- Code that is woken to end at once gets one turn. -/
theorem fuel_wake {next : Script} (last : next.turns = 0) (i : CallKey) (stage : Stage) :
    (e.wake i stage next).fuel ≤ e.fuel + 1 := by
  have woken := fuel_updateCall_le (e := e) (fun d => Call.turns_setWait_le last d stage) i
  rw [wake, fuel_enqueue]
  omega

theorem turns_ofVerdict (v : Verdict) : (Script.ofVerdict v).turns = 0 := by
  cases v <;> rfl

/-- A verdict takes fuel for one turn at most, that of a task that waits for it. -/
theorem fuel_deliver (v : Verdict) : (e.deliver k v).fuel ≤ e.fuel + 1 := by
  unfold deliver
  split
  · omega
  · have told := fuel_updateCall_le (e := e) (f := fun c => { c with verdict := some v })
      (fun _ => Nat.le_refl _) k
    dsimp only
    split
    · exact Nat.le_succ_of_le told
    · next outer stage _ =>
        apply Nat.le_trans (fuel_wake (turns_ofVerdict v) outer stage)
        exact Nat.succ_le_succ told

theorem fuel_clearManual (i : CallKey) : (e.clearManual i).fuel ≤ e.fuel + 1 := by
  unfold clearManual instruct
  split
  · exact Nat.le_succ _
  · split
    · exact Nat.le_succ _
    · exact fuel_wake rfl ..

/-- A call that is made brings its own turns, and two of them are queued. -/
theorem fuel_execute {spec : CallSpec Script} {i : CallKey} (made : e.execute spec = (e', .ok i)) :
    e'.fuel = e.fuel + 4 * spec.turns + 2 := by
  obtain ⟨base, desk, created, found, _, rfl⟩ := execute_of_ok made
  have fresh : base.fuel = e.fuel := by
    rw [created]
    unfold create
    split
    · rfl
    · next absent =>
        dsimp only
        split
        · rfl
        · simp [fuel, turns, remark, note, Roster.put_of_get?_eq_none _ absent, Desk.turns]
  have weighed := fuel_updateDesk found fun desk =>
    { desk with calls := desk.calls ++ [.make spec e.now] }
  simp only [Desk.turns, weigh_append, weigh_cons, weigh_nil, Call.turns_make] at weighed
  rw [fuel_enqueue, fuel_enqueue]
  have noted : ∀ x, (Engine.note (base.updateDesk spec.command fun desk =>
      { desk with calls := desk.calls ++ [.make spec e.now] }) x).fuel =
        (base.updateDesk spec.command fun desk =>
          { desk with calls := desk.calls ++ [.make spec e.now] }).fuel := fun _ => rfl
  rw [noted]
  omega

/-! ### Names and calls on the way -/

@[simp] theorem names_updateDesk (n : Name) (f : Desk → Desk) :
    (e.updateDesk n f).desks.names = e.desks.names := by
  unfold updateDesk
  split
  · rfl
  · next desk found =>
      obtain ⟨before, after, split, replaced⟩ := Roster.put_of_get?_eq_some (f desk) found
      show (e.desks.put n (f desk)).names = e.desks.names
      rw [replaced, split]
      simp only [Roster.names, List.map_append, List.map_cons]

@[simp] theorem names_updateCall (i : CallKey) (f : Call → Call) :
    (e.updateCall i f).desks.names = e.desks.names := names_updateDesk ..

theorem nodup_play (distinct : e.desks.names.Nodup) (stage : Stage) (s : Script) :
    (e.play k stage s).1.desks.names.Nodup := by
  cases s with
  | succeed | fail | panic | after => simpa [play] using distinct
  | manual =>
      simp only [play, clearManual, instruct]
      split
      · exact distinct
      · split
        · exact distinct
        · simpa [wake] using distinct
  | nested spec =>
      simp only [play]
      split
      · next after inner made =>
          obtain ⟨base, desk, rfl, found, _, rfl⟩ := execute_of_ok made
          have created : (e.create spec.command).1.desks.names.Nodup := by
            unfold create
            split
            · exact distinct
            · dsimp only
              split
              · exact distinct
              · exact Roster.nodup_names_put distinct _ _
          simpa using created
      · next after error failed =>
          obtain rfl := execute_of_error failed
          simpa using distinct

/-- What the call is like after its code went on. -/
theorem call?_play {stage : Stage} (distinct : e.desks.names.Nodup) (here : e.call? k = some c)
    (idle : c.isManual stage = false) (s : Script) :
    ∃ c', (e.play k stage s).1.call? k = some c' ∧ c.Spares stage c' := by
  cases s with
  | succeed => exact ⟨c, by simp [play, here], .inl rfl⟩
  | fail fault => exact ⟨c, by simp [play, here], .inl rfl⟩
  | panic message => exact ⟨c, by simp [play, here], .inl rfl⟩
  | after d next => exact ⟨c, here, .inl rfl⟩
  | manual =>
      simp only [play, clearManual, here, instruct]
      split
      · exact ⟨c, here, .inl rfl⟩
      · next i other found =>
          simp only [call?_wake, here]
          split
          -- A script that goes to the same call goes to its other stage.
          · next self =>
              subst self
              obtain ⟨d, known, manual⟩ := isManual_of_manual? distinct found
              obtain rfl : c = d := Option.some.inj (here.symm.trans known)
              refine ⟨_, rfl, .inr ⟨other, ?_, rfl⟩⟩
              rintro rfl
              simp [idle] at manual
          · exact ⟨c, rfl, .inl rfl⟩
  | nested spec =>
      simp only [play]
      split
      · next after inner made =>
          obtain ⟨base, desk, rfl, found, key, rfl⟩ := execute_of_ok made
          have before : (e.create spec.command).1.call? k = some c := by
            rw [call?_create, here]
          -- The nested call is new, and so another one.
          have differ : k ≠ inner := by
            rintro rfl
            rw [key, call?_of_desk found] at before
            simp at before
          refine ⟨c, ?_, .inl rfl⟩
          rw [call?_updateCall_of_ne _ differ]
          simp only [call?_enqueue, call?_note, call?_updateDesk_append found, ← key, if_neg differ,
            before]
      · next after error failed =>
          obtain rfl := execute_of_error failed
          exact ⟨c, by simp [here], .inl rfl⟩

/-! ### Code -/

/-- What code that goes on costs, with the turns that it still needs if it waits. -/
theorem fuel_play (stage : Stage) (s : Script) :
    (e.play k stage s).1.fuel + 4 * (e.play k stage s).2.turns ≤ e.fuel + 4 * s.turns + 2 := by
  cases s with
  | succeed => simp only [play, fuel_mark, Progress.turns, Script.turns]; omega
  | fail fault => simp only [play, fuel_mark, Progress.turns, Script.turns]; omega
  | panic message =>
      have same : (e.remark k.command (.panicCaught stage (panicMessage message))).fuel = e.fuel :=
        rfl
      simp only [play, same, Progress.turns, Script.turns]
      omega
  | after d next =>
      simp only [play, Progress.turns, Script.turns, Wait.turns]
      omega
  | manual =>
      have cleared := fuel_clearManual (e := e) k
      simp only [play, Progress.turns, Script.turns, Wait.turns]
      omega
  | nested spec =>
      rw [Script.turns_nested]
      simp only [play]
      split
      · next after inner made =>
          -- The nested call brings the turns that the script had for it.
          have brought := fuel_execute made
          have waits := fuel_updateCall_le (e := after)
            (f := fun c => { c with waiter := some (k, stage) }) (fun _ => Nat.le_refl _) inner
          simp only [Progress.turns, Wait.turns]
          omega
      · next after error failed =>
          obtain rfl := execute_of_error failed
          simp only [fuel_mark, Progress.turns]
          omega

/-- Code that ends changes no desk and queues no turn. -/
theorem play_of_ended (stage : Stage) (s : Script)
    (ended : ∀ wait, (e.play k stage s).2 ≠ .waits wait) :
    (e.play k stage s).1.desks = e.desks ∧ (e.play k stage s).1.queue = e.queue := by
  cases s with
  | succeed => exact ⟨desks_mark .., queue_mark ..⟩
  | fail fault => exact ⟨desks_mark .., queue_mark ..⟩
  | panic message => exact ⟨rfl, rfl⟩
  | after d next => exact absurd rfl (ended _)
  | manual => exact absurd rfl (ended _)
  | nested spec =>
      simp only [play] at ended ⊢
      split at ended
      · exact absurd rfl (ended _)
      · next after error failed =>
          obtain rfl := execute_of_error failed
          exact ⟨desks_mark .., queue_mark ..⟩

theorem fuel_play_of_ended (stage : Stage) (s : Script)
    (ended : ∀ wait, (e.play k stage s).2 ≠ .waits wait) :
    (e.play k stage s).1.fuel = e.fuel :=
  fuel_congr (play_of_ended stage s ended).1 (play_of_ended stage s ended).2

/-- The turns of a fallback that ends pay for the verdict. -/
theorem fuel_endRescue (here : e.call? k = some c) (outcome : Outcome) (took : Duration)
    (verdict : Verdict) :
    (e.endRescue k outcome took verdict).fuel + 4 * c.rescue.turns ≤ e.fuel + 1 := by
  let finished : Call → Call := fun c => { c with rescue := .none }
  have ended := fuel_updateCall here finished
  have delivered := fuel_deliver (e := (e.updateCall k finished).report k outcome took) (k := k)
    verdict
  rw [fuel_report] at delivered
  have gone : (finished c).turns + c.rescue.turns = c.turns := by
    simp only [finished, Call.turns, Rescue.turns_none]
    omega
  change (((e.updateCall k finished).report k outcome took).deliver k verdict).fuel + _ ≤ _
  omega

/-- A fallback that goes on pays for the turns that it still needs. -/
theorem fuel_playRescue (distinct : e.desks.names.Nodup) (here : e.call? k = some c)
    (idle : c.isManual .fallback = false) (cause : CallError) (took : Duration) (s : Script) :
    (e.playRescue k cause took s).fuel + 4 * c.rescue.turns ≤ e.fuel + 4 * s.turns + 2 := by
  obtain ⟨c', there, spared⟩ := call?_play distinct here idle s
  have played := fuel_play (e := e) (k := k) .fallback s
  have ended := fuel_play_of_ended (e := e) (k := k) .fallback s
  rw [← spared.rescue]
  simp only [playRescue]
  split
  · next after wait went =>
      rw [went] at played there
      have waits := fuel_updateCall there fun c => { c with rescue := .running cause took wait }
      simp only [Call.turns, Rescue.turns_running] at waits
      simp only [Progress.turns] at played
      omega
  · next after went =>
      rw [went] at ended there
      have finished := fuel_endRescue (e := after.note (.ended k .fallback none)) there
        .fallbackSuccess took .ok
      have spent : after.fuel = e.fuel := ended (by simp)
      have noted : (after.note (.ended k .fallback none)).fuel = after.fuel := rfl
      omega
  · next after fault went =>
      rw [went] at ended there
      have finished := fuel_endRescue (e := after.note (.ended k .fallback (some fault))) there
        .fallbackFailure took (.error (.fallback fault cause))
      have spent : after.fuel = e.fuel := ended (by simp)
      have noted : (after.note (.ended k .fallback (some fault))).fuel = after.fuel := rfl
      omega

/-- To resolve a call takes fuel for two turns at most, whether its fallback starts or not. -/
theorem fuel_resolve (distinct : e.desks.names.Nodup) (cause : CallError) (took : Duration) :
    (e.resolve k cause took).fuel ≤ e.fuel + 2 := by
  unfold resolve
  split
  · exact Nat.le_add_right _ _
  · next c here =>
      split
      · next fallback unused =>
          let begun : Call → Call := fun c => { c with rescue := .none }
          have cleared := fuel_updateCall here begun
          have there : ((e.updateCall k begun).note (.fallback k c.id cause)).call? k =
              some (begun c) := by
            rw [call?_note, call?_updateCall_self, here]
            rfl
          have rescued := fuel_playRescue (by simpa using distinct) there rfl cause took fallback
          have noted : ((e.updateCall k begun).note (.fallback k c.id cause)).fuel =
              (e.updateCall k begun).fuel := rfl
          have spent : (begun c).turns + fallback.turns = c.turns := by
            simp only [begun, Call.turns, unused, Rescue.turns_unused, Rescue.turns_none]
            omega
          have none_ : (begun c).rescue.turns = 0 := rfl
          change (((e.updateCall k begun).note (.fallback k c.id cause)).playRescue k cause took
            fallback).fuel ≤ _
          omega
      · have told := fuel_deliver (e := e) (k := k) (.error cause)
        omega

/-! ### The worker -/

theorem fuel_dismiss (here : e.call? k = some c) :
    (e.dismiss k).fuel + 4 * c.work.turns ≤ e.fuel + 1 := by
  simp only [dismiss, here]
  split
  · next due armed =>
      have left := fuel_updateCall here fun c => { c with work := .done, watch := .dismissed }
      rw [fuel_enqueue]
      simp only [Call.turns, armed, Work.turns_done, Watch.turns_armed, Watch.turns_dismissed]
        at left
      omega
  · have left := fuel_updateCall here fun c => { c with work := .done }
    simp only [Call.turns, Work.turns_done] at left
    omega

theorem fuel_claim : (e.claim k).1.fuel ≤ e.fuel := by
  unfold claim
  split
  · exact Nat.le_refl _
  · split
    · exact Nat.le_refl _
    · exact fuel_updateCall_le (f := fun c => { c with claimed := true }) (fun _ => Nat.le_refl _) k

theorem names_dismiss : (e.dismiss k).desks.names = e.desks.names := by
  unfold dismiss
  split
  · rfl
  · split
    · exact names_updateCall ..
    · exact names_updateCall ..

theorem names_claim : (e.claim k).1.desks.names = e.desks.names := by
  unfold claim
  split
  · rfl
  · split
    · rfl
    · exact names_updateCall ..

theorem fuel_turnAway (distinct : e.desks.names.Nodup) (here : e.call? k = some c) (m : Remark)
    (outcome : Outcome) (cause : CallError) :
    (e.turnAway k m outcome cause).fuel + 4 * c.work.turns ≤ e.fuel + 3 := by
  have left := fuel_dismiss here
  have claimed := fuel_claim (e := e.dismiss k) (k := k)
  have names := names_claim (e := e.dismiss k) (k := k)
  rw [names_dismiss] at names
  simp only [turnAway]
  split
  · next after went =>
      rw [went] at claimed
      have spent : after.fuel ≤ (e.dismiss k).fuel := claimed
      omega
  · next after went =>
      rw [went] at claimed names
      have spent : after.fuel ≤ (e.dismiss k).fuel := claimed
      have resolved := fuel_resolve (e := (after.remark k.command m).report k outcome .zero)
        (k := k) (by simpa [names] using distinct) cause .zero
      rw [fuel_report] at resolved
      have remarked : (after.remark k.command m).fuel = after.fuel := rfl
      omega

/-- The turns of an operation that ends pay for all that follows. -/
theorem fuel_endOperation (distinct : e.desks.names.Nodup) (here : e.call? k = some c)
    (took : Duration) (fault : Option Fault) :
    (e.endOperation k took fault).fuel + 4 * c.work.turns ≤ e.fuel + 3 := by
  let noted := e.note (.ended k .operation fault)
  have same : noted.fuel = e.fuel := rfl
  have left := fuel_dismiss (e := noted) here
  have claimed := fuel_claim (e := noted.dismiss k) (k := k)
  have names : ((noted.dismiss k).claim k).1.desks.names = e.desks.names := by
    rw [names_claim, names_dismiss]
    rfl
  cases verdict : (noted.dismiss k).claim k with
  | mk after first =>
      rw [verdict] at claimed names
      have spent : after.fuel ≤ (noted.dismiss k).fuel := claimed
      cases first with
      | false =>
          cases fault with
          | none => simp only [endOperation, verdict, noted]; omega
          | some fault =>
              have remarked : (after.remark k.command (.lateFailure fault)).fuel = after.fuel := rfl
              simp only [endOperation, verdict, noted]
              omega
      | true =>
          cases fault with
          | none =>
              have told := fuel_deliver (e := after.report k .success took) (k := k) .ok
              rw [fuel_report] at told
              simp only [endOperation, verdict, noted]
              omega
          | some fault =>
              have resolved := fuel_resolve (e := after.report k .failure took) (k := k)
                (by simpa [names] using distinct) (.operation fault) took
              rw [fuel_report] at resolved
              simp only [endOperation, verdict, noted]
              omega

/-- An operation that goes on pays for the turns that it still needs. -/
theorem fuel_playOperation (distinct : e.desks.names.Nodup) (here : e.call? k = some c)
    (idle : c.isManual .operation = false) (since : Instant) (s : Script) :
    (e.playOperation k since s).fuel + 4 * c.work.turns ≤ e.fuel + 4 * s.turns + 3 := by
  obtain ⟨c', there, spared⟩ := call?_play distinct here idle s
  have played := fuel_play (e := e) (k := k) .operation s
  have ended := fuel_play_of_ended (e := e) (k := k) .operation s
  have names := nodup_play (k := k) distinct .operation s
  rw [← spared.work]
  simp only [playOperation]
  split
  · next after wait went =>
      rw [went] at played there
      have waits := fuel_updateCall there fun c => { c with work := .running since wait }
      simp only [Call.turns, Work.turns_running] at waits
      simp only [Progress.turns] at played
      omega
  · next after went =>
      rw [went] at ended there names
      have finished := fuel_endOperation (e := after) names there (since.elapsed after.now) none
      have spent : after.fuel = e.fuel := ended (by simp)
      omega
  · next after fault went =>
      rw [went] at ended there names
      have finished := fuel_endOperation (e := after) names there (since.elapsed after.now)
        (some fault)
      have spent : after.fuel = e.fuel := ended (by simp)
      omega

/-- A worker that goes on after its question has the turns of its operation in store. -/
theorem fuel_enter {operation : Script} (distinct : e.desks.names.Nodup)
    (here : e.call? k = some c) (fresh : c.wait? .operation = none)
    (work : c.work.turns = operation.turns + 1) (answer : Bool) :
    (e.enter k answer operation).fuel ≤ e.fuel := by
  unfold enter
  split
  · obtain ⟨desk, found, _⟩ := desk_of_call? here
    simp only [here, found]
    split
    · have left := fuel_dismiss here
      omega
    · split
      · have away := fuel_turnAway distinct here .rejected .rejected .maxConcurrency
        omega
      · next pool _ =>
          let sit : Call → Call := fun c => { c with slot := .holding }
          let taken : Desk → Desk := fun desk => { desk with pool := pool }
          let opened := e.updateDesk k.command taken
          let seated := (opened.updateCall k sit).mark k .operation .started
          have known : opened.call? k = some c := by
            rw [← here]
            exact call?_updateDesk_of_calls e k.command (f := taken) (fun _ => rfl) k
          have there : seated.call? k = some (sit c) := by
            rw [call?_mark, call?_updateCall_self, known]
            rfl
          have names : seated.desks.names.Nodup := by simpa [seated, opened] using distinct
          have idle : (sit c).isManual .operation = false := by
            have none_ : (sit c).wait? .operation = none := fresh
            simp only [Call.isManual, none_]
          have played := fuel_playOperation names there idle e.now operation
          -- Neither the ticket nor the note of the start takes a turn.
          have spent : seated.fuel ≤ e.fuel := by
            have pooled : opened.fuel = e.fuel := fuel_updateDesk_of_calls fun _ => rfl
            have sat := fuel_updateCall_le (e := opened) (f := sit) (fun _ => Nat.le_refl _) k
            have marked : seated.fuel = (opened.updateCall k sit).fuel := fuel_mark ..
            omega
          have same : (sit c).work = c.work := rfl
          rw [same] at played
          change (seated.playOperation k e.now operation).fuel ≤ e.fuel
          omega
  · have away := fuel_turnAway distinct here .shortCircuited .shortCircuited .circuitOpen
    omega

theorem fuel_start {operation : Script} (distinct : e.desks.names.Nodup)
    (here : e.call? k = some c) (queued : c.work = .queued operation) :
    (e.start k operation).fuel ≤ e.fuel := by
  have needed : c.work.turns = operation.turns + 1 := by rw [queued]; rfl
  simp only [start, here]
  split
  · have left := fuel_dismiss here
    omega
  · have asked : (e.ask k).1.fuel = e.fuel := fuel_congr rfl rfl
    rw [← asked]
    exact fuel_enter (e := (e.ask k).1) distinct here (by simp [Call.wait?, queued]) needed _

/-! ### The watch -/

theorem fuel_vacate (here : e.call? k = some c) :
    (e.vacate k).fuel + 4 * c.watch.turns = e.fuel := by
  let shut : Call → Call := fun c => { c with slot := .shut, watch := .done }
  have left := fuel_updateCall here shut
  have through : (shut c).turns + c.watch.turns = c.turns := by
    simp only [shut, Call.turns, Watch.turns_done]
    omega
  have finished : (e.vacate k).fuel = (e.updateCall k shut).fuel := by
    simp only [vacate, here]
    split
    · exact fuel_updateDesk_of_calls fun _ => rfl
    · rfl
  omega

theorem names_vacate : (e.vacate k).desks.names = e.desks.names := by
  unfold vacate
  split
  · rfl
  · dsimp only
    split
    · rw [names_updateDesk, names_updateCall]
    · exact names_updateCall ..

/-- A watch whose time is up pays for the resolution of its call. -/
theorem fuel_expire (distinct : e.desks.names.Nodup) (here : e.call? k = some c) :
    (e.expire k).fuel + 4 * c.watch.turns ≤ e.fuel + 2 := by
  have left := fuel_vacate here
  have claimed := fuel_claim (e := e.vacate k) (k := k)
  have names := names_claim (e := e.vacate k) (k := k)
  rw [names_vacate] at names
  simp only [expire]
  split
  · next after went =>
      rw [went] at claimed
      have spent : after.fuel ≤ (e.vacate k).fuel := claimed
      omega
  · next after went =>
      rw [went] at claimed names
      have spent : after.fuel ≤ (e.vacate k).fuel := claimed
      generalize Remark.deadlineExceeded _ = m
      have resolved := fuel_resolve (e := (after.remark k.command m).report k .timeout .zero)
        (k := k) (by simpa [names] using distinct) .timeout .zero
      rw [fuel_report] at resolved
      have remarked : (after.remark k.command m).fuel = after.fuel := rfl
      omega

/-! ### Turns -/

/-- A turn of a watch costs no fuel. -/
theorem fuel_pollWatch (distinct : e.desks.names.Nodup) : (e.pollWatch k).fuel ≤ e.fuel := by
  unfold pollWatch
  split
  · next c desk here found =>
      have vacated := fuel_vacate here
      split
      · next queued =>
          split
          · omega
          · have armed := fuel_updateCall here fun c =>
              { c with watch := .armed (e.now.due desk.settings.timeout) }
            simp only [Call.turns, queued, Watch.turns_queued, Watch.turns_armed] at armed
            omega
      · omega
      · next expired =>
          have finished := fuel_expire distinct here
          simp only [expired, Watch.turns_expired] at finished
          omega
      · exact Nat.le_refl _
  · exact Nat.le_refl _

theorem fuel_pollWatch_of_expired (distinct : e.desks.names.Nodup) (here : e.call? k = some c)
    (expired : c.watch = .expired) : (e.pollWatch k).fuel < e.fuel := by
  obtain ⟨desk, found, _⟩ := desk_of_call? here
  have finished := fuel_expire distinct here
  simp only [expired, Watch.turns_expired] at finished
  simp only [pollWatch, here, found, expired]
  omega

theorem fuel_pollCode_of_ready {stage : Stage} {next : Script} (distinct : e.desks.names.Nodup)
    (here : e.call? k = some c) (ready : c.wait? stage = some (.turn next)) :
    (e.pollCode k stage).fuel < e.fuel := by
  cases stage with
  | operation =>
      obtain ⟨since, work⟩ := Call.work_of_wait? ready
      have played := fuel_playOperation distinct here (by simp [Call.isManual, ready]) since next
      have needed : c.work.turns = next.turns + 1 := by rw [work]; rfl
      simp only [pollCode, here, work]
      omega
  | fallback =>
      obtain ⟨cause, took, rescue⟩ := Call.rescue_of_wait? ready
      have played := fuel_playRescue distinct here (by simp [Call.isManual, ready]) cause took next
      have needed : c.rescue.turns = next.turns + 1 := by rw [rescue]; rfl
      simp only [pollCode, here, rescue]
      omega

/-- A turn of an operation or a fallback costs no fuel. -/
theorem fuel_pollCode (distinct : e.desks.names.Nodup) (stage : Stage) :
    (e.pollCode k stage).fuel ≤ e.fuel := by
  cases here : e.call? k with
  | none => simp only [pollCode, here, Nat.le_refl]
  | some c =>
      have ready : ∀ next, c.wait? stage = some (.turn next) →
          (e.pollCode k stage).fuel < e.fuel :=
        fun next waits => fuel_pollCode_of_ready distinct here waits
      revert ready
      simp only [pollCode, here]
      split
      · next operation queued => exact fun _ => fuel_start distinct here queued
      · next since next work =>
          intro ready
          exact Nat.le_of_lt (ready next (by simp [Call.wait?, work]))
      · next cause took next rescue =>
          intro ready
          exact Nat.le_of_lt (ready next (by simp [Call.wait?, rescue]))
      · exact fun _ => Nat.le_refl _

/-- A call that is launched costs what its specification says. -/
theorem fuel_launch (spec : CallSpec Script) :
    (e.launch spec).fuel ≤ e.fuel + 4 * spec.turns + 2 := by
  have same : (e.launch spec).fuel = (e.execute spec).1.fuel := fuel_congr rfl rfl
  rw [same]
  cases made : e.execute spec with
  | mk after answer =>
      cases answer with
      | ok i => exact Nat.le_of_eq (fuel_execute made)
      | error error =>
          obtain rfl := execute_of_error made
          simp only
          omega

/-- A turn that is taken uses up fuel. -/
theorem fuel_take {before after : List Turn} {u : Turn} (distinct : e.desks.names.Nodup)
    (queued : e.queue = before ++ u :: after) :
    (({ e with queue := before ++ after } : Engine).take u).fuel < e.fuel := by
  let left : Engine := { e with queue := before ++ after }
  have kept : left.desks.names.Nodup := distinct
  have spent : left.fuel + 4 * u.turns + 1 = e.fuel := by
    simp only [left, fuel, turns, queued, weigh_append, weigh_cons, List.length_append,
      List.length_cons]
    omega
  change (left.take u).fuel < e.fuel
  rcases u with spec | ⟨k, stage | _⟩
  · have launched := fuel_launch (e := left) spec
    simp only [Turn.turns] at spent
    simp only [take]
    omega
  · have polled := fuel_pollCode (e := left) (k := k) kept stage
    simp only [Turn.turns] at spent
    simp only [take]
    omega
  · have polled := fuel_pollWatch (e := left) (k := k) kept
    simp only [Turn.turns] at spent
    simp only [take]
    omega

end Engine

end Bulwark
