import Bulwark.Proofs.Moments

/-!
What turns keep, whatever they do.

A turn of a call writes notes that concern the call, may create commands, and may
ask the circuit of the call and report to it; for the rest it changes only what the
board does not know of. So what these few acts keep is kept by every turn of the
call (`Habit.pollCode`, `Habit.pollWatch`), and by what callers do (`Habit.begin`).

That an operation went on to succeed, fail or run out of time is reported only for a
call that its circuit has let through (`Habit.report`).
-/

namespace Bulwark

/-- An entry tells of no call, of a given one, or of one that is made. -/
def Entry.Concerns (k : CallKey) (x : Entry) : Prop :=
  x.call? = none ∨ x.call? = some k ∨ ∃ j id rescuable, x = .issued j id rescuable

/-- Besides, the entry is about no circuit, and tells of no operation that started. -/
structure Entry.Plain (k : CallKey) (x : Entry) : Prop where
  concerns : x.Concerns k
  aside : x.circuit? = none
  unstarted : ∀ j id, x ≠ .operation j id .started

def Outcome.decides (o : Outcome) : Bool := decide (o = .success) || o.isExecutionError

namespace Engine

def settings? (e : Engine) (n : Name) : Option Settings := (e.desks.get? n).map (·.settings)

theorem settings?_updateDesk (e : Engine) (m n : Name) {f : Desk → Desk}
    (settings : ∀ d, (f d).settings = d.settings) :
    (e.updateDesk m f).settings? n = e.settings? n := by
  simp only [settings?, get?_updateDesk]
  split
  · cases e.desks.get? n <;> simp [settings]
  · rfl

/-- What is kept whatever a turn of a call does but to its circuit. -/
structure Steady (k : CallKey) (holds : Engine → Prop) : Prop where
  /-- It is about the board, the policy, and the settings of the commands in use. -/
  congr : ∀ e e', holds e → e'.board = e.board → e'.policy = e.policy →
    (∀ n, e'.settings? n = e.settings? n) → holds e'
  note : ∀ e x, holds e → x.Plain k → holds (e.note x)
  create : ∀ e n, holds e → holds (e.create n).1

/-- What is kept whatever a turn of a call does, given what is known as soon as the circuit has
let the call through. -/
structure Habit (k : CallKey) (holds admitted : Engine → Prop) : Prop extends Steady k holds where
  lasting : Steady k admitted
  embark : ∀ e id, holds e → admitted e →
    holds (e.note (.operation k id .started)) ∧ admitted (e.note (.operation k id .started))
  ask : ∀ e, holds e → holds (e.ask k).1
  grant : ∀ e, holds e → (e.ask k).2 = true → admitted (e.ask k).1
  report : ∀ e o took, holds e → (o.decides = true → admitted e) → holds (e.report k o took)

/-- What is kept whatever callers do to a board. -/
structure Served (holds : Engine → Prop) : Prop where
  serve : ∀ e n request, holds e →
    holds { e with board := (Board.serve Board.bell n request e.board).1 }
  setHook : ∀ e occasion hook, holds e →
    holds { e with board := e.board.setHook occasion hook }

variable {k : CallKey} {holds admitted : Engine → Prop} {e e' : Engine}

namespace Steady

theorem always (k : CallKey) : Steady k fun _ => True :=
  ⟨fun _ _ _ _ _ _ => trivial, fun _ _ _ _ => trivial, fun _ _ _ => trivial⟩

section

variable (steady : Steady k holds) (here : holds e)

include steady here

/-! ### Small changes -/

theorem aside (desks : e'.desks = e.desks) (board : e'.board = e.board)
    (policy : e'.policy = e.policy) : holds e' :=
  steady.congr e e' here board policy fun n => by simp only [settings?, desks]

theorem remark {m : Remark} (untold : ∀ news, m ≠ .told news) (n : Name) :
    holds (e.remark n m) := by
  refine steady.note e _ here ⟨.inl rfl, ?_, by simp⟩
  cases m with
  | told news => exact absurd rfl (untold news)
  | _ => rfl

theorem mark (stage : Stage) {m : Mark} (past : m ≠ .started) : holds (e.mark k stage m) := by
  rcases e.mark_eq_self_or_note k stage m with same | ⟨id, noted⟩
  · rwa [same]
  · rw [noted]
    exact steady.note e _ here ⟨.inr (.inl rfl), rfl, by simp [past]⟩

theorem enqueue (u : Turn) : holds (e.enqueue u) := steady.aside here rfl rfl rfl

theorem updateDesk (n : Name) {f : Desk → Desk} (settings : ∀ d, (f d).settings = d.settings) :
    holds (e.updateDesk n f) :=
  steady.congr e _ here (board_updateDesk ..) (policy_updateDesk ..)
    fun m => settings?_updateDesk e n m settings

theorem retake (tickets : Roster Name) : holds { e with tickets := tickets } :=
  steady.aside here rfl rfl rfl

theorem updateCall (j : CallKey) (f : Call → Call) : holds (e.updateCall j f) :=
  steady.updateDesk here j.command fun _ => rfl

theorem wake (j : CallKey) (stage : Stage) (next : Script) : holds (e.wake j stage next) :=
  steady.enqueue (steady.updateCall here j _) _

/-- An execution keeps up what is steady. -/
theorem execute (spec : CallSpec Script) : holds (e.execute spec).1 := by
  cases made : e.execute spec with
  | mk after answer =>
      cases answer with
      | error error =>
          obtain rfl := execute_of_error made
          exact here
      | ok i =>
          obtain ⟨base, desk, rfl, _, _, rfl⟩ := execute_of_ok made
          have filed := steady.updateDesk (steady.create e spec.command here) spec.command
            (f := fun desk => { desk with calls := desk.calls ++ [.make spec e.now] }) fun _ => rfl
          have noted := steady.note _ (.issued i spec.id spec.fallback.isSome) filed
            ⟨.inr (.inr ⟨i, _, _, rfl⟩), rfl, by simp⟩
          exact steady.enqueue (steady.enqueue noted _) _

theorem deliver (verdict : Verdict) : holds (e.deliver k verdict) := by
  unfold Engine.deliver
  split
  · exact here
  · have told := steady.note _ (.resolved k verdict)
      (steady.updateCall here k fun c => { c with verdict := some verdict })
      ⟨.inr (.inl rfl), rfl, by simp⟩
    dsimp only
    split
    · exact told
    · exact steady.wake told ..

theorem instruct (id : String) (next : Script) : holds (e.instruct id next).1 := by
  unfold Engine.instruct
  split
  · exact here
  · exact steady.wake here ..

theorem clearManual (j : CallKey) : holds (e.clearManual j) := by
  unfold Engine.clearManual
  split
  · exact here
  · exact steady.instruct here ..

/-- A script that plays keeps up what is steady. -/
theorem play (stage : Stage) (s : Script) : holds (e.play k stage s).1 := by
  cases s with
  | succeed => exact steady.mark here _ (by simp)
  | fail fault => exact steady.mark here _ (by simp)
  | panic message => exact steady.remark here (by simp) _
  | after d next => exact here
  | manual => exact steady.clearManual here k
  | nested spec =>
      have made := steady.execute here spec
      simp only [Engine.play]
      split
      · next answered =>
          rw [answered] at made
          exact steady.updateCall made ..
      · next answered =>
          rw [answered] at made
          exact steady.mark made _ (by simp)

/-! ### The worker and the watch -/

theorem dismiss (j : CallKey) : holds (e.dismiss j) := by
  unfold Engine.dismiss
  split
  · exact here
  · split
    · exact steady.enqueue (steady.updateCall here j _) _
    · exact steady.updateCall here ..

theorem claim (j : CallKey) : holds (e.claim j).1 := by
  unfold Engine.claim
  split
  · exact here
  · split
    · exact here
    · exact steady.updateCall here ..

theorem vacate (j : CallKey) : holds (e.vacate j) := by
  unfold Engine.vacate
  split
  · exact here
  · dsimp only
    split
    · exact steady.updateDesk (steady.updateCall here j _) _ fun _ => rfl
    · exact steady.updateCall here ..

/-! ### Calls -/

theorem launch (spec : CallSpec Script) : holds (e.launch spec) :=
  steady.aside (steady.execute here spec) rfl rfl rfl

theorem startCall (spec : CallSpec Script) : holds (e.startCall spec) := by
  unfold Engine.startCall
  split
  · exact steady.aside here rfl rfl rfl
  · exact steady.aside (steady.execute here spec) rfl rfl rfl

omit here in
theorem startCalls (here : holds e) (specs : List (CallSpec Script)) :
    holds (specs.foldl Engine.startCall e) := by
  induction specs generalizing e with
  | nil => exact here
  | cons spec rest ih => exact ih (steady.startCall here spec)

end

end Steady

namespace Habit

section

variable (habit : Habit k holds admitted) (here : holds e)

include habit here

/-! ### The fallback -/

theorem endRescue {o : Outcome} (fallback : o.isPrimary = false) (took : Duration)
    (verdict : Verdict) : holds (e.endRescue k o took verdict) := by
  have ended := habit.updateCall here k fun c => { c with rescue := .none }
  refine habit.deliver (habit.report _ o took ended fun decides => ?_) verdict
  cases o <;>
    simp [Outcome.isPrimary, Outcome.decides, Outcome.isExecutionError] at fallback decides

theorem playRescue (cause : CallError) (took : Duration) (s : Script) :
    holds (e.playRescue k cause took s) := by
  have played := habit.play here .fallback s
  unfold Engine.playRescue
  split
  · next went =>
      rw [went] at played
      exact habit.updateCall played ..
  · next went =>
      rw [went] at played
      exact habit.endRescue (habit.note _ _ played ⟨.inr (.inl rfl), rfl, by simp⟩) rfl ..
  · next went =>
      rw [went] at played
      exact habit.endRescue (habit.note _ _ played ⟨.inr (.inl rfl), rfl, by simp⟩) rfl ..

/-- The resolution of a call keeps it up, with a fallback or without. -/
theorem resolve (cause : CallError) (took : Duration) : holds (e.resolve k cause took) := by
  unfold Engine.resolve
  split
  · exact here
  · next c _ =>
      split
      · have started := habit.note _ (.fallback k c.id cause)
          (habit.updateCall here k fun c => { c with rescue := .none })
          ⟨.inr (.inl rfl), rfl, by simp⟩
        exact habit.playRescue started ..
      · exact habit.deliver here _

/-! ### The worker -/

/-- A call that is turned away decides nothing. -/
theorem turnAway {m : Remark} (untold : ∀ news, m ≠ .told news) {o : Outcome}
    (away : o.decides = false) (cause : CallError) : holds (e.turnAway k m o cause) := by
  have claimed := habit.claim (habit.dismiss here k) k
  unfold Engine.turnAway
  split
  · next went => rwa [went] at claimed
  · next went =>
      rw [went] at claimed
      refine habit.resolve (habit.report _ o .zero (habit.remark claimed untold _) ?_) ..
      simp [away]

/-- The operation of a call that has been let through ended. -/
theorem endOperation (entered : admitted e) (took : Duration) (fault : Option Fault) :
    holds (e.endOperation k took fault) := by
  have plain : (Entry.ended k .operation fault).Plain k := ⟨.inr (.inl rfl), rfl, by simp⟩
  have claimed := habit.claim (habit.dismiss (habit.note _ _ here plain) k) k
  have noted := habit.lasting.note _ _ entered plain
  have still := habit.lasting.claim (habit.lasting.dismiss noted k) k
  unfold Engine.endOperation
  split
  · next went =>
      rw [went] at claimed still
      exact habit.deliver (habit.report _ .success took claimed fun _ => still) _
  · next went =>
      rw [went] at claimed still
      exact habit.resolve (habit.report _ .failure took claimed fun _ => still) ..
  · next went => rwa [went] at claimed
  · next went =>
      rw [went] at claimed
      exact habit.remark claimed (by simp) _

/-- An operation plays for a call that was let through only. -/
theorem playOperation (entered : admitted e) (since : Instant) (s : Script) :
    holds (e.playOperation k since s) := by
  have played := habit.play here .operation s
  have still := habit.lasting.play entered .operation s
  unfold Engine.playOperation
  split
  · next went =>
      rw [went] at played
      exact habit.updateCall played ..
  · next went =>
      rw [went] at played still
      exact habit.endOperation played still ..
  · next went =>
      rw [went] at played still
      exact habit.endOperation played still ..

theorem mark_started (entered : admitted e) :
    holds (e.mark k .operation .started) ∧ admitted (e.mark k .operation .started) := by
  rcases e.mark_eq_self_or_note k .operation .started with same | ⟨id, noted⟩
  · rw [same]
    exact ⟨here, entered⟩
  · rw [noted]
    exact habit.embark e id here entered

/-- A worker that goes on after its question enters if the answer was yes. -/
theorem enter {answer : Bool} (entered : answer = true → admitted e) (operation : Script) :
    holds (e.enter k answer operation) := by
  unfold Engine.enter
  split
  · next yes =>
      split
      · split
        · exact habit.dismiss here k
        · split
          · exact habit.turnAway here (by simp) rfl _
          · next pool _ =>
              -- Seated, the call has its operation started and played.
              let seated :=
                (e.updateDesk k.command fun desk => { desk with pool := pool }).updateCall k
                  fun c => { c with slot := .holding }
              have seat : ∀ {holds : Engine → Prop}, Steady k holds → holds e → holds seated := by
                intro holds steady here
                refine steady.updateCall (steady.updateDesk here k.command ?_) k _
                exact fun _ => rfl
              obtain ⟨marked, still⟩ := habit.mark_started (seat habit.toSteady here)
                (seat habit.lasting (entered yes))
              exact habit.playOperation marked still ..
      · exact here
  · exact habit.turnAway here (by simp) rfl _

theorem start (operation : Script) : holds (e.start k operation) := by
  unfold Engine.start
  split
  · exact here
  · split
    · exact habit.dismiss here k
    · exact habit.enter (habit.ask _ here) (habit.grant _ here) operation

theorem hold (operation : Script) : holds (e.hold k operation) :=
  habit.updateCall (habit.ask _ here) ..

theorem goOn (entered : ∀ c operation, e.call? k = some c → c.work = .asked true operation →
    admitted e) : holds (e.goOn k) := by
  unfold Engine.goOn
  split
  · exact here
  · next c known =>
      split
      · next answer operation asked =>
          exact habit.enter here (fun yes => entered c operation known (yes ▸ asked)) _
      · exact here

/-! ### The watch -/

/-- The time of a call is up, which has been let through if nobody has claimed it. -/
theorem expire (entered : ∀ c, e.call? k = some c → c.claimed = false → admitted e) :
    holds (e.expire k) := by
  have vacated := habit.vacate here k
  have claimed := habit.claim vacated k
  unfold Engine.expire
  split
  · next went => rwa [went] at claimed
  · next after went =>
      rw [went] at claimed
      refine habit.resolve (habit.report _ .timeout .zero (habit.remark claimed (by simp) _)
        fun _ => ?_) ..
      obtain ⟨c, known, unclaimed, rfl⟩ := claim_of_true went
      refine habit.lasting.remark (habit.lasting.updateCall (habit.lasting.vacate ?_ k) k _)
        (by simp) _
      obtain ⟨d, before, same⟩ := claimed_of_vacate known
      exact entered d before (same.symm.trans unclaimed)

/-- A watch reports a timeout only for a call that was let through. -/
theorem pollWatch (entered : ∀ c, e.call? k = some c → c.watch = .expired → c.claimed = false →
    admitted e) : holds (e.pollWatch k) := by
  unfold Engine.pollWatch
  split
  · next c desk known _ =>
      split
      · split
        · exact habit.vacate here k
        · exact habit.updateCall here ..
      · exact habit.vacate here k
      · next expired =>
          refine habit.expire here fun d same unclaimed => ?_
          obtain rfl := Option.some.inj (known.symm.trans same)
          exact entered c known expired unclaimed
      · exact here
  · exact here

/-- An operation that goes on belongs to a call that was let through. -/
theorem pollCode (stage : Stage) (entered : ∀ c, e.call? k = some c → c.work.phase = .running →
    admitted e) : holds (e.pollCode k stage) := by
  unfold Engine.pollCode
  split
  · exact here
  · next c known =>
      split
      · exact habit.start here _
      · next since next running =>
          exact habit.playOperation here (entered c known (by rw [running]; rfl)) ..
      · exact habit.playRescue here ..
      · exact here

/-! ### Steps -/

/-- What begins at a step keeps up what holds, if requests and changes of the policy do. -/
theorem begin (served : Served holds) {s : Step} (still : ∀ d, s ≠ .advance d)
    (changed : ∀ c, s = .change c → holds { e with policy := e.policy.change c }) :
    holds (e.begin s).1 := by
  cases s with
  | call spec =>
      simp only [Engine.begin]
      split
      · exact here
      · exact habit.startCall here spec
  | calls specs =>
      simp only [Engine.begin]
      split
      · exact here
      · exact habit.startCalls here specs
  | advance d => exact absurd rfl (still d)
  | finish id next =>
      have told := habit.instruct here id next
      simp only [Engine.begin]
      split
      · next instructed => rwa [instructed] at told
      · next instructed => rwa [instructed] at told
  | poll id =>
      -- What is steady does not depend on handles.
      simp only [Engine.begin, pollHandle]
      repeat' split
      all_goals first | exact here | exact habit.aside here rfl rfl rfl
  | await id =>
      simp only [Engine.begin, awaitHandle]
      repeat' split
      all_goals first | exact here | exact habit.aside here rfl rfl rfl
  | drop id =>
      simp only [Engine.begin, dropHandle]
      split
      · exact here
      · exact habit.aside here rfl rfl rfl
  | circuit command request =>
      have created := habit.create _ command here
      simp only [Engine.begin, askCircuit]
      split
      · next made => rwa [made] at created
      · next made => rwa [made] at created
      · next made =>
          rw [made] at created
          exact served.serve _ command _ created
  | create command =>
      have created := habit.create _ command here
      simp only [Engine.begin]
      split
      · next made => rwa [made] at created
      · next made => rwa [made] at created
  | createMany command callers =>
      have created := habit.create _ command here
      simp only [Engine.begin]
      split
      · exact here
      · next made => rwa [made] at created
      · next made => rwa [made] at created
  | pool command handle request =>
      -- A pool that is served changes its desk and the tickets by hand, but no settings.
      simp only [Engine.begin, servePool]
      repeat' split
      all_goals first
        | exact here
        | refine habit.retake (habit.updateDesk here _ ?_) _; exact fun _ => rfl
  | clonePool command =>
      simp only [Engine.begin, Engine.clonePool]
      split
      · exact here
      · refine habit.updateDesk here _ ?_
        exact fun _ => rfl
  | setHook occasion hook => exact served.setHook _ occasion hook here
  | change c => exact changed c rfl
  | settings | get | describeCommand | names | describe | clone => exact here

end

end Habit

end Engine

end Bulwark
