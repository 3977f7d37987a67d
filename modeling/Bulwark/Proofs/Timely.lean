import Bulwark.Proofs.Dated

/-!
Turns keep a call to its times.

The lemmas go through a turn in the order of the code. For the call whose turn it
is they ask for what is known when the turn begins; of a turn of another call, and
of what callers do, they ask nothing.
-/

namespace Bulwark.Engine.Clocked

variable {k j : CallKey} {s : Instant} {D : Duration} {e e' : Engine}

/-! ### Code and its fallback -/

theorem play (clocked : e.Clocked k s D) (j : CallKey) (stage : Stage) (c : Script) :
    (e.play j stage c).1.Clocked k s D := by
  cases c with
  | succeed => exact clocked.mark ..
  | fail fault => exact clocked.mark ..
  | panic message => exact clocked.remark ..
  | after d next => exact clocked
  | manual => exact clocked.clearManual j
  | nested spec =>
      have made := clocked.execute spec
      simp only [Engine.play]
      split
      · next answered =>
          rw [answered] at made
          exact made.updateCall fun _ _ _ dated => dated.congr rfl rfl rfl rfl rfl rfl
      · next answered =>
          rw [answered] at made
          exact made.mark ..

/-- The fallback ended: what it reports carries the run duration of the report before. -/
theorem endRescue (clocked : e.Clocked k s D) {o : Outcome} {took : Duration} (verdict : Verdict)
    (fallback : o.isPrimary = false) (spent : j = k → Spent k s e.board.journal took) :
    (e.endRescue j o took verdict).Clocked k s D := by
  have ended : (e.updateCall j fun c => { c with rescue := .none }).Clocked k s D :=
    clocked.updateCall fun _ c _ dated =>
      ⟨dated.start, dated.queued, dated.since, dated.watched, dated.armed, dated.unexpired,
        dated.early, by simp [Rescue.took?]⟩
  refine Clocked.deliver (ended.report fun self => .fallback fallback ?_) j verdict
  rw [board_updateCall]
  exact spent self

/-- A fallback that plays knows how long its call took. -/
theorem playRescue (clocked : e.Clocked k s D) (cause : CallError) {took : Duration}
    (spent : j = k → Spent k s e.board.journal took) (c : Script) :
    (e.playRescue j cause took c).Clocked k s D := by
  have played := clocked.play j .fallback c
  have told : j = k → Spent k s (e.play j .fallback c).1.board.journal took := by
    intro self
    obtain ⟨new, grown, _⟩ := ((Says.refl j e).play .fallback c).trail.journal
    exact (spent self).mono ⟨new, grown.symm⟩
  unfold Engine.playRescue
  split
  · next after wait went =>
      rw [went] at played told
      refine played.updateCall fun self d _ dated => ⟨dated.start, dated.queued, dated.since,
        dated.watched, dated.armed, dated.unexpired, dated.early, ?_⟩
      intro cost running
      obtain rfl : took = cost := by simpa [Rescue.took?] using running
      exact told self
  · next after went =>
      rw [went] at played told
      have noted := played.note (x := .ended j .fallback none) fun _ => rfl
      refine noted.endRescue .ok rfl fun self => ?_
      exact (told self).mono (List.suffix_cons _ _)
  · next after fault went =>
      rw [went] at played told
      refine (played.note (x := .ended j .fallback (some fault)) fun _ => rfl).endRescue _ rfl
        fun self => ?_
      exact (told self).mono (List.suffix_cons _ _)

/-- A call is resolved in the knowledge of how long it took. -/
theorem resolve (clocked : e.Clocked k s D) (cause : CallError) {took : Duration}
    (spent : j = k → (e.call? k).isSome → Spent k s e.board.journal took) :
    (e.resolve j cause took).Clocked k s D := by
  unfold Engine.resolve
  split
  · exact clocked
  · next c here =>
      split
      · next fallback unused =>
          have started : ((e.updateCall j fun c => { c with rescue := .none }).note
              (.fallback j c.id cause)).Clocked k s D := by
            refine Clocked.note ?_ fun _ => rfl
            exact clocked.updateCall fun _ d _ dated =>
              ⟨dated.start, dated.queued, dated.since, dated.watched, dated.armed,
                dated.unexpired, dated.early, by simp [Rescue.took?]⟩
          refine started.playRescue cause (fun self => ?_) fallback
          subst self
          have grown : (e.updateCall j fun c => { c with rescue := .none }).board.journal <:+
              ((e.updateCall j fun c => { c with rescue := .none }).note
                (.fallback j c.id cause)).board.journal := List.suffix_cons _ _
          rw [board_updateCall] at grown
          exact (spent rfl (by rw [here]; rfl)).mono grown
      · exact clocked.deliver ..

/-- A call reports how it went wrong, and is resolved. -/
theorem wrong (clocked : e.Clocked k s D) {o : Outcome} {took : Duration} (cause : CallError)
    (due : j = k → InTime k s D e.now e.board.journal o took)
    (cost : o = .failure ∧ (j = k → took = s.elapsed e.now) ∨
      (o = .timeout ∨ o = .rejected ∨ o = .shortCircuited) ∧ took = .zero) :
    ((e.report j o took).resolve j cause took).Clocked k s D := by
  refine (clocked.report due).resolve cause fun self made => ?_
  subst self
  refine clocked.spent (by simpa using made) ?_
  rcases cost with ⟨failed, same⟩ | other
  · exact .inl ⟨failed, same rfl⟩
  · exact .inr other

/-! ### The worker -/

theorem dismiss (clocked : e.Clocked k s D) (j : CallKey) : (e.dismiss j).Clocked k s D := by
  unfold Engine.dismiss
  split
  · exact clocked
  · split
    · refine Clocked.enqueue (clocked.updateCall fun _ d _ dated => ?_) _
      exact ⟨dated.start, by simp [Work.phase], by simp [Work.since?], by simp, by simp, by simp,
        dated.early, dated.took⟩
    · refine clocked.updateCall fun _ d _ dated => ?_
      exact ⟨dated.start, by simp [Work.phase], by simp [Work.since?], dated.watched, dated.armed,
        dated.unexpired, dated.early, dated.took⟩

theorem claim (clocked : e.Clocked k s D) (j : CallKey) : (e.claim j).1.Clocked k s D := by
  unfold Engine.claim
  split
  · exact clocked
  · split
    · exact clocked
    · refine clocked.updateCall fun _ d _ dated => ?_
      exact ⟨dated.start, dated.queued, dated.since, dated.watched, dated.armed, dated.unexpired,
        by simp, dated.took⟩

/-- A call that is not let through says so when it was issued. -/
theorem turnAway (clocked : e.Clocked k s D) (m : Remark) {o : Outcome} (cause : CallError)
    (away : o = .shortCircuited ∨ o = .rejected)
    (entered : j = k → e.now = s ∧ (e.tale k).starts = 0) :
    (e.turnAway j m o cause).Clocked k s D := by
  have claimed := (clocked.dismiss j).claim j
  have board : ((e.dismiss j).claim j).1.board = e.board := by simp
  unfold Engine.turnAway
  split
  · next went => rwa [went] at claimed
  · next after went =>
      rw [went] at claimed board
      refine (claimed.remark j.command m).wrong cause (fun self => ?_) ?_
      · obtain ⟨now, idle⟩ := entered self
        have when : (after.remark j.command m).now = s := by
          rw [now_remark, Engine.now, board]
          exact now
        have told : (Tale.of k (after.remark j.command m).board.journal).starts = 0 := by
          have same : (after.remark j.command m).tale k = e.tale k := by
            rw [tale_remark, Engine.tale, board]
            rfl
          change ((after.remark j.command m).tale k).starts = 0
          rw [same, idle]
        rcases away with rfl | rfl
        · exact .shortCircuited when told
        · exact .rejected when told
      · rcases away with rfl | rfl
        · exact .inr ⟨.inr (.inr rfl), rfl⟩
        · exact .inr ⟨.inr (.inl rfl), rfl⟩

/-- The operation ended: the call, unless it is claimed, reports that at once. -/
theorem endOperation (clocked : e.Clocked k s D) {took : Duration} (fault : Option Fault)
    (run : j = k → took = s.elapsed e.now) : (e.endOperation j took fault).Clocked k s D := by
  have left := (clocked.note (x := .ended j .operation fault) fun _ => rfl).dismiss j
  have board : ((e.note (.ended j .operation fault)).dismiss j).board =
      e.board.note (.ended j .operation fault) := board_dismiss ..
  have claimed := left.claim j
  -- Whoever wins the claim has time left.
  have ended : ∀ after, ((e.note (.ended j .operation fault)).dismiss j).claim j = (after, true) →
      after.now = e.now ∧ (j = k → s.nanos ≤ e.now.nanos ∧ e.now.nanos < (s.due D).nanos ∧
        ⟨e.now, .ended k .operation fault⟩ ∈ after.board.journal) := by
    intro after won
    obtain ⟨c, here, unclaimed, rfl⟩ := claim_of_true won
    have now : ((e.note (.ended j .operation fault)).dismiss j).now = e.now := by
      rw [Engine.now, board]
      rfl
    refine ⟨by rw [now_updateCall, now], ?_⟩
    rintro rfl
    refine ⟨?_, ?_, ?_⟩
    · have past := (left.told (by rw [here]; rfl)).past
      rwa [board] at past
    · have early := (left.dated c here).early unclaimed
      rwa [board] at early
    · rw [board_updateCall, board]
      exact List.mem_cons_self
  unfold Engine.endOperation
  split
  · next after went =>
      rw [went] at claimed
      obtain ⟨now, told⟩ := ended after went
      refine Clocked.deliver (claimed.report fun self => ?_) j .ok
      obtain ⟨past, early, member⟩ := told self
      rw [now, run self]
      exact .success past early member
  · next after fault went =>
      rw [went] at claimed
      obtain ⟨now, told⟩ := ended after went
      refine claimed.wrong _ (fun self => ?_) (.inl ⟨rfl, fun self => by rw [now]; exact run self⟩)
      obtain ⟨past, early, member⟩ := told self
      rw [now, run self]
      exact .failure fault past early member
  · next went => rwa [went] at claimed
  · next went =>
      rw [went] at claimed
      exact claimed.remark ..

/-- An operation plays from the instant that its call started. -/
theorem playOperation (clocked : e.Clocked k s D) {since : Instant} (start : j = k → since = s)
    (c : Script) : (e.playOperation j since c).Clocked k s D := by
  have played := clocked.play j .operation c
  have now : (e.play j .operation c).1.now = e.now :=
    ((Says.refl j e).play .operation c).trail.now
  unfold Engine.playOperation
  split
  · next after wait went =>
      rw [went] at played
      refine played.updateCall fun self d _ dated => ⟨dated.start, by simp [Work.phase], ?_,
        dated.watched, dated.armed, dated.unexpired, dated.early, dated.took⟩
      intro t running
      obtain rfl : since = t := by simpa [Work.since?] using running
      exact start self
  · next after went =>
      rw [went] at played now
      exact played.endOperation none fun self => by rw [start self]
  · next after fault went =>
      rw [went] at played now
      exact played.endOperation (some fault) fun self => by rw [start self]

/-- The circuit has answered a call that was issued just now. -/
theorem enter (clocked : e.Clocked k s D) (answer : Bool) (operation : Script)
    (entered : j = k → e.now = s ∧ (e.tale k).starts = 0) :
    (e.enter j answer operation).Clocked k s D := by
  unfold Engine.enter
  split
  · split
    · split
      · exact clocked.dismiss j
      · split
        · exact clocked.turnAway _ _ (.inr rfl) entered
        · next pool _ =>
            have seated := clocked.updateDesk (n := j.command)
              (f := fun desk => { desk with pool := pool }) (fun _ => rfl) (fun _ => rfl)
            have holding := seated.updateCall (j := j) (f := fun c => { c with slot := .holding })
              fun _ _ _ dated => dated.congr rfl rfl rfl rfl rfl rfl
            exact (holding.mark j .operation .started).playOperation (fun self => (entered self).1)
              operation
    · exact clocked
  · exact clocked.turnAway _ _ (.inl rfl) entered

theorem start (clocked : e.Clocked k s D) (operation : Script)
    (entered : j = k → e.now = s ∧ (e.tale k).starts = 0) :
    (e.start j operation).Clocked k s D := by
  unfold Engine.start
  split
  · exact clocked
  · next c here =>
      have made : j = k → (e.call? k).isSome := by
        rintro rfl
        rw [here]
        rfl
      split
      · exact clocked.dismiss j
      · refine (clocked.ask made fun self => (entered self).1).enter _ operation fun self => ?_
        rw [now_ask, tale_ask]
        exact entered self

/-! ### The watch -/

theorem vacate (clocked : e.Clocked k s D)
    (begun : j = k → ∀ c, e.call? k = some c → c.work.phase ≠ .queued) :
    (e.vacate j).Clocked k s D := by
  have shut : (e.updateCall j fun c => { c with slot := .shut, watch := .done }).Clocked k s D :=
    clocked.updateCall fun self c here dated =>
      ⟨dated.start, fun queued => absurd queued (begun self c here), dated.since, by simp, by simp,
        by simp, dated.early, dated.took⟩
  unfold Engine.vacate
  split
  · exact clocked
  · dsimp only
    split
    · exact shut.updateDesk (fun _ => rfl) fun _ => rfl
    · exact shut

/-- The time of a call is up just when it is due, while its operation goes on. -/
theorem expire (claimed : ((e.vacate j).claim j).1.Clocked k s D)
    (up : j = k → ((e.vacate j).claim j).2 = true →
      e.now = s.due D ∧ (e.tale k).starts = 1 ∧ (e.tale k).ends = []) :
    (e.expire j).Clocked k s D := by
  have board : ((e.vacate j).claim j).1.board = e.board := by simp
  unfold Engine.expire
  split
  · next went => rwa [went] at claimed
  · next after went =>
      rw [went] at claimed board up
      refine (claimed.remark j.command _).wrong _ (fun self => ?_) (.inr ⟨.inl rfl, rfl⟩)
      obtain ⟨now, started, going⟩ := up self rfl
      have same : ∀ m, (after.remark j.command m).tale k = e.tale k := by
        intro m
        rw [tale_remark, Engine.tale, board]
        rfl
      refine .timeout ?_ ?_ ?_
      · rw [now_remark, Engine.now, board]
        exact now
      · rw [← started, ← same]
        rfl
      · rw [← going, ← same]
        rfl

/-! ### Turns -/

/-- A turn of the watch, but when the time of the call is up. -/
theorem pollWatch (clocked : e.Clocked k s D)
    (sound : j = k → ∀ c, e.call? k = some c → c.Sound) : (e.pollWatch j).Clocked k s D := by
  unfold Engine.pollWatch
  split
  · next c desk here used =>
      split
      · next waits =>
          split
          · next done =>
              refine clocked.vacate fun self d known => ?_
              subst self
              obtain rfl := Option.some.inj (here.symm.trans known)
              cases work : c.work <;> simp [Call.isWorkDone, work, Work.phase] at done ⊢
          · refine clocked.updateCall fun self d known dated => ?_
            subst self
            obtain rfl := Option.some.inj (here.symm.trans known)
            -- The watch is armed in the instant in which the call is made.
            have now : s = e.now := dated.watched waits
            have time : desk.settings.timeout = D := by
              have limit := clocked.limit
              simpa [Engine.limit, settings?, used] using limit
            refine ⟨dated.start, fun queued => ⟨now, by simp⟩, dated.since, by simp, ?_, by simp,
              dated.early, dated.took⟩
            intro due armed
            rw [← now, time] at armed
            exact (Watch.armed.inj armed).symm
      · next dismissed =>
          refine clocked.vacate fun self d known => ?_
          subst self
          obtain rfl := Option.some.inj (here.symm.trans known)
          simp [(sound rfl c here).dismissed dismissed]
      · next expired =>
          -- The alarm of this watch has not gone off yet.
          have other : j ≠ k := by
            rintro rfl
            exact (clocked.dated c here).unexpired expired
          exact ((clocked.vacate fun self => absurd self other).claim j).expire
            fun self => absurd self other
      · exact clocked
  · exact clocked

/-- A turn of the code of a stage. -/
theorem pollCode (clocked : e.Clocked k s D) (stage : Stage)
    (told : j = k → ∀ c, e.call? k = some c → c.Told (e.tale k)) :
    (e.pollCode j stage).Clocked k s D := by
  unfold Engine.pollCode
  split
  · exact clocked
  · next c here =>
      split
      · next operation queued =>
          refine clocked.start operation fun self => ?_
          subst self
          have idle := (told rfl c here).work
          simp only [queued, Work.Told] at idle
          exact ⟨((clocked.dated c here).queued (by rw [queued]; rfl)).1.symm, idle.1⟩
      · next since next running =>
          refine clocked.playOperation (fun self => ?_) next
          subst self
          exact (clocked.dated c here).since since (by rw [running]; rfl)
      · next cause took next running =>
          refine clocked.playRescue cause (fun self => ?_) next
          subst self
          exact (clocked.dated c here).took took (by rw [running]; rfl)
      · exact clocked

/-- Whichever turn is taken, with everything in order. -/
theorem take (clocked : e.Clocked k s D) {r : Regime} {before after : List Turn} {u : Turn}
    (ordered : e.Ordered r none) (queued : e.queue = before ++ u :: after) :
    (({ e with queue := before ++ after } : Engine).take u).Clocked k s D := by
  have start : ({ e with queue := before ++ after } : Engine).Clocked k s D :=
    clocked.congr rfl rfl rfl
  rcases u with spec | ⟨j, stage | _⟩
  · exact Clocked.congr (start.execute spec) rfl rfl rfl
  · exact start.pollCode stage fun _ c here => (ordered.kept k c (by simp) here).told
  · exact start.pollWatch fun _ c here => (ordered.kept k c (by simp) here).sound

/-! ### Steps -/

theorem startCall (clocked : e.Clocked k s D) (spec : CallSpec Script) :
    (e.startCall spec).Clocked k s D := by
  unfold Engine.startCall
  split
  · exact clocked.congr rfl rfl rfl
  · exact Clocked.congr (clocked.execute spec) rfl rfl rfl

theorem startCalls (clocked : e.Clocked k s D) (specs : List (CallSpec Script)) :
    (specs.foldl Engine.startCall e).Clocked k s D := by
  induction specs generalizing e with
  | nil => exact clocked
  | cons spec rest ih => exact ih (clocked.startCall spec)

/-- What a caller does, but for a change of the settings or time that passes. -/
theorem begin (clocked : e.Clocked k s D) {t : Step} (still : ∀ d, t ≠ .advance d)
    (settled : ∀ c, t ≠ .change c) : (e.begin t).1.Clocked k s D := by
  cases t with
  | call spec =>
      simp only [Engine.begin]
      split
      · exact clocked
      · exact clocked.startCall spec
  | calls specs =>
      simp only [Engine.begin]
      split
      · exact clocked
      · exact clocked.startCalls specs
  | advance d => exact absurd rfl (still d)
  | finish id next =>
      have told := clocked.instruct id next
      simp only [Engine.begin]
      split
      · next instructed => rwa [instructed] at told
      · next instructed => rwa [instructed] at told
  | poll id =>
      simp only [Engine.begin, pollHandle]
      repeat' split
      all_goals first | exact clocked | exact clocked.congr rfl rfl rfl
  | await id =>
      simp only [Engine.begin, awaitHandle]
      repeat' split
      all_goals first | exact clocked | exact clocked.congr rfl rfl rfl
  | drop id =>
      simp only [Engine.begin, dropHandle]
      split
      · exact clocked
      · exact clocked.congr rfl rfl rfl
  | change c => exact absurd rfl (settled c)
  | circuit command request =>
      have created := clocked.create command
      simp only [Engine.begin, askCircuit]
      split
      · next made => rwa [made] at created
      · next made => rwa [made] at created
      · next made =>
          rw [made] at created
          exact created.quiet (Board.serve_quiet command _ _) rfl ⟨rfl, rfl⟩
  | create command =>
      have created := clocked.create command
      simp only [Engine.begin]
      split
      · next made => rwa [made] at created
      · next made => rwa [made] at created
  | createMany command callers =>
      have created := clocked.create command
      simp only [Engine.begin]
      split
      · exact clocked
      · next made => rwa [made] at created
      · next made => rwa [made] at created
  | pool command handle request =>
      simp only [Engine.begin, servePool]
      repeat' split
      all_goals first
        | exact clocked
        | refine Clocked.retake (clocked.updateDesk ?_ ?_) _ <;> exact fun _ => rfl
  | clonePool command =>
      simp only [Engine.begin, Engine.clonePool]
      split
      · exact clocked
      · exact clocked.updateDesk (fun _ => rfl) fun _ => rfl
  | setHook occasion hook => exact clocked.quiet (.setHook _ _ .refl) rfl ⟨rfl, rfl⟩
  | settings | get | describeCommand | names | describe | clone => exact clocked

end Bulwark.Engine.Clocked
