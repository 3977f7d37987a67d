import Bulwark.Proofs.Apart
import Bulwark.Proofs.Recounts

/-!
Engines in lockstep.

Two engines are twins if they are the same but for code, for what their journals tell of it,
and for as much of their queues and handles as a `Leeway` grants. Turns do not read queues
and handles. So in both engines every turn does the same:

* `Engine.Twin.instruct`: code that waits to be told is found in both.
* `Engine.Twin.play`: code goes on alike, unless a panic is replaced.
* `Engine.Twin.playOperation`, `Engine.Twin.playRescue`: then it ends alike all the same.
* `Engine.Twin.poll`: so every turn of a task of a call keeps engines twins.
-/

namespace Bulwark

/-- What two engines may differ in. -/
structure Leeway where
  /-- The panics that are failures in the second engine. -/
  panics : Panics
  queue : List Turn → List Turn → Prop
  handles : Roster Handle → Roster Handle → Prop
  enqueue : ∀ {q q' : List Turn}, queue q q' → ∀ k p,
    queue (q ++ [.poll k p]) (q' ++ [.poll k p])

/-- Engines that differ no further than they may. -/
structure Engine.Twin (l : Leeway) (e e' : Engine) : Prop where
  board : e.board.Twin l.panics e'.board
  policy : e'.policy = e.policy
  desks : Roster.Alike (Desk.Twin l.panics) e.desks e'.desks
  queue : l.queue e.queue e'.queue
  handles : l.handles e.handles e'.handles
  tickets : e'.tickets = e.tickets

/-- In desks that are twins the same code waits to be told. -/
theorem Desk.Twin.manual? {panics : Panics} {desk desk' : Desk} (twin : desk.Twin panics desk')
    (n : Name) (id : String) : desk'.manual? n id = desk.manual? n id := by
  refine findSome?_eq_of_forall₂ (forall₂_zipIdx twin.calls 0) ?_
  rintro ⟨c, i⟩ ⟨c', i'⟩ ⟨rfl, same⟩
  have same : c.Twin panics c' := same
  simp only [same.id, same.isManual]

namespace Engine.Twin

variable {l : Leeway} {e e' : Engine} {k : CallKey}

theorem now (twin : Twin l e e') : e'.now = e.now := twin.board.now

/-! ### Looking up and writing down -/

/-- A call under way in one engine is under way in the other. -/
theorem call? (twin : Twin l e e') (k : CallKey) :
    e.call? k = none ∧ e'.call? k = none ∨
      ∃ c c', e.call? k = some c ∧ e'.call? k = some c' ∧ c.Twin l.panics c' := by
  simp only [Engine.call?]
  rcases twin.desks.get? k.command with ⟨gone, gone'⟩ | ⟨desk, desk', found, found', same⟩
  · exact .inl ⟨by simp [gone], by simp [gone']⟩
  · simpa only [found, found', Option.bind_some] using getElem?_of_forall₂ same.calls k.number

theorem note (twin : Twin l e e') (x : Entry) : Twin l (e.note x) (e'.note x) :=
  { twin with board := twin.board.note x }

theorem remark (twin : Twin l e e') (n : Name) (r : Remark) :
    Twin l (e.remark n r) (e'.remark n r) := twin.note _

theorem poll_next (twin : Twin l e e') (k : CallKey) (p : Part) :
    Twin l (e.enqueue (.poll k p)) (e'.enqueue (.poll k p)) :=
  { twin with queue := l.enqueue twin.queue k p }

theorem updateDesk (twin : Twin l e e') (n : Name) {f f' : Desk → Desk}
    (kept : ∀ desk desk', desk.Twin l.panics desk' → (f desk).Twin l.panics (f' desk')) :
    Twin l (e.updateDesk n f) (e'.updateDesk n f') := by
  simp only [Engine.updateDesk]
  rcases twin.desks.get? n with ⟨gone, gone'⟩ | ⟨desk, desk', found, found', same⟩
  · simp only [gone, gone']
    exact twin
  · simp only [found, found']
    exact { twin with desks := twin.desks.put n (kept _ _ same) }

theorem updateCall (twin : Twin l e e') (k : CallKey) {f f' : Call → Call}
    (kept : ∀ c c', c.Twin l.panics c' → (f c).Twin l.panics (f' c')) :
    Twin l (e.updateCall k f) (e'.updateCall k f') :=
  twin.updateDesk _ fun _ _ same => { same with calls := forall₂_modify same.calls kept _ }

/-- The same change of a call in both engines. -/
theorem amend (twin : Twin l e e') (k : CallKey) (f : Call → Call)
    (kept : ∀ c c', c.Twin l.panics c' → (f c).Twin l.panics (f c')) :
    Twin l (e.updateCall k f) (e'.updateCall k f) := twin.updateCall k kept

/-! ### Setting up -/

/-- Twins create a command alike, and stay twins. -/
theorem create (twin : Twin l e e') (n : Name) :
    Twin l (e.create n).1 (e'.create n).1 ∧ (e'.create n).2 = (e.create n).2 := by
  simp only [Engine.create, twin.policy, twin.now]
  rcases twin.desks.get? n with ⟨gone, gone'⟩ | ⟨desk, desk', found, found', _⟩
  · simp only [gone, gone']
    cases (e.policy.settings n).defect? with
    | some defect => exact ⟨twin, rfl⟩
    | none =>
        refine ⟨Twin.remark ?_ _ _, rfl⟩
        exact { twin with
          board := twin.board.putCircuit n _
          desks := twin.desks.put n (.refl _ _)
          policy := rfl }
  · simp only [found, found']
    exact ⟨twin, trivial⟩

/-- A call is made, or not, alike. -/
theorem execute (twin : Twin l e e') {spec spec' : CallSpec Script}
    (same : spec.Twin l.panics spec') :
    Twin l (e.execute spec).1 (e'.execute spec').1 ∧
      (e'.execute spec').2 = (e.execute spec).2 := by
  obtain ⟨created, failed⟩ := twin.create spec.command
  unfold Engine.execute
  rw [same.mode, same.command]
  split
  · exact ⟨twin, rfl⟩
  · revert created failed
    rcases e.create spec.command with ⟨x, defect⟩
    rcases e'.create spec.command with ⟨x', defect'⟩
    rintro created (rfl : defect' = defect)
    cases defect' with
    | some defect => exact ⟨created, rfl⟩
    | none =>
        have number : ((x'.desks.get? spec.command).map (·.calls.length)).getD 0 =
            ((x.desks.get? spec.command).map (·.calls.length)).getD 0 := by
          rcases created.desks.get? spec.command with ⟨gone, gone'⟩ | ⟨_, _, found, found', twins⟩
          · simp only [gone, gone']
          · simp only [found, found', Option.map_some, twins.length]
        have rescuable : spec'.fallback.isSome = spec.fallback.isSome := by
          have fallbacks := same.fallback
          generalize spec.fallback = first at fallbacks
          generalize spec'.fallback = second at fallbacks
          cases fallbacks <;> rfl
        simp only [number, created.now, same.id, rescuable]
        refine ⟨(((created.updateDesk _ ?_).note _).poll_next _ _).poll_next _ _, trivial⟩
        intro desk desk' twins
        exact { twins with
          calls := List.rel_append twins.calls (.cons (.make same _) .nil) }

/-! ### Reporting and delivering -/

/-- Twins report alike. -/
theorem report (twin : Twin l e e') (k : CallKey) (outcome : Outcome) (took : Duration) :
    Twin l (e.report k outcome took) (e'.report k outcome took) := by
  unfold Engine.report
  rcases twin.call? k with ⟨gone, gone'⟩ | ⟨c, c', here, here', same⟩
  · simp only [gone, gone']
    exact twin
  · simp only [here, here', same.start]
    exact { twin with board := twin.board.report (Board.ringsAlike_bell _) _ _ _ }

theorem wake (twin : Twin l e e') (k : CallKey) {stage : Stage} {next next' : Script}
    (code : Script.Twin l.panics stage next next') :
    Twin l (e.wake k stage next) (e'.wake k stage next') :=
  (twin.updateCall k fun _ _ same => same.setWait (.turn code)).poll_next k _

/-- A verdict is delivered to twins alike. -/
theorem deliver (twin : Twin l e e') (k : CallKey) (verdict : Verdict) :
    Twin l (e.deliver k verdict) (e'.deliver k verdict) := by
  unfold Engine.deliver
  rcases twin.call? k with ⟨gone, gone'⟩ | ⟨c, c', here, here', same⟩
  · simp only [gone, gone']
    exact twin
  · simp only [here, here', same.waiter]
    have delivered := (twin.amend k (fun c => { c with verdict := some verdict })
      fun _ _ same => { same with verdict := rfl }).note (.resolved k verdict)
    cases c.waiter with
    | none => exact delivered
    | some w => exact delivered.wake w.1 (.refl _ w.2 _)

theorem mark (twin : Twin l e e') (k : CallKey) (stage : Stage) (m : Mark) :
    Twin l (e.mark k stage m) (e'.mark k stage m) := by
  cases stage with
  | fallback => exact twin
  | operation =>
      unfold Engine.mark
      rcases twin.call? k with ⟨gone, gone'⟩ | ⟨c, c', here, here', same⟩
      · simp only [gone, gone']
        exact twin
      · simp only [here, here', same.id]
        exact twin.note _

/-! ### Code that waits to be told -/

/-- Twins find the same task to hand a script to. -/
theorem manual? (twin : Twin l e e') (id : String) : e'.manual? id = e.manual? id := by
  rw [manual?_eq, manual?_eq]
  refine findSome?_eq_of_forall₂ twin.desks ?_
  rintro ⟨n, desk⟩ ⟨n', desk'⟩ ⟨rfl, same⟩
  exact same.manual? _ id

/-- The same code is told how to go on. -/
theorem instruct (twin : Twin l e e') (id : String) {next next' : Script}
    (code : ∀ k stage, e.manual? id = some (k, stage) → Script.Twin l.panics stage next next') :
    Twin l (e.instruct id next).1 (e'.instruct id next').1 ∧
      (e'.instruct id next').2 = (e.instruct id next).2 := by
  unfold Engine.instruct
  rw [twin.manual?]
  cases found : e.manual? id with
  | none => exact ⟨twin, rfl⟩
  | some w => exact ⟨twin.wake w.1 (code w.1 w.2 found), rfl⟩

theorem clearManual (twin : Twin l e e') (k : CallKey) :
    Twin l (e.clearManual k) (e'.clearManual k) := by
  unfold Engine.clearManual
  rcases twin.call? k with ⟨gone, gone'⟩ | ⟨c, c', here, here', same⟩
  · simp only [gone, gone']
    exact twin
  · simp only [here, here', same.id]
    exact (twin.instruct c.id fun _ stage _ => .refl _ stage _).1

/-! ### Code and its fallback -/

/-- A call of code's own is made, or not, alike. -/
theorem playNested (twin : Twin l e e') (k : CallKey) (stage : Stage)
    {spec spec' : CallSpec Script} (same : spec.Twin l.panics spec') :
    Twin l (e.play k stage (.nested spec)).1 (e'.play k stage (.nested spec')).1 ∧
      Progress.Twin l.panics stage (e.play k stage (.nested spec)).2
        (e'.play k stage (.nested spec')).2 := by
  obtain ⟨made, key⟩ := twin.execute same
  simp only [Engine.play]
  revert made key
  rcases e.execute spec with ⟨x, answer⟩
  rcases e'.execute spec' with ⟨x', answer'⟩
  rintro made (rfl : answer' = answer)
  cases answer' with
  | ok inner =>
      refine ⟨made.updateCall inner fun _ _ same => ?_, .waits (.call inner)⟩
      exact { same with waiter := rfl }
  | error error => exact ⟨made.mark k stage _, .failed _⟩

/-- Code goes on alike, unless it fails in the second engine for a panic in the first. -/
theorem play (twin : Twin l e e') (k : CallKey) {stage : Stage} {s s' : Script}
    (code : Script.Twin l.panics stage s s') :
    (∃ message, l.panics stage message ∧ s = .panic message ∧
        s' = .fail (panicFault stage message)) ∨
      Twin l (e.play k stage s).1 (e'.play k stage s').1 ∧
        Progress.Twin l.panics stage (e.play k stage s).2 (e'.play k stage s').2 := by
  cases code with
  | operationPanic replaced =>
      exact .inl ⟨_, replaced, rfl, congrArg Script.fail (panicFault_operation _).symm⟩
  | fallbackPanic replaced =>
      exact .inl ⟨_, replaced, rfl, congrArg Script.fail (panicFault_fallback _).symm⟩
  | succeed => exact .inr ⟨twin.mark k _ _, .succeeded⟩
  | fail fault => exact .inr ⟨twin.mark k _ _, .failed fault⟩
  | panic message => exact .inr ⟨twin.remark _ _, .failed _⟩
  | after next =>
      refine .inr ⟨twin, ?_⟩
      simp only [Engine.play, twin.now]
      exact .waits (.timer _ next)
  | manual => exact .inr ⟨twin.clearManual k, .waits .manual⟩
  | nested work => exact .inr (twin.playNested k stage ⟨rfl, rfl, rfl, work, .none⟩)
  | rescued work fallback =>
      exact .inr (twin.playNested k stage ⟨rfl, rfl, rfl, work, .some fallback⟩)

theorem endRescue (twin : Twin l e e') (k : CallKey) (outcome : Outcome) (took : Duration)
    (verdict : Verdict) :
    Twin l (e.endRescue k outcome took verdict) (e'.endRescue k outcome took verdict) := by
  refine deliver (report ?_ k _ _) k _
  exact twin.updateCall k fun _ _ twins => { twins with rescue := .none }

/-- A fallback goes on alike, and ends with the same fault even if the second engine's fails
for a panic. -/
theorem playRescue (twin : Twin l e e') (k : CallKey) (cause : CallError) (took : Duration)
    {s s' : Script} (code : Script.Twin l.panics .fallback s s') :
    Twin l (e.playRescue k cause took s) (e'.playRescue k cause took s') := by
  rcases twin.play k code with ⟨message, replaced, rfl, rfl⟩ | ⟨played, progress⟩
  · -- The second engine has no mark for a fallback, so its journal lacks the remark alone.
    simp only [Engine.playRescue, Engine.play, Engine.mark]
    refine endRescue ?_ k _ _ _
    have board := twin.board
    refine { twin with board := { board with journal := ?_ } }
    simp only [Engine.note, Engine.remark, Board.note, board.now, panicFault_fallback]
    exact .fallback k replaced board.journal
  · unfold Engine.playRescue
    revert played progress
    rcases e.play k .fallback s with ⟨x, p⟩
    rcases e'.play k .fallback s' with ⟨x', p'⟩
    rintro played progress
    cases progress with
    | succeeded => exact (played.note _).endRescue k _ _ _
    | failed fault => exact (played.note _).endRescue k _ _ _
    | waits same =>
        exact played.updateCall k fun _ _ twins => { twins with rescue := .running _ _ same }

/-- Twins resolve a call alike, with a fallback or without. -/
theorem resolve (twin : Twin l e e') (k : CallKey) (cause : CallError) (took : Duration) :
    Twin l (e.resolve k cause took) (e'.resolve k cause took) := by
  unfold Engine.resolve
  rcases twin.call? k with ⟨gone, gone'⟩ | ⟨c, c', here, here', same⟩
  · simp only [gone, gone']
    exact twin
  · simp only [here, here', same.id]
    have rescue := same.rescue
    generalize c.rescue = r at rescue
    generalize c'.rescue = r' at rescue
    cases rescue with
    | unused code =>
        refine Twin.playRescue (Twin.note ?_ _) k _ _ code
        exact twin.updateCall k fun _ _ twins => { twins with rescue := .none }
    | none | running => exact twin.deliver k _

/-! ### The worker -/

theorem dismiss (twin : Twin l e e') (k : CallKey) : Twin l (e.dismiss k) (e'.dismiss k) := by
  unfold Engine.dismiss
  rcases twin.call? k with ⟨gone, gone'⟩ | ⟨c, c', here, here', same⟩
  · simp only [gone, gone']
    exact twin
  · simp only [here, here', same.watch]
    cases c.watch with
    | armed due =>
        refine poll_next ?_ k _
        exact twin.updateCall k fun _ _ twins => { twins with work := .done, watch := rfl }
    | queued | expired | dismissed | done =>
        exact twin.updateCall k fun _ _ twins => { twins with work := .done }

/-- Twins claim a call alike, and stay twins. -/
theorem claim (twin : Twin l e e') (k : CallKey) :
    Twin l (e.claim k).1 (e'.claim k).1 ∧ (e'.claim k).2 = (e.claim k).2 := by
  unfold Engine.claim
  rcases twin.call? k with ⟨gone, gone'⟩ | ⟨c, c', here, here', same⟩
  · simp only [gone, gone']
    exact ⟨twin, trivial⟩
  · simp only [here, here', same.claimed]
    split
    · exact ⟨twin, rfl⟩
    · exact ⟨twin.updateCall k fun _ _ twins => { twins with claimed := rfl }, rfl⟩

/-- Twins turn a call away alike. -/
theorem turnAway (twin : Twin l e e') (k : CallKey) (r : Remark) (outcome : Outcome)
    (cause : CallError) :
    Twin l (e.turnAway k r outcome cause) (e'.turnAway k r outcome cause) := by
  obtain ⟨claimed, first⟩ := (twin.dismiss k).claim k
  unfold Engine.turnAway
  revert claimed first
  rcases (e.dismiss k).claim k with ⟨x, won⟩
  rcases (e'.dismiss k).claim k with ⟨x', won'⟩
  rintro claimed (rfl : won' = won)
  cases won' with
  | false => exact claimed
  | true => exact ((claimed.remark _ r).report k _ _).resolve k _ _

/-- An operation ends alike, if what is noted of its end keeps the engines twins. -/
theorem endOperation {fault : Option Fault}
    (noted : Twin l (e.note (.ended k .operation fault)) (e'.note (.ended k .operation fault)))
    (took : Duration) :
    Twin l (e.endOperation k took fault) (e'.endOperation k took fault) := by
  obtain ⟨claimed, first⟩ := (noted.dismiss k).claim k
  unfold Engine.endOperation
  revert claimed first
  rcases ((e.note (.ended k .operation fault)).dismiss k).claim k with ⟨x, won⟩
  rcases ((e'.note (.ended k .operation fault)).dismiss k).claim k with ⟨x', won'⟩
  rintro claimed (rfl : won' = won)
  cases won' <;> cases fault
  case true.none => exact (claimed.report k _ _).deliver k _
  case true.some fault => exact (claimed.report k _ _).resolve k _ _
  case false.none => exact claimed
  case false.some fault => exact claimed.remark _ _

/-- An operation goes on alike, and ends with the same fault even if the second engine's
fails for a panic. -/
theorem playOperation (twin : Twin l e e') {c : Call} (here : e.call? k = some c) (since : Instant)
    {s s' : Script} (code : Script.Twin l.panics .operation s s') :
    Twin l (e.playOperation k since s) (e'.playOperation k since s') := by
  rcases twin.play k code with ⟨message, replaced, rfl, rfl⟩ | ⟨played, progress⟩
  · -- The mark of the second engine's operation stands where the first has the remark.
    rcases twin.call? k with ⟨gone, _⟩ | ⟨_, c', _, here', _⟩
    · rw [gone] at here
      cases here
    · have now : (e'.note (.operation k c'.id .failed)).now =
          (e.remark k.command (.panicCaught .operation (panicMessage message))).now := twin.now
      simp only [Engine.playOperation, Engine.play, Engine.mark, here', now]
      refine endOperation ?_ _
      have board := twin.board
      refine { twin with board := { board with journal := ?_ } }
      simp only [Engine.note, Engine.remark, Board.note, board.now, panicFault_operation]
      exact .operation k c'.id replaced board.journal
  · unfold Engine.playOperation
    revert played progress
    rcases e.play k .operation s with ⟨x, p⟩
    rcases e'.play k .operation s' with ⟨x', p'⟩
    rintro played progress
    cases progress with
    | succeeded =>
        simp only [played.now]
        exact endOperation (played.note _) _
    | failed fault =>
        simp only [played.now]
        exact endOperation (played.note _) _
    | waits same =>
        exact played.updateCall k fun _ _ twins => { twins with work := .running since same }

theorem ask (twin : Twin l e e') (k : CallKey) :
    Twin l (e.ask k).1 (e'.ask k).1 ∧ (e'.ask k).2 = (e.ask k).2 := by
  obtain ⟨asked, same⟩ := twin.board.allow (Board.ringsAlike_bell _) (some k) k.command
  exact ⟨{ twin with board := asked }, same⟩

/-- An operation starts alike once its call has a ticket. -/
theorem embark (twin : Twin l e e') {c : Call} (here : e.call? k = some c) (pool : Pool)
    (since : Instant) {s s' : Script} (code : Script.Twin l.panics .operation s s') :
    Twin l
      ((((e.updateDesk k.command fun desk => { desk with pool := pool }).updateCall k
        fun c => { c with slot := .holding }).mark k .operation .started).playOperation k since s)
      ((((e'.updateDesk k.command fun desk => { desk with pool := pool }).updateCall k
        fun c => { c with slot := .holding }).mark k .operation .started).playOperation k since
          s') := by
  have seated : (e.updateDesk k.command fun desk => { desk with pool := pool }).call? k =
      some c := by
    rw [call?_updateDesk_of_calls e k.command (by simp), here]
  have paid : Twin l (e.updateDesk k.command fun desk => { desk with pool := pool })
      (e'.updateDesk k.command fun desk => { desk with pool := pool }) :=
    twin.updateDesk _ fun _ _ twins => { twins with pool := rfl }
  have holding := paid.amend k (fun c => { c with slot := .holding })
    fun _ _ twins => { twins with slot := rfl }
  refine (holding.mark k _ _).playOperation (c := { c with slot := .holding }) ?_ _ code
  rw [call?_mark, call?_updateCall_self, seated, Option.map_some]

/-- A worker goes on after its question in twins alike. -/
theorem enter (twin : Twin l e e') (k : CallKey) (answer : Bool) {s s' : Script}
    (code : Script.Twin l.panics .operation s s') :
    Twin l (e.enter k answer s) (e'.enter k answer s') := by
  unfold Engine.enter
  cases answer with
  | false => exact twin.turnAway k _ _ _
  | true =>
      simp only [if_true]
      rcases twin.call? k with ⟨gone, gone'⟩ | ⟨c, c', here, here', same⟩
      · simp only [gone, gone']
        exact twin
      · rcases twin.desks.get? k.command with ⟨none_, none_'⟩ | ⟨desk, desk', found, found', twins⟩
        · simp only [here, here', none_, none_']
          exact twin
        · simp only [here, here', found, found', same.slot, twins.pool, twin.now]
          cases c.slot with
          | shut => exact twin.dismiss k
          | vacant | holding =>
              cases desk.pool.acquire? with
              | none => exact twin.turnAway k _ _ _
              | some pool => exact twin.embark here pool _ code

theorem start (twin : Twin l e e') (k : CallKey) {s s' : Script}
    (code : Script.Twin l.panics .operation s s') : Twin l (e.start k s) (e'.start k s') := by
  unfold Engine.start
  rcases twin.call? k with ⟨gone, gone'⟩ | ⟨c, c', here, here', same⟩
  · simp only [gone, gone']
    exact twin
  · simp only [here, here', same.claimed]
    split
    · exact twin.dismiss k
    · obtain ⟨asked, answer⟩ := twin.ask k
      simp only [answer]
      exact asked.enter k _ code

/-! ### The watch -/

theorem vacate (twin : Twin l e e') (k : CallKey) : Twin l (e.vacate k) (e'.vacate k) := by
  unfold Engine.vacate
  rcases twin.call? k with ⟨gone, gone'⟩ | ⟨c, c', here, here', same⟩
  · simp only [gone, gone']
    exact twin
  · simp only [here, here', same.slot]
    have shut := twin.amend k (fun c => { c with slot := .shut, watch := .done })
      fun _ _ twins => { twins with slot := rfl, watch := rfl }
    cases c.slot with
    | holding =>
        exact shut.updateDesk k.command fun _ _ twins => { twins with pool := by rw [twins.pool] }
    | vacant | shut => exact shut

/-- The time limit of a command in use is the same in both. -/
theorem timeout (twin : Twin l e e') (n : Name) :
    (e'.desks.get? n).map (·.settings.timeout) = (e.desks.get? n).map (·.settings.timeout) := by
  rcases twin.desks.get? n with ⟨gone, gone'⟩ | ⟨_, _, found, found', twins⟩
  · rw [gone, gone']
  · simp only [found, found', Option.map_some, twins.settings]

theorem expire (twin : Twin l e e') (k : CallKey) : Twin l (e.expire k) (e'.expire k) := by
  obtain ⟨claimed, first⟩ := (twin.vacate k).claim k
  unfold Engine.expire
  revert claimed first
  rcases (e.vacate k).claim k with ⟨x, won⟩
  rcases (e'.vacate k).claim k with ⟨x', won'⟩
  rintro claimed (rfl : won' = won)
  cases won' with
  | false => exact claimed
  | true =>
      simp only [claimed.timeout]
      exact ((claimed.remark _ _).report k _ _).resolve k _ _

/-- The watch of a call takes the same turn in twins. -/
theorem pollWatch (twin : Twin l e e') (k : CallKey) :
    Twin l (e.pollWatch k) (e'.pollWatch k) := by
  unfold Engine.pollWatch
  rcases twin.call? k with ⟨gone, gone'⟩ | ⟨c, c', here, here', same⟩
  · simp only [gone, gone']
    exact twin
  · rcases twin.desks.get? k.command with ⟨none_, none_'⟩ | ⟨desk, desk', found, found', twins⟩
    · simp only [here, here', none_, none_']
      exact twin
    · simp only [here, here', found, found', same.watch, same.isWorkDone, twins.settings, twin.now]
      cases c.watch with
      | queued =>
          simp only
          split
          · exact twin.vacate k
          · exact twin.updateCall k fun _ _ twins => { twins with watch := rfl }
      | dismissed => exact twin.vacate k
      | expired => exact twin.expire k
      | armed due | done => exact twin

/-! ### Turns -/

/-- The code of a call takes the same turn in twins. -/
theorem pollCode (twin : Twin l e e') (k : CallKey) (stage : Stage) :
    Twin l (e.pollCode k stage) (e'.pollCode k stage) := by
  unfold Engine.pollCode
  rcases twin.call? k with ⟨gone, gone'⟩ | ⟨c, c', here, here', same⟩
  · simp only [gone, gone']
    exact twin
  · simp only [here, here']
    have work := same.work
    have rescue := same.rescue
    generalize c.work = w at work
    generalize c'.work = w' at work
    generalize c.rescue = r at rescue
    generalize c'.rescue = r' at rescue
    cases stage with
    | operation =>
        cases work with
        | queued code => exact twin.start k code
        | running since wait =>
            cases wait with
            | turn code => exact twin.playOperation here since code
            | timer | manual | call => exact twin
        | asked | done => exact twin
    | fallback =>
        cases rescue with
        | running cause took wait =>
            cases wait with
            | turn code => cases work <;> exact twin.playRescue k cause took code
            | timer | manual | call => cases work <;> exact twin
        | none | unused => cases work <;> exact twin

/-- A turn of a task of a call does the same in both engines. -/
theorem poll (twin : Twin l e e') (k : CallKey) (p : Part) :
    Twin l (e.take (.poll k p)) (e'.take (.poll k p)) := by
  cases p with
  | code stage => exact twin.pollCode k stage
  | watch => exact twin.pollWatch k

end Engine.Twin

end Bulwark
