import Bulwark.Proofs.Parted

/-!
Turns keep to their side.

* `Engine.Follows.instruct`: code that is told how to go on is on the side of the id
  under which it waits.
* `Engine.Follows.play`: code keeps to its side, whatever it does.
* `Engine.Follows.take`: so does every turn.
* `Engine.Parted.within_take`, `Engine.Parted.within_take_of_other`: so a turn of a
  command that is kept is the same turn of the restricted engine, and any other turn
  leaves no trace there.
-/

namespace Bulwark

/-- The code of a command that waits to be told how to go on, under the id of its call. -/
def Desk.manual? (command : Name) (desk : Desk) (id : String) : Option (CallKey × Stage) :=
  desk.calls.zipIdx.findSome? fun (c, number) =>
    if c.id = id then
      [Stage.operation, Stage.fallback].findSome? fun stage =>
        if c.isManual stage then some (⟨command, number⟩, stage) else none
    else none

/-- Code that waits to be told is found under the id of its call. -/
theorem Desk.mem_of_manual? {n : Name} {desk : Desk} {id : String} {w : CallKey × Stage}
    (found : desk.manual? n id = some w) : w.1.command = n ∧ ∃ c ∈ desk.calls, c.id = id := by
  obtain ⟨⟨c, number⟩, listed, waits⟩ := List.exists_of_findSome?_eq_some found
  simp only at waits
  split at waits
  · next same =>
      obtain ⟨stage, _, manual⟩ := List.exists_of_findSome?_eq_some waits
      split at manual
      · obtain rfl := Option.some.inj manual
        have here := List.mk_mem_zipIdx_iff_getElem?.mp listed
        exact ⟨rfl, c, List.mem_of_getElem? here, same⟩
      · cases manual
  · cases waits

namespace Engine

variable {s : Scope} {seen : List String} {side : Bool} {origin x e : Engine} {n : Name}
  {k : CallKey}

/-! ### Code that waits to be told -/

/-- What is not kept and finds nothing may be left out of a search. -/
theorem findSome?_filter {α β : Type} {p : α → Bool} {g : α → Option β} {l : List α}
    (finds : ∀ a ∈ l, p a = false → g a = none) : (l.filter p).findSome? g = l.findSome? g := by
  induction l with
  | nil => rfl
  | cons a rest ih =>
      have later := ih fun b member => finds b (List.mem_cons_of_mem _ member)
      by_cases kept : p a = true
      · rw [List.filter_cons_of_pos kept, List.findSome?_cons, List.findSome?_cons, later]
      · have nothing := finds a List.mem_cons_self (eq_false_of_ne_true kept)
        rw [List.filter_cons_of_neg kept, List.findSome?_cons, nothing, later]

/-- Code that waits under an id is looked for command by command. -/
theorem manual?_eq (e : Engine) (id : String) :
    e.manual? id = e.desks.findSome? fun entry => entry.2.manual? entry.1 id := rfl

/-- Code that waits under an id is on the side of that id. -/
theorem Parted.side_of_manual? (parted : e.Parted s seen) {id : String}
    (known : s.knows side id = true) {entry : Name × Desk} (member : entry ∈ e.desks)
    {w : CallKey × Stage} (found : entry.2.manual? entry.1 id = some w) :
    s.commands w.1.command = side := by
  obtain ⟨same, c, listed, rfl⟩ := Desk.mem_of_manual? found
  rw [same]
  exact Scope.side_of_knows (parted.calls entry member c listed).id known

namespace Follows

/-- A task of a side that scripts are handed to by hand belongs to a command of that side. -/
theorem command_of_manual? (follows : Follows s seen side origin x e) {id : String} {stage : Stage}
    (known : s.knows side id = true) (found : e.manual? id = some (k, stage)) :
    s.commands k.command = side := by
  rw [manual?_eq] at found
  obtain ⟨entry, member, there⟩ := List.exists_of_findSome?_eq_some found
  exact follows.parted.side_of_manual? known member there

/-- A side finds the same task to hand a script to as the whole. -/
theorem manual? (follows : Follows s seen side origin x e) {id : String}
    (known : s.knows side id = true) : x.manual? id = e.manual? id := by
  rw [follows.view]
  cases side with
  | false => rfl
  | true =>
      rw [manual?_eq, manual?_eq]
      refine findSome?_filter fun entry member out => ?_
      refine Option.eq_none_iff_forall_ne_some.mpr fun w found => ?_
      have kept := follows.parted.side_of_manual? known member found
      rw [(Desk.mem_of_manual? found).1, out] at kept
      cases kept

/-! ### Reporting, waking and delivering -/

/-- A report of a call of a side is followed. -/
theorem report (follows : Follows s seen side origin x e) (on : s.commands k.command = side)
    (outcome : Outcome) (took : Duration) :
    Follows s seen side origin (x.report k outcome took) (e.report k outcome took) := by
  unfold Engine.report
  rw [follows.call? on]
  split
  · exact follows
  · exact follows.setBoard (follows.board.report on _ _)

/-- A task of a side that wakes is followed. -/
theorem wake (follows : Follows s seen side origin x e) (on : s.commands k.command = side)
    (stage : Stage) {next : Script} (fits : s.Fits side next.calls) :
    Follows s seen side origin (x.wake k stage next) (e.wake k stage next) :=
  (follows.updateCall on fun _ c =>
    c.setWait stage (show s.Fits side (Wait.turn next).calls from fits)).poll on _

/-- A verdict on a call of a side is followed. -/
theorem deliver (follows : Follows s seen side origin x e) (on : s.commands k.command = side)
    (verdict : Verdict) :
    Follows s seen side origin (x.deliver k verdict) (e.deliver k verdict) := by
  unfold Engine.deliver
  rw [follows.call? on]
  cases here : e.call? k with
  | none => exact follows
  | some c =>
      have delivered := (follows.updateCall on (f := fun c => { c with verdict := some verdict })
        fun _ fits => { fits with }).note (y := .resolved k verdict) on
      cases waits : c.waiter with
      | none =>
          simp only [waits]
          exact delivered
      | some w =>
          simp only [waits]
          refine delivered.wake ((follows.fits on here).waiter w waits) w.2 ?_
          rw [Script.calls_ofVerdict]
          exact .nil

theorem mark (follows : Follows s seen side origin x e) (on : s.commands k.command = side)
    (stage : Stage) (m : Mark) :
    Follows s seen side origin (x.mark k stage m) (e.mark k stage m) := by
  unfold Engine.mark
  rw [follows.call? on]
  split
  · exact follows.note on
  · exact follows

/-- Telling code how to go on keeps to the side of the id. -/
theorem instruct (follows : Follows s seen side origin x e) {id : String}
    (known : s.knows side id = true) {next : Script} (fits : s.Fits side next.calls) :
    Follows s seen side origin (x.instruct id next).1 (e.instruct id next).1 ∧
      (x.instruct id next).2 = (e.instruct id next).2 := by
  unfold Engine.instruct
  rw [follows.manual? known]
  cases found : e.manual? id with
  | none => exact ⟨follows, rfl⟩
  | some w => exact ⟨follows.wake (follows.command_of_manual? known found) w.2 fits, rfl⟩

theorem clearManual (follows : Follows s seen side origin x e)
    (on : s.commands k.command = side) :
    Follows s seen side origin (x.clearManual k) (e.clearManual k) := by
  unfold Engine.clearManual
  rw [follows.call? on]
  cases here : e.call? k with
  | none => exact follows
  | some c => exact (follows.instruct (follows.fits on here).id .nil).1

/-! ### Code and its fallback -/

/-- Code keeps to its side, and goes on alike. -/
theorem play (follows : Follows s seen side origin x e) (on : s.commands k.command = side)
    (stage : Stage) {script : Script} (fits : s.Fits side script.calls) :
    Follows s seen side origin (x.play k stage script).1 (e.play k stage script).1 ∧
      (x.play k stage script).2 = (e.play k stage script).2 ∧
        ∀ wait, (e.play k stage script).2 = .waits wait → s.Fits side wait.calls := by
  cases script with
  | succeed => exact ⟨follows.mark on _ _, rfl, by simp [Engine.play]⟩
  | fail fault => exact ⟨follows.mark on _ _, rfl, by simp [Engine.play]⟩
  | panic message => exact ⟨follows.remark on _, rfl, by simp [Engine.play]⟩
  | after d next =>
      refine ⟨follows, by simp only [Engine.play, follows.now], ?_⟩
      rintro _ ⟨⟩
      exact fits
  | manual =>
      refine ⟨follows.clearManual on, rfl, ?_⟩
      rintro _ ⟨⟩
      exact .nil
  | nested spec =>
      rw [Script.calls_nested] at fits
      obtain ⟨made, same, owner⟩ := follows.execute fits
      have inner : s.commands spec.command = side := (fits _ List.mem_cons_self).2
      simp only [Engine.play]
      -- Both made the same call or met the same error, so the cases go together.
      revert made same owner
      rcases x.execute spec with ⟨x', answer⟩
      rcases e.execute spec with ⟨e', answer'⟩
      rintro made rfl owner
      cases answer with
      | ok i =>
          refine ⟨made.updateCall ?_ ?_, rfl, ?_⟩
          · rw [owner i rfl]
            exact inner
          · intro c fits
            refine { fits with waiter := ?_ }
            rintro _ ⟨⟩
            exact on
          · rintro _ ⟨⟩
            exact .nil
      | error error => exact ⟨made.mark on _ _, rfl, by simp⟩

theorem endRescue (follows : Follows s seen side origin x e) (on : s.commands k.command = side)
    (outcome : Outcome) (took : Duration) (verdict : Verdict) :
    Follows s seen side origin (x.endRescue k outcome took verdict)
      (e.endRescue k outcome took verdict) :=
  (((follows.updateCall on (f := fun c => { c with rescue := .none })
    fun _ fits => { fits with rescue := .nil }).report on _ _).deliver on _)

/-- The fallback of a call of a side is followed. -/
theorem playRescue (follows : Follows s seen side origin x e) (on : s.commands k.command = side)
    (cause : CallError) (took : Duration) {script : Script} (fits : s.Fits side script.calls) :
    Follows s seen side origin (x.playRescue k cause took script)
      (e.playRescue k cause took script) := by
  obtain ⟨played, same, waits⟩ := follows.play on .fallback fits
  unfold Engine.playRescue
  revert played same waits
  rcases x.play k .fallback script with ⟨x', progress⟩
  rcases e.play k .fallback script with ⟨e', progress'⟩
  rintro played rfl waits
  cases progress with
  | waits wait => exact played.updateCall on fun _ fits => { fits with rescue := waits wait rfl }
  | succeeded => exact (played.note (y := .ended k .fallback none) on).endRescue on _ _ _
  | failed fault => exact (played.note (y := .ended k .fallback (some fault)) on).endRescue on _ _ _

/-- A call of a side that is resolved is followed, with a fallback or without. -/
theorem resolve (follows : Follows s seen side origin x e) (on : s.commands k.command = side)
    (cause : CallError) (took : Duration) :
    Follows s seen side origin (x.resolve k cause took) (e.resolve k cause took) := by
  unfold Engine.resolve
  rw [follows.call? on]
  cases here : e.call? k with
  | none => exact follows
  | some c =>
      cases rescue : c.rescue with
      | unused fallback =>
          simp only [rescue]
          have fits := (follows.fits on here).rescue
          rw [rescue] at fits
          refine ((follows.updateCall on ?_).note ?_).playRescue on _ _ fits
          · exact fun _ fits => { fits with rescue := .nil }
          · exact on
      | none =>
          simp only [rescue]
          exact follows.deliver on _
      | running cause' took' wait =>
          simp only [rescue]
          exact follows.deliver on _

/-! ### The worker -/

theorem dismiss (follows : Follows s seen side origin x e) (on : s.commands k.command = side) :
    Follows s seen side origin (x.dismiss k) (e.dismiss k) := by
  unfold Engine.dismiss
  rw [follows.call? on]
  split
  · exact follows
  · split
    · exact (follows.updateCall on
        (f := fun c => { c with work := .done, watch := .dismissed })
        fun _ fits => { fits with work := .nil }).poll on _
    · exact follows.updateCall on (f := fun c => { c with work := .done })
        fun _ fits => { fits with work := .nil }

/-- A call of a side is claimed by whoever follows exactly when it is claimed. -/
theorem claim (follows : Follows s seen side origin x e) (on : s.commands k.command = side) :
    Follows s seen side origin (x.claim k).1 (e.claim k).1 ∧ (x.claim k).2 = (e.claim k).2 := by
  unfold Engine.claim
  rw [follows.call? on]
  split
  · exact ⟨follows, rfl⟩
  · split
    · exact ⟨follows, rfl⟩
    · exact ⟨follows.updateCall on fun _ fits => { fits with }, rfl⟩

theorem turnAway (follows : Follows s seen side origin x e) (on : s.commands k.command = side)
    (r : Remark) (outcome : Outcome) (cause : CallError) :
    Follows s seen side origin (x.turnAway k r outcome cause) (e.turnAway k r outcome cause) := by
  obtain ⟨claimed, same⟩ := (follows.dismiss on).claim on
  unfold Engine.turnAway
  revert claimed same
  rcases (x.dismiss k).claim k with ⟨x', first⟩
  rcases (e.dismiss k).claim k with ⟨e', first'⟩
  rintro claimed rfl
  cases first with
  | false => exact claimed
  | true => exact ((claimed.remark on _).report on _ _).resolve on _ _

/-- The end of an operation of a side is followed. -/
theorem endOperation (follows : Follows s seen side origin x e) (on : s.commands k.command = side)
    (took : Duration) (fault : Option Fault) :
    Follows s seen side origin (x.endOperation k took fault) (e.endOperation k took fault) := by
  obtain ⟨claimed, same⟩ :=
    ((follows.note (y := .ended k .operation fault) on).dismiss on).claim on
  unfold Engine.endOperation
  revert claimed same
  rcases ((x.note (.ended k .operation fault)).dismiss k).claim k with ⟨x', first⟩
  rcases ((e.note (.ended k .operation fault)).dismiss k).claim k with ⟨e', first'⟩
  rintro claimed rfl
  cases first with
  | false =>
      cases fault with
      | none => exact claimed
      | some fault => exact claimed.remark on _
  | true =>
      cases fault with
      | none => exact (claimed.report on _ _).deliver on _
      | some fault => exact (claimed.report on _ _).resolve on _ _

/-- An operation of a side is followed while it plays. -/
theorem playOperation (follows : Follows s seen side origin x e) (on : s.commands k.command = side)
    (since : Instant) {script : Script} (fits : s.Fits side script.calls) :
    Follows s seen side origin (x.playOperation k since script)
      (e.playOperation k since script) := by
  obtain ⟨played, same, waits⟩ := follows.play on .operation fits
  unfold Engine.playOperation
  revert played same waits
  rcases x.play k .operation script with ⟨x', progress⟩
  rcases e.play k .operation script with ⟨e', progress'⟩
  rintro played rfl waits
  cases progress with
  | waits wait => exact played.updateCall on fun _ fits => { fits with work := waits wait rfl }
  | succeeded =>
      simp only [played.now]
      exact played.endOperation on _ _
  | failed fault =>
      simp only [played.now]
      exact played.endOperation on _ _

/-- A circuit of a side gives the same answer to whoever follows. -/
theorem ask (follows : Follows s seen side origin x e) (on : s.commands k.command = side) :
    Follows s seen side origin (x.ask k).1 (e.ask k).1 ∧ (x.ask k).2 = (e.ask k).2 := by
  obtain ⟨asked, same⟩ := follows.board.allow on (some k)
  exact ⟨follows.setBoard asked, same⟩

theorem enter (follows : Follows s seen side origin x e) (on : s.commands k.command = side)
    (answer : Bool) {operation : Script} (fits : s.Fits side operation.calls) :
    Follows s seen side origin (x.enter k answer operation) (e.enter k answer operation) := by
  unfold Engine.enter
  rw [follows.call? on, follows.desk on, follows.now]
  split
  · split
    · split
      · exact follows.dismiss on
      · split
        · exact follows.turnAway on _ _ _
        · refine (((follows.updateDesk on ?_).updateCall on ?_).mark on _ _).playOperation on _ fits
          · exact fun _ => id
          · exact fun _ fits => { fits with }
    · exact follows
  · exact follows.turnAway on _ _ _

/-- Calls that the worker has not started stay on their side. -/
theorem start (follows : Follows s seen side origin x e) (on : s.commands k.command = side)
    {operation : Script} (fits : s.Fits side operation.calls) :
    Follows s seen side origin (x.start k operation) (e.start k operation) := by
  unfold Engine.start
  rw [follows.call? on]
  split
  · exact follows
  · split
    · exact follows.dismiss on
    · obtain ⟨asked, same⟩ := follows.ask on
      simp only [same]
      exact asked.enter on _ fits

/-! ### The watch -/

theorem vacate (follows : Follows s seen side origin x e) (on : s.commands k.command = side) :
    Follows s seen side origin (x.vacate k) (e.vacate k) := by
  unfold Engine.vacate
  rw [follows.call? on]
  split
  · exact follows
  · have shut := follows.updateCall on (f := fun c => { c with slot := .shut, watch := .done })
      fun _ fits => { fits with }
    dsimp only
    split
    · exact shut.updateDesk on fun _ => id
    · exact shut

/-- A call of a side whose time is up is followed. -/
theorem expire (follows : Follows s seen side origin x e) (on : s.commands k.command = side) :
    Follows s seen side origin (x.expire k) (e.expire k) := by
  obtain ⟨claimed, same⟩ := (follows.vacate on).claim on
  unfold Engine.expire
  revert claimed same
  rcases (x.vacate k).claim k with ⟨x', first⟩
  rcases (e.vacate k).claim k with ⟨e', first'⟩
  rintro claimed rfl
  cases first with
  | false => exact claimed
  | true =>
      simp only [claimed.desk on]
      exact ((claimed.remark on _).report on _ _).resolve on _ _

/-- The turn of a watch of a side is followed. -/
theorem pollWatch (follows : Follows s seen side origin x e) (on : s.commands k.command = side) :
    Follows s seen side origin (x.pollWatch k) (e.pollWatch k) := by
  unfold Engine.pollWatch
  rw [follows.call? on, follows.desk on, follows.now]
  split
  · split
    · split
      · exact follows.vacate on
      · exact follows.updateCall on fun _ fits => { fits with }
    · exact follows.vacate on
    · exact follows.expire on
    · exact follows
  · exact follows

/-! ### Turns -/

/-- The turn of an operation or a fallback of a side is followed. -/
theorem pollCode (follows : Follows s seen side origin x e) (on : s.commands k.command = side)
    (stage : Stage) : Follows s seen side origin (x.pollCode k stage) (e.pollCode k stage) := by
  unfold Engine.pollCode
  rw [follows.call? on]
  cases here : e.call? k with
  | none => exact follows
  | some c =>
      have fits := follows.fits on here
      dsimp only
      split
      · next operation work =>
          have queued := fits.work
          rw [work] at queued
          exact follows.start on queued
      · next since next work =>
          have waiting := fits.work
          rw [work] at waiting
          exact follows.playOperation on _ waiting
      · next cause took next rescue =>
          have waiting := fits.rescue
          rw [rescue] at waiting
          exact follows.playRescue on _ _ waiting
      · exact follows

/-! ### Handles -/

theorem putHandle (follows : Follows s seen side origin x e) {id : String} {h : Handle}
    (on : s.handles id = side) (known : id ∈ seen)
    (source : ∀ i, h.source = .call i → s.commands i.command = side) :
    Follows s seen side origin { x with handles := x.handles.put id h }
      { e with handles := e.handles.put id h } := by
  refine follows.of_change (f := fun e => { e with handles := e.handles.put id h })
    { follows.parted with handles := ?_ } ?_ ?_
  · intro entry member
    rcases Roster.mem_put member with rfl | old
    · exact ⟨known, fun i here => (source i here).trans on.symm⟩
    · exact follows.parted.handles entry old
  · intro kept
    simp [within, Roster.only_put _ (on.trans kept)]
  · intro other
    simp [within, Roster.only_put_of_not _ (on.trans other)]

theorem eraseHandle (follows : Follows s seen side origin x e) {id : String}
    (on : s.handles id = side) :
    Follows s seen side origin { x with handles := x.handles.erase id }
      { e with handles := e.handles.erase id } := by
  refine follows.of_change (f := fun e => { e with handles := e.handles.erase id })
    { follows.parted with handles := ?_ } ?_ ?_
  · exact fun entry member => follows.parted.handles entry (List.mem_filter.mp member).1
  · intro _
    simp [within, Roster.only_erase]
  · intro other
    simp [within, Roster.only_erase_of_not _ (on.trans other)]

/-- Where the verdict of a call will be found is a matter of its command. -/
theorem command_of_source {n : Name} {answer : Except CallError CallKey}
    (owner : ∀ i, answer = .ok i → i.command = n) {i : CallKey}
    (here : (match answer with
      | .ok j => Source.call j
      | .error error => Source.failed error) = .call i) : i.command = n := by
  cases answer with
  | error error => cases here
  | ok j =>
      obtain rfl := Source.call.inj here
      exact owner j rfl

/-- Where a call that was made, or not, leaves its verdict. -/
theorem launch (follows : Follows s seen side origin x e) {spec : CallSpec Script}
    (fits : s.Fits side spec.calls) (known : spec.id ∈ seen) :
    Follows s seen side origin (x.launch spec) (e.launch spec) := by
  obtain ⟨id, on⟩ := fits _ List.mem_cons_self
  obtain ⟨made, same, owner⟩ := follows.execute fits
  unfold Engine.launch
  revert made same owner
  rcases x.execute spec with ⟨x', answer⟩
  rcases e.execute spec with ⟨e', answer'⟩
  rintro made rfl owner
  refine made.putHandle (Scope.handles_of_knows id) known fun i here => ?_
  rw [command_of_source owner here]
  exact on

/-- A call that starts on a side is followed. -/
theorem startCall (follows : Follows s seen side origin x e) {spec : CallSpec Script}
    (fits : s.Fits side spec.calls) (known : spec.id ∈ seen) :
    Follows s seen side origin (x.startCall spec) (e.startCall spec) := by
  obtain ⟨id, on⟩ := fits _ List.mem_cons_self
  unfold Engine.startCall
  split
  · refine (follows.putHandle (Scope.handles_of_knows id) known (by simp)).enqueue on ?_
    rintro _ ⟨⟩
    exact ⟨fits, known⟩
  · obtain ⟨made, same, owner⟩ := follows.execute fits
    revert made same owner
    rcases x.execute spec with ⟨x', answer⟩
    rcases e.execute spec with ⟨e', answer'⟩
    rintro made rfl owner
    refine made.putHandle (Scope.handles_of_knows id) known fun i here => ?_
    rw [command_of_source owner here]
    exact on

/-- Every turn keeps to the side of its command. -/
theorem take (follows : Follows s seen side origin x e) {t : Turn}
    (on : s.commands t.command = side)
    (launch : ∀ spec, t = .launch spec → s.Fits side spec.calls ∧ spec.id ∈ seen) :
    Follows s seen side origin (x.take t) (e.take t) := by
  rcases t with spec | ⟨i, stage | _⟩
  · obtain ⟨fits, known⟩ := launch spec rfl
    exact follows.launch fits known
  · exact follows.pollCode on stage
  · exact follows.pollWatch on

end Follows

section Take

variable {t : Turn} {rest : List Turn}

/-- The next turn is taken from the queue. -/
theorem Parted.taken (parted : e.Parted s seen) (queued : e.queue = t :: rest) :
    ({ e with queue := rest } : Engine).Parted s seen :=
  { parted with
    queue := fun spec member => parted.queue spec (by rw [queued]; exact .tail _ member) }

/-- On the side of a turn, the engine without the other side follows when it is taken. -/
theorem Parted.follows_take (parted : e.Parted s seen) (queued : e.queue = t :: rest)
    (on : s.commands t.command = side) :
    Follows s seen side (({ e with queue := rest } : Engine).within s)
      ((if side then ({ e with queue := rest } : Engine).within s
        else { e with queue := rest }).take t)
      (({ e with queue := rest } : Engine).take t) := by
  refine ((parted.taken queued).follows side).take on ?_
  rintro spec rfl
  obtain rfl : s.commands spec.command = side := on
  exact parted.queue spec (by rw [queued]; exact .head _)

/-- A turn leaves an engine parted. -/
theorem Parted.take (parted : e.Parted s seen) (queued : e.queue = t :: rest) :
    (({ e with queue := rest } : Engine).take t).Parted s seen :=
  (parted.follows_take queued rfl).parted

/-- A turn of a command that is kept is taken by the restricted engine. -/
theorem Parted.within_take (parted : e.Parted s seen) (queued : e.queue = t :: rest)
    (kept : s.commands t.command = true) :
    (({ e with queue := rest } : Engine).take t).within s =
      (({ e with queue := rest } : Engine).within s).take t :=
  (parted.follows_take queued kept).view.symm

/-- Any other turn leaves no trace in the restricted engine. -/
theorem Parted.within_take_of_other (parted : e.Parted s seen) (queued : e.queue = t :: rest)
    (other : s.commands t.command = false) :
    (({ e with queue := rest } : Engine).take t).within s =
      ({ e with queue := rest } : Engine).within s :=
  (parted.follows_take queued other).still rfl

end Take

end Engine

end Bulwark
