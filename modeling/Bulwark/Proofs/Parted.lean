import Bulwark.Proofs.Sides
import Bulwark.Schedule

/-!
An engine in two parts.

Commands are told apart into those that are kept and the others, and with them the
ids of calls and the tickets taken by hand (`Scope`). An engine is parted if nothing
reaches from one part into the other: code makes no calls on the other side, no
verdict is awaited there, and no handle or ticket is of the other side
(`Engine.Parted`). Such an engine can be restricted to the commands that are kept
(`Engine.within`).

What is done on one side either happens in the same way in the restricted engine, or
leaves no trace there. Both are told by one relation (`Engine.Follows`). Here it is
carried through the small changes of an engine.

* `Engine.Follows.updateCall`, `Engine.Follows.enqueue`: changes of calls and of the
  queue.
* `Engine.Follows.execute`: making a call.
* `Engine.Follows.instruct`: telling code how to go on.
-/

namespace Bulwark

/-! ### Calls that code makes -/

/-- The calls that code may come to make, by their ids and commands. -/
def Script.calls : Script → List (String × Name)
  | .succeed | .fail _ | .panic _ | .manual => []
  | .after _ next => next.calls
  | .nested ⟨id, command, work, none, _⟩ => (id, command) :: work.calls
  | .nested ⟨id, command, work, some fallback, _⟩ =>
      (id, command) :: (work.calls ++ fallback.calls)

def CallSpec.calls (spec : CallSpec Script) : List (String × Name) :=
  (spec.id, spec.command) :: (spec.work.calls ++ (spec.fallback.map Script.calls).getD [])

theorem Script.calls_nested (spec : CallSpec Script) : (Script.nested spec).calls = spec.calls := by
  obtain ⟨id, command, work, fallback, mode⟩ := spec
  cases fallback <;> simp [Script.calls, CallSpec.calls]

def Wait.calls : Wait → List (String × Name)
  | .timer _ next | .turn next => next.calls
  | .manual | .call _ => []

def Work.calls : Work → List (String × Name)
  | .queued operation | .asked _ operation => operation.calls
  | .running _ wait => wait.calls
  | .done => []

def Rescue.calls : Rescue → List (String × Name)
  | .none => []
  | .unused fallback => fallback.calls
  | .running _ _ wait => wait.calls

theorem Script.calls_ofVerdict (v : Verdict) : (Script.ofVerdict v).calls = [] := by
  cases v <;> rfl

/-! ### Two sides -/

/-- Which commands are kept, and which ids of calls and which tickets go with them. -/
structure Scope where
  commands : Name → Bool
  /-- Ids of calls of commands that are kept. -/
  ours : String → Bool
  /-- Ids of calls of other commands. -/
  theirs : String → Bool
  /-- Tickets that are not taken from the pools of other commands. -/
  tickets : Name → Bool
  apart : ∀ id, ours id = true → theirs id = false

namespace Scope

variable {s : Scope} {side : Bool}

/-- A handle is not of a call of another command. -/
def handles (s : Scope) (id : String) : Bool := !s.theirs id

def knows (s : Scope) (side : Bool) (id : String) : Bool :=
  if side then s.ours id else s.theirs id

/-- A name is known on one side only. -/
theorem side_of_knows {other : Bool} {id : String} (here : s.knows side id = true)
    (there : s.knows other id = true) : side = other := by
  cases side <;> cases other
  · rfl
  · have clash := (s.apart id there).symm.trans here
    cases clash
  · have clash := (s.apart id here).symm.trans there
    cases clash
  · rfl

theorem handles_of_knows {id : String} (known : s.knows side id = true) : s.handles id = side := by
  cases side with
  | true => simp [handles, s.apart id known]
  | false => simpa [handles] using (show s.theirs id = true from known)

def Fits (s : Scope) (side : Bool) (calls : List (String × Name)) : Prop :=
  ∀ x ∈ calls, s.knows side x.1 = true ∧ s.commands x.2 = side

theorem Fits.nil : s.Fits side [] := by simp [Fits]

theorem Fits.mono {calls fewer : List (String × Name)} (fits : s.Fits side calls)
    (among : fewer ⊆ calls) : s.Fits side fewer := fun x member => fits x (among member)

end Scope

/-- A call is on a side, with all that it may come to do. -/
structure Call.Fits (s : Scope) (side : Bool) (c : Call) : Prop where
  id : s.knows side c.id = true
  work : s.Fits side c.work.calls
  rescue : s.Fits side c.rescue.calls
  waiter : ∀ w, c.waiter = some w → s.commands w.1.command = side

namespace Call.Fits

variable {s : Scope} {side : Bool} {c : Call}

/-- A new call is on the side of what it was made from. -/
theorem make {spec : CallSpec Script} (fits : s.Fits side spec.calls) (now : Instant) :
    (Call.make spec now).Fits s side where
  id := (fits _ List.mem_cons_self).1
  work := fits.mono fun _ member => List.mem_cons_of_mem _ (List.mem_append_left _ member)
  rescue := by
    cases fallback : spec.fallback with
    | none => simp [Call.make, fallback, Rescue.calls, Scope.Fits]
    | some script =>
        simp only [Call.make, fallback, Rescue.calls]
        refine fits.mono fun x member => List.mem_cons_of_mem _ (List.mem_append_right _ ?_)
        simpa [fallback] using member
  waiter := by simp [Call.make]

/-- The calls of a script that waits are on the side of its call. -/
theorem wait (fits : c.Fits s side) {stage : Stage} {wait : Wait}
    (waits : c.wait? stage = some wait) : s.Fits side wait.calls := by
  cases stage with
  | operation =>
      have work := fits.work
      simp only [Call.wait?] at waits
      split at waits
      · next since here =>
          obtain rfl := Option.some.inj waits
          rwa [here] at work
      · cases waits
  | fallback =>
      have rescue := fits.rescue
      simp only [Call.wait?] at waits
      split at waits
      · next cause took here =>
          obtain rfl := Option.some.inj waits
          rwa [here] at rescue
      · cases waits

theorem setWait (fits : c.Fits s side) (stage : Stage) {wait : Wait}
    (waits : s.Fits side wait.calls) : (c.setWait stage wait).Fits s side := by
  cases stage with
  | operation =>
      simp only [Call.setWait]
      split
      · exact { fits with work := waits }
      · exact fits
  | fallback =>
      simp only [Call.setWait]
      split
      · exact { fits with rescue := waits }
      · exact fits

theorem ring (fits : c.Fits s side) (part : Part) : (c.ring part).Fits s side := by
  cases part with
  | code stage =>
      simp only [Call.ring]
      split
      · next due next waits =>
          have before := fits.wait waits
          exact fits.setWait stage (show s.Fits side (Wait.turn next).calls from before)
      · exact fits
  | watch =>
      simp only [Call.ring]
      split
      · exact { fits with }
      · exact fits

end Call.Fits

def Turn.command : Turn → Name
  | .launch spec => spec.command
  | .poll k _ => k.command

namespace Engine

/-- What an engine holds of the commands that are kept. -/
def within (s : Scope) (e : Engine) : Engine where
  board := e.board.within s.commands
  policy := { e.policy with overrides := e.policy.overrides.only s.commands }
  desks := e.desks.only s.commands
  queue := e.queue.filter fun t => s.commands t.command
  handles := e.handles.only s.handles
  tickets := e.tickets.only s.tickets

/-- Nothing in an engine reaches from one side to the other, and its handles are of
calls that have been seen. -/
structure Parted (s : Scope) (seen : List String) (e : Engine) : Prop where
  calls : ∀ entry ∈ e.desks, ∀ c ∈ entry.2.calls, c.Fits s (s.commands entry.1)
  queue : ∀ spec, .launch spec ∈ e.queue →
    s.Fits (s.commands spec.command) spec.calls ∧ spec.id ∈ seen
  handles : ∀ entry ∈ e.handles, entry.1 ∈ seen ∧
    ∀ k, entry.2.source = .call k → s.commands k.command = s.handles entry.1
  tickets : ∀ entry ∈ e.tickets, s.commands entry.2 = s.tickets entry.1
  silent : e.board.hooks.Silent

/-- One engine follows another on a side: on the side that is kept it is the other
engine without the commands that are not kept, and on the other side nothing that is
kept has changed. -/
structure Follows (s : Scope) (seen : List String) (side : Bool) (origin x e : Engine) : Prop where
  parted : e.Parted s seen
  view : x = if side then e.within s else e
  still : side = false → e.within s = origin

variable {s : Scope} {seen : List String} {side : Bool} {origin x e : Engine} {n : Name}
  {k : CallKey}

/-- On the side that is kept an engine is followed by its restriction. -/
theorem Parted.follows (parted : e.Parted s seen) (side : Bool) :
    Follows s seen side (e.within s) (if side then e.within s else e) e :=
  ⟨parted, rfl, fun _ => rfl⟩

namespace Follows

/-! ### Looking up -/

theorem now (follows : Follows s seen side origin x e) : x.now = e.now := by
  rw [follows.view]
  cases side <;> rfl

/-- The boards follow where the engines do. -/
theorem board (follows : Follows s seen side origin x e) :
    Board.Follows s.commands side origin.board x.board e.board where
  silent := follows.parted.silent
  view := by
    rw [follows.view]
    cases side <;> rfl
  still other := congrArg Engine.board (follows.still other)

/-- On the side the desks are the same. -/
theorem desk (follows : Follows s seen side origin x e) (on : s.commands n = side) :
    x.desks.get? n = e.desks.get? n := by
  rw [follows.view]
  cases side with
  | true => exact Roster.get?_only_of_mem _ on
  | false => rfl

theorem call? (follows : Follows s seen side origin x e) (on : s.commands k.command = side) :
    x.call? k = e.call? k := by
  simp only [Engine.call?, follows.desk on]

theorem settings (follows : Follows s seen side origin x e) (on : s.commands n = side) :
    x.policy.settings n = e.policy.settings n := by
  rw [follows.view]
  cases side with
  | true =>
      simp only [if_true, within, Policy.settings]
      rw [Roster.get?_only_of_mem _ on]
  | false => rfl

/-- A call under way is on the side of its command. -/
theorem fits (follows : Follows s seen side origin x e) (on : s.commands k.command = side)
    {c : Call} (here : e.call? k = some c) : c.Fits s side := by
  obtain ⟨desk, found, listed⟩ := Option.bind_eq_some_iff.mp here
  rw [← on]
  exact follows.parted.calls _ (Roster.mem_of_get? found) c (List.mem_of_getElem? listed)

/-! ### Small changes -/

/-- A change of the board alone. -/
theorem setBoard (follows : Follows s seen side origin x e) {xb eb : Board}
    (boards : Board.Follows s.commands side origin.board xb eb) :
    Follows s seen side origin { x with board := xb } { e with board := eb } := by
  refine ⟨{ follows.parted with silent := boards.silent }, ?_, ?_⟩
  · rw [follows.view, boards.view]
    cases side <;> rfl
  · intro other
    have still := follows.still other
    have boardStill := boards.still other
    rw [← still] at boardStill ⊢
    simp only [within] at boardStill ⊢
    rw [boardStill]

theorem note (follows : Follows s seen side origin x e) {y : Entry}
    (on : s.commands y.command = side) : Follows s seen side origin (x.note y) (e.note y) :=
  follows.setBoard (follows.board.note on)

theorem remark (follows : Follows s seen side origin x e) (on : s.commands n = side) (r : Remark) :
    Follows s seen side origin (x.remark n r) (e.remark n r) :=
  follows.note (y := .remark n r) on

/-- A change that is the same on the side that is kept, and leaves no trace there if it
is one of the other side. -/
theorem of_change (follows : Follows s seen side origin x e) {f : Engine → Engine}
    (parted : (f e).Parted s seen) (kept : side = true → (f e).within s = f (e.within s))
    (other : side = false → (f e).within s = e.within s) :
    Follows s seen side origin (f x) (f e) := by
  refine ⟨parted, ?_, fun out => (other out).trans (follows.still out)⟩
  rw [follows.view]
  cases side with
  | true => exact (kept rfl).symm
  | false => rfl

theorem enqueue (follows : Follows s seen side origin x e) {t : Turn}
    (on : s.commands t.command = side)
    (launch : ∀ spec, t = .launch spec → s.Fits side spec.calls ∧ spec.id ∈ seen) :
    Follows s seen side origin (x.enqueue t) (e.enqueue t) := by
  refine follows.of_change (f := fun e => e.enqueue t) { follows.parted with queue := ?_ } ?_ ?_
  · intro spec member
    rcases List.mem_append.mp member with before | last
    · exact follows.parted.queue spec before
    · obtain rfl := List.mem_singleton.mp last
      obtain rfl : s.commands spec.command = side := on
      exact launch spec rfl
  · intro kept
    simp [Engine.enqueue, within, on.trans kept]
  · intro other
    simp [Engine.enqueue, within, on.trans other]

theorem poll (follows : Follows s seen side origin x e) (on : s.commands k.command = side)
    (part : Part) :
    Follows s seen side origin (x.enqueue (.poll k part)) (e.enqueue (.poll k part)) :=
  follows.enqueue on (by simp)

/-- A desk is put in the place of what stood there, with calls of its side. -/
theorem putDesk (follows : Follows s seen side origin x e) (on : s.commands n = side) (desk : Desk)
    (fits : ∀ c ∈ desk.calls, c.Fits s side) :
    Follows s seen side origin { x with desks := x.desks.put n desk }
      { e with desks := e.desks.put n desk } := by
  refine follows.of_change (f := fun e => { e with desks := e.desks.put n desk })
    { follows.parted with calls := ?_ } ?_ ?_
  · intro entry member
    rcases Roster.mem_put member with rfl | old
    · simp only [on]
      exact fits
    · exact follows.parted.calls entry old
  · intro kept
    simp [within, Roster.only_put _ (on.trans kept)]
  · intro other
    simp [within, Roster.only_put_of_not _ (on.trans other)]

/-- A desk is changed, and its calls stay on its side. -/
theorem updateDesk (follows : Follows s seen side origin x e) (on : s.commands n = side)
    {f : Desk → Desk} (stay : ∀ desk, (∀ c ∈ desk.calls, c.Fits s side) →
      ∀ c ∈ (f desk).calls, c.Fits s side) :
    Follows s seen side origin (x.updateDesk n f) (e.updateDesk n f) := by
  have same := follows.desk on
  unfold Engine.updateDesk
  rw [same]
  cases found : e.desks.get? n with
  | none => exact follows
  | some desk =>
      refine follows.putDesk on _ (stay desk ?_)
      have before := follows.parted.calls _ (Roster.mem_of_get? found)
      simpa only [on] using before

theorem mem_modify {l : List Call} {i : Nat} {f : Call → Call} {c : Call}
    (member : c ∈ l.modify i f) : c ∈ l ∨ ∃ d ∈ l, c = f d := by
  obtain ⟨j, at_⟩ := List.mem_iff_getElem?.mp member
  rw [List.getElem?_modify] at at_
  obtain ⟨d, listed, rfl⟩ := Option.map_eq_some_iff.mp at_
  by_cases same : i = j
  · exact .inr ⟨d, List.mem_of_getElem? listed, by simp [same]⟩
  · exact .inl (by simpa [same] using List.mem_of_getElem? listed)

/-- A call is changed, and stays on its side. -/
theorem updateCall (follows : Follows s seen side origin x e) (on : s.commands k.command = side)
    {f : Call → Call} (stay : ∀ c, c.Fits s side → (f c).Fits s side) :
    Follows s seen side origin (x.updateCall k f) (e.updateCall k f) := by
  refine follows.updateDesk on ?_
  intro desk before c member
  rcases mem_modify member with old | ⟨d, listed, rfl⟩
  · exact before c old
  · exact stay d (before d listed)

/-! ### Setting up -/

/-- A command that is created on a side is followed. -/
theorem create (follows : Follows s seen side origin x e) (on : s.commands n = side) :
    Follows s seen side origin (x.create n).1 (e.create n).1 ∧ (x.create n).2 = (e.create n).2 := by
  unfold Engine.create
  rw [follows.desk on, follows.settings on]
  cases found : e.desks.get? n with
  | some desk => exact ⟨follows, rfl⟩
  | none =>
      cases unusable : (e.policy.settings n).defect? with
      | some defect =>
          simp only [unusable]
          exact ⟨follows, trivial⟩
      | none =>
          simp only [unusable, follows.now]
          let settings := e.policy.settings n
          have opened := follows.putDesk on
            { settings := settings, pool := .full settings.maxConcurrent } (by simp)
          have equipped := opened.setBoard
            (opened.board.putCircuit on (.make settings e.now))
          exact ⟨equipped.remark on _, trivial⟩

/-- Making a call keeps to the side of its command. -/
theorem execute (follows : Follows s seen side origin x e) {spec : CallSpec Script}
    (fits : s.Fits side spec.calls) :
    Follows s seen side origin (x.execute spec).1 (e.execute spec).1 ∧
      (x.execute spec).2 = (e.execute spec).2 ∧
        ∀ i, (e.execute spec).2 = .ok i → i.command = spec.command := by
  have on : s.commands spec.command = side := (fits _ List.mem_cons_self).2
  obtain ⟨created, same⟩ := follows.create on
  unfold Engine.execute
  split
  · exact ⟨follows, rfl, by simp⟩
  · revert created same
    rcases x.create spec.command with ⟨x', dx⟩
    rcases e.create spec.command with ⟨e', de⟩
    rintro created rfl
    cases dx with
    | some defect => exact ⟨created, rfl, by simp⟩
    | none =>
        simp only [created.desk on, created.now]
        refine ⟨?_, trivial, by simp⟩
        refine (((created.updateDesk on ?_).note ?_).poll ?_ _).poll ?_ _
        · intro desk before c member
          rcases List.mem_append.mp member with old | new
          · exact before c old
          · obtain rfl := List.mem_singleton.mp new
            exact .make fits _
        · exact on
        · exact on
        · exact on

end Follows

end Engine

end Bulwark
