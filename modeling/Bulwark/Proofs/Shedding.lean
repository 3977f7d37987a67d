import Bulwark.Proofs.Silence
import Bulwark.Proofs.Trips

/-!
Two runs of one circuit, one of which also reports load that was shed.

A circuit that is not closed reads nothing of its window, and forgets it on the way back
to the closed state. So reports that it only records, any while it is open and those that
decide nothing while it is half-open, leave no trace once it is closed again, and change
nothing before that but its tally. Circuits that differ in this way alone are peers
(`Circuit.Peers`).

* `Circuit.Peers.undergo`, `Circuit.Peers.shed`: peers stay peers, at any deed done to
  both and at a report of shed load to one.
* `Board.unprolonged`: so both runs answer alike, and count alike once the circuit closed.
-/

namespace Bulwark

/-- A circuit in that state only records the outcome: the state comes and goes as it would
have without it. -/
def State.sheds : State → Outcome → Bool
  | .closed, _ => false
  | .opened, _ => true
  | .halfOpen, o => decide (o ≠ .success) && !o.isExecutionError

namespace Circuit

def blank (c : Circuit) : Circuit := { c with window := c.window.reset }

/-- What a step shows of a circuit, but for what the circuit recorded. -/
def Step.outline (s : Step) : Bool × Circuit := (s.answer, s.circuit.blank)

/-- Two circuits differ at most in what they recorded, and not even in that if they are
closed. -/
structure Peers (c e : Circuit) : Prop where
  blank : c.blank = e.blank
  window : c.state = .closed → c.window = e.window

variable {c e : Circuit} {now : Instant} {d : Deed}

/-! ### Circuits that are not closed -/

/-- What a circuit that is not closed does is not a matter of what it recorded. -/
theorem outline_undergo (unclosed : c.state ≠ .closed) (now : Instant) (d : Deed) :
    (c.blank.undergo now d).outline = (c.undergo now d).outline := by
  have same : c.blank.state = c.state := rfl
  have rested : c.blank.isRested now = c.isRested now := rfl
  cases state : c.state with
  | closed => exact absurd state unclosed
  | opened | halfOpen =>
      cases d with
      | ask caller =>
          simp only [undergo, allow, same, state, rested]
          split <;> rfl
      | look | read => simp [undergo, isOpen, state, Step.outline, blank, Window.reset]
      | forceOpen => simp [undergo, forceOpen, state, Step.outline, blank, enter, Window.reset]
      | forceClosed =>
          simp [undergo, forceClosed, state, Step.outline, blank, enter, Window.reset]
      | absorb caller r =>
          simp only [undergo, absorb, same, state]
          repeat' split
          all_goals simp [Step.outline, blank, enter, Window.reset]

/-- A circuit that closes has forgotten what it recorded. -/
theorem blank_of_closes (unclosed : c.state ≠ .closed)
    (closed : (c.undergo now d).circuit.state = .closed) :
    (c.undergo now d).circuit.blank = (c.undergo now d).circuit := by
  have emptied : (c.undergo now d).circuit.window.reset = (c.undergo now d).circuit.window := by
    cases c.turn now d with
    | rest state _ _ _ => exact absurd (state.symm.trans closed) unclosed
    | shift shift _ state _ news _ =>
        have closes : d.closes c = true :=
          (closes_iff now).mpr ⟨shift, news, state.symm.trans closed⟩
        rw [window_undergo, Deed.accesses, if_pos closes, Window.after, List.foldl_append]
        rfl
    | probe caller asks _ _ state _ _ =>
        subst asks
        cases state.symm.trans closed
  rw [blank, emptied]

/-- A report of shed load is only recorded. -/
theorem absorb_of_sheds {o : Outcome} (sheds : c.state.sheds o = true) (now : Instant) :
    (c.absorb o now).circuit = { c with window := c.window.record o now } := by
  cases state : c.state with
  | closed =>
      rw [state] at sheds
      cases sheds
  | opened => simp only [absorb, state]
  | halfOpen =>
      simp only [state, State.sheds, Bool.and_eq_true, decide_eq_true_eq, Bool.not_eq_true']
        at sheds
      simp only [absorb, state, if_neg sheds.1, sheds.2, if_false, Bool.false_eq_true]

/-! ### Peers -/

namespace Peers

theorem refl (c : Circuit) : Peers c c := ⟨rfl, fun _ => rfl⟩

variable (peers : Peers c e)

include peers

theorem state : c.state = e.state := by
  have same := congrArg Circuit.state peers.blank
  exact same

/-- Closed peers are the same. -/
theorem eq_of_closed (closed : c.state = .closed) : c = e := by
  have windows := peers.window closed
  have rest := peers.blank
  cases c
  cases e
  simp_all [Circuit.blank]

/-- A deed is done to both. -/
theorem undergo (now : Instant) (d : Deed) :
    (c.undergo now d).answer = (e.undergo now d).answer ∧
      Peers (c.undergo now d).circuit (e.undergo now d).circuit := by
  by_cases closed : c.state = .closed
  · obtain rfl := peers.eq_of_closed closed
    exact ⟨rfl, .refl _⟩
  have unclosed : e.state ≠ .closed := peers.state ▸ closed
  have outlines : (c.undergo now d).outline = (e.undergo now d).outline := by
    rw [← outline_undergo closed, ← outline_undergo unclosed, peers.blank]
  obtain ⟨answer, blank⟩ := Prod.ext_iff.mp outlines
  refine ⟨answer, blank, fun closes => ?_⟩
  have closes' : (e.undergo now d).circuit.state = .closed :=
    (congrArg Circuit.state blank).symm.trans closes
  have same : (c.undergo now d).circuit.blank = (e.undergo now d).circuit.blank := blank
  rw [blank_of_closes closed closes, blank_of_closes unclosed closes'] at same
  exact congrArg Circuit.window same

/-- Load that was shed is reported to one of them. -/
theorem shed {caller : Option CallKey} {r : Report} (sheds : c.state.sheds r.outcome = true)
    (now : Instant) : Peers (c.undergo now (.absorb caller r)).circuit e := by
  have recorded : (c.undergo now (.absorb caller r)).circuit =
      { c with window := c.window.record r.outcome now } := absorb_of_sheds sheds now
  rw [recorded]
  constructor
  · refine Eq.trans ?_ peers.blank
    simp [Circuit.blank, Window.reset]
  · intro closed
    simp only at closed
    rw [closed] at sheds
    cases sheds

omit peers in
/-- However often: a report of shed load leaves the state as it is. -/
theorem shedMany (peers : Peers c e) {caller : Option CallKey} {r : Report}
    (sheds : c.state.sheds r.outcome = true) (now : Instant) (times : Nat) :
    Peers (c.undergoAll now (.replicate times (.absorb caller r))) e := by
  induction times generalizing c with
  | zero => exact peers
  | succ times ih =>
      have state : (c.absorb r.outcome now).circuit.state = c.state := by
        rw [absorb_of_sheds sheds now]
      exact ih (peers.shed sheds now) (state.symm ▸ sheds)

omit peers in
/-- They let equally many of a number of requests through. -/
theorem admitted (peers : Peers c e) (now : Instant) (askers : Nat) :
    c.admitted now askers = e.admitted now askers := by
  induction askers generalizing c e with
  | zero => rfl
  | succ askers ih =>
      have asked := peers.undergo now (.ask none)
      have answer : (c.allow now).answer = (e.allow now).answer := asked.1
      have rest : (c.allow now).circuit.admitted now askers =
          (e.allow now).circuit.admitted now askers := ih asked.2
      simp only [Circuit.admitted, answer, rest]

/-- They answer alike to all but the question for the tally. -/
theorem reply (n : Name) (now : Instant) {r : Request} (untallied : r ≠ .tally) :
    c.reply n now r = e.reply n now r := by
  cases r with
  | allow => exact congrArg Reply.yes (peers.undergo now (.ask none)).1
  | isOpen => exact congrArg Reply.yes (peers.undergo now .look).1
  | state => exact congrArg Reply.state peers.state
  | tally => exact absurd rfl untallied
  | forceOpen => exact congrArg Reply.yes (peers.undergo now .forceOpen).1
  | forceClosed => exact congrArg Reply.yes (peers.undergo now .forceClosed).1
  | name => rfl
  | describe =>
      have words : c.describe n = e.describe n := by
        unfold Circuit.describe
        rw [peers.state]
      simp only [Circuit.reply, words]
  | report => rfl
  | allowMany askers => exact congrArg Reply.count (peers.admitted now askers)

end Peers

end Circuit

namespace Board

open Circuit (Peers)

/-! ### Two runs of one script -/

/-- The move reports load that was shed: outcomes that the circuit of a command only
records, as it stands. -/
def Move.sheds (n : Name) (b : Board) : Move → Bool
  | .request m (.report o _ _ _) => decide (m = n) && (b.circuits.get? n).any (·.state.sheds o)
  | _ => false

/-- In the fuller run every move that is not shared reports load that was shed. -/
def sheddings (n : Name) : Board → List Beat → Bool
  | _, [] => true
  | b, x :: rest => (x.shared || x.move.sheds n b) && sheddings n (b.move x.move).1 rest

theorem run_fuller_append (b : Board) (before after : List Beat) :
    b.run (fuller (before ++ after)) = (b.run (fuller before)).run (fuller after) := by
  simp [fuller, Board.run]

theorem run_barer_append (b : Board) (before after : List Beat) :
    b.run (barer (before ++ after)) = (b.run (barer before)).run (barer after) := by
  simp [barer, Board.run]

section Runs

variable {n : Name} {x y : Board}

/-- A report of shed load in the fuller run alone. -/
theorem Paired.move_shed (paired : Paired n Peers x y) {m : Move} (sheds : m.sheds n x = true) :
    Paired n Peers (x.move m).1 y := by
  obtain ⟨now, c, e, left, right, peers⟩ := paired
  cases m with
  | advance d | setHook o hook => cases sheds
  | request k r =>
      cases r with
      | report o times took start =>
          obtain ⟨same, sheds⟩ := Bool.and_eq_true_iff.mp sheds
          obtain rfl := of_decide_eq_true same
          rw [left.found, Option.any_some] at sheds
          exact ⟨now, _, e, left.serve _, right, peers.shedMany sheds now times⟩
      | allow | isOpen | state | tally | forceOpen | forceClosed | name | describe | allowMany =>
          cases sheds

/-- Over a script both circuits stay peers. -/
theorem Paired.run (paired : Paired n Peers x y) {script : List Beat}
    (tame : ∀ z ∈ script, z.move.Tame) (shed : sheddings n x script = true) :
    Paired n Peers (x.run (fuller script)) (y.run (barer script)) := by
  induction script generalizing x y with
  | nil => exact paired
  | cons beat rest ih =>
      obtain ⟨here, shed⟩ := Bool.and_eq_true_iff.mp shed
      have tame' : ∀ z ∈ rest, z.move.Tame := fun z among => tame z (List.mem_cons_of_mem _ among)
      cases shared : beat.shared with
      | true =>
          have next := paired.move (fun now d c e peers => (peers.undergo now d).2)
            (tame beat List.mem_cons_self)
          simpa [fuller, barer, Board.run, shared] using ih next tame' shed
      | false =>
          have next := paired.move_shed (by simpa [shared] using here)
          simpa [fuller, barer, Board.run, shared] using ih next tame' shed

/-- Circuits that are the same stay so, as long as both runs make all moves. -/
theorem Paired.run_shared (paired : Paired n Eq x y) {script : List Beat}
    (tame : ∀ z ∈ script, z.move.Tame) (shared : ∀ z ∈ script, z.shared = true) :
    Paired n Eq (x.run (fuller script)) (y.run (barer script)) := by
  induction script generalizing x y with
  | nil => exact paired
  | cons beat rest ih =>
      obtain ⟨here, shared⟩ := List.forall_mem_cons.mp shared
      obtain ⟨idle, tame⟩ := List.forall_mem_cons.mp tame
      have next := paired.move (fun now d c e same => same ▸ rfl) idle
      simpa [fuller, barer, Board.run, here] using ih next tame shared

end Runs

/-- Both runs of a script from a board answer alike, and from a closing on count alike. -/
structure Unprolonged (n : Name) (b : Board) (script : List Beat) : Prop where
  /-- At every point of the script, what is asked of both is answered alike, but for the
  tally. -/
  answers : ∀ before after m, script = before ++ after → (∀ k, m ≠ .request k .tally) →
    ((b.run (fuller before)).move m).2 = ((b.run (barer before)).move m).2
  /-- Once the circuit is closed, the tally is so too until the fuller run reports shed load
  again. -/
  snapshots : ∀ before between after, script = before ++ between ++ after →
    ((b.run (fuller before)).move (.request n .state)).2 = .state .closed →
    (∀ x ∈ between, x.shared = true) → ∀ m,
      ((b.run (fuller (before ++ between))).move m).2 =
        ((b.run (barer (before ++ between))).move m).2

/-- A beginning of a script sheds load as the whole does. -/
theorem sheddings_of_append {n : Name} {b : Board} {before after : List Beat}
    (shed : sheddings n b (before ++ after) = true) : sheddings n b before = true := by
  induction before generalizing b with
  | nil => rfl
  | cons x rest ih =>
      obtain ⟨here, shed⟩ := Bool.and_eq_true_iff.mp shed
      exact Bool.and_eq_true_iff.mpr ⟨here, ih shed⟩

/-- Reports of load that was shed while a circuit is not closed change nothing that it
answers, and nothing that it counts once it is closed again. -/
theorem unprolonged (n : Name) (s : Settings) {hooks : Hooks} (silent : hooks.Silent)
    (start : Instant) {script : List Beat} (tame : ∀ x ∈ script, x.move.Tame)
    (shed : sheddings n (fresh n s hooks start) script = true) :
    Unprolonged n (fresh n s hooks start) script := by
  have first : Paired n Peers (fresh n s hooks start) (fresh n s hooks start) :=
    ⟨start, _, _, lone_fresh n s silent start, lone_fresh n s silent start, .refl _⟩
  constructor
  case answers =>
    rintro before after m rfl untallied
    have paired := first.run (fun x among => tame x (List.mem_append_left _ among))
      (sheddings_of_append shed)
    refine paired.replies fun k r now c e asked peers => ?_
    exact peers.reply n now fun tally => untallied k (tally ▸ asked)
  case snapshots =>
    rintro before between after rfl closed shared m
    have tame' : ∀ x ∈ before ++ between, x.move.Tame :=
      fun x among => tame x (List.mem_append_left _ among)
    obtain ⟨now, c, e, left, right, peers⟩ :=
      first.run (fun x among => tame' x (List.mem_append_left _ among))
        (sheddings_of_append (sheddings_of_append shed))
    rw [Board.move, left.reply] at closed
    obtain rfl := peers.eq_of_closed (Reply.state.inj closed)
    have same : Paired n Eq ((fresh n s hooks start).run (fuller before))
        ((fresh n s hooks start).run (barer before)) := ⟨now, c, c, left, right, rfl⟩
    have last := same.run_shared (fun x among => tame' x (List.mem_append_right _ among)) shared
    rw [run_fuller_append, run_barer_append]
    exact last.replies fun k r now c e _ same => same ▸ rfl

/-- While the circuit is open or half-open, the load that it turns away is reported, late
successes and all. -/
theorem unprolonged_of_outage :
    let script : List Beat := [⟨.request "svc" (.report .failure 20 .zero none), true⟩,
      ⟨.request "svc" .allow, true⟩,
      ⟨.request "svc" (.report .shortCircuited 1 .zero none), false⟩,
      ⟨.request "svc" (.report .success 3 .zero none), false⟩, ⟨.advance (.ofMillis 5000), true⟩,
      ⟨.request "svc" .allow, true⟩,
      ⟨.request "svc" (.report .rejected 2 .zero none), false⟩,
      ⟨.request "svc" (.report .fallbackFailure 1 .zero none), false⟩,
      ⟨.request "svc" (.report .success 1 .zero none), true⟩,
      ⟨.request "svc" (.report .failure 3 .zero none), true⟩, ⟨.request "svc" .tally, true⟩]
    Hooks.Silent {} ∧ (∀ x ∈ script, x.move.Tame) ∧
      sheddings "svc" (fresh "svc" {} {} .origin) script = true ∧
      Unprolonged "svc" (fresh "svc" {} {} .origin) script := by
  intro script
  have tame : ∀ x ∈ script, x.move.Tame := by simp [script, Move.Tame]
  have shed : sheddings "svc" (fresh "svc" {} {} .origin) script = true := by decide
  exact ⟨Hooks.silent_empty, tame, shed,
    unprolonged "svc" {} Hooks.silent_empty .origin tame shed⟩

end Board

end Bulwark
