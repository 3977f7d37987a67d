import Bulwark.Proofs.Frozen
import Bulwark.Proofs.Silence

/-!
When a closed circuit opens, exactly.

A closed circuit compares the error rate of its window with a threshold, in whole percent
rounded down. Thresholds are whole as well, so no rounding is to be seen: the circuit opens
just when the errors make up the threshold's share of the requests (`Settings.Trips`). An
empty window has an error rate of zero.

* `Tally.le_errorPct_iff`: the rounded rate reaches a threshold just when the exact one does.
* `Circuit.Serves.isUnhealthy_iff`: so a circuit opens as its settings say.
* `Board.discerning`: whatever was done to a circuit before, asking it to let a request
  through and asking whether it is open agree on that, and leave it alike.
-/

namespace Bulwark

/-- The error rate reaches a threshold just when the errors make up that share of the
requests. Without requests the rate is zero. -/
theorem Tally.le_errorPct_iff (t : Tally) (pct : Nat) :
    pct ≤ t.errorPct ↔
      t.requests = 0 ∧ pct = 0 ∨ 0 < t.requests ∧ pct * t.requests ≤ 100 * t.errors := by
  unfold errorPct
  split
  · next empty => simp [empty]
  · next some_ =>
      have requests : 0 < t.requests := Nat.pos_of_ne_zero some_
      rw [Nat.le_div_iff_mul_le requests, Nat.mul_comm t.errors]
      simp [requests, some_]

/-- A tally calls for opening a circuit: there are enough requests, and enough of them went
wrong. -/
def Settings.Trips (s : Settings) (t : Tally) : Prop :=
  s.volumeThreshold ≤ t.requests ∧
    (t.requests = 0 ∧ s.errorThresholdPct = 0 ∨
      0 < t.requests ∧ s.errorThresholdPct * t.requests ≤ 100 * t.errors)

instance (s : Settings) (t : Tally) : Decidable (s.Trips t) :=
  inferInstanceAs (Decidable (_ ∧ _))

namespace Circuit

variable {c : Circuit} {s : Settings} {now : Instant}

theorem Serves.isUnhealthy_iff (serves : c.Serves s) (t : Tally) :
    c.isUnhealthy t = true ↔ s.Trips t := by
  obtain ⟨pct, rest⟩ := Prod.mk.inj serves.terms
  obtain ⟨volume, -⟩ := Prod.mk.inj rest
  rw [isUnhealthy, decide_eq_true_iff, pct, volume, Tally.le_errorPct_iff, Settings.Trips]

/-- A closed circuit whose window calls for it opens. -/
theorem Serves.examine_of_trips (serves : c.Serves s) (trips : s.Trips (c.window.tally now)) :
    (c.examine now).answer = true ∧ (c.examine now).circuit.state = .opened ∧
      (c.examine now).circuit.since = now := by
  rw [examine, if_pos ((serves.isUnhealthy_iff _).mpr trips)]
  exact ⟨rfl, rfl, rfl⟩

/-- Any other circuit stays as it is. -/
theorem Serves.examine_of_not_trips (serves : c.Serves s)
    (sound : ¬ s.Trips (c.window.tally now)) :
    (c.examine now).answer = false ∧ (c.examine now).circuit.state = c.state ∧
      (c.examine now).circuit.since = c.since := by
  rw [examine, if_neg (mt (serves.isUnhealthy_iff _).mp sound)]
  exact ⟨rfl, rfl, rfl⟩

/-- New circuits serve their settings, and always will. -/
theorem serving (n : Name) (s : Settings) : Invariant n fun c _ _ => c.Serves s where
  aside _ _ _ _ _ serves := serves
  deed _ now _ d serves := serves.undergo now d
  pass _ _ _ _ serves := serves

end Circuit

/-- When an engine is new, no command is in use. -/
theorem Engine.furnished_build (defaults : Overrides) (items : List (Name × Overrides))
    (hooks : Hooks) : (build defaults items hooks).Furnished := by
  intro n s used
  cases used

namespace Board

variable {n : Name} {s : Settings} {b : Board} {c : Circuit}

/-- A board as it can come to stand, with a circuit under some settings: on its own, under
settings that may be unusable, or as the circuit of a command in use. -/
inductive Hosts (n : Name) (s : Settings) : Board → Prop where
  | alone (hooks : Hooks) (start : Instant) (level : Nat) (moves : List Move) :
      Hosts n s ((fresh n s hooks start).runAt level moves)
  | inUse (defaults : Overrides) (items : List (Name × Overrides)) (hooks : Hooks)
      (steps : List Step) :
      ((Engine.build defaults items hooks).run steps).settings? n = some s →
        Hosts n s ((Engine.build defaults items hooks).run steps).board

/-- Whatever was done to it, the circuit serves its settings. -/
theorem Hosts.serves (hosts : Hosts n s b) :
    ∃ c, b.circuits.get? n = some c ∧ c.Serves s := by
  cases hosts with
  | alone hooks start level moves =>
      have first : Circuit.Invariant.On n (fun c _ _ => c.Serves s) (fresh n s hooks start) :=
        ⟨_, Roster.get?_put_self _ _ _, Circuit.serves_make s start⟩
      exact (Circuit.serving n s).runAt first level moves
  | inUse defaults items hooks steps used =>
      exact Engine.furnished_run (Engine.furnished_build defaults items hooks) steps n s used

/-- What is asked of a circuit is answered by its settings and its window alone. -/
structure Discerning (n : Name) (s : Settings) (b : Board) : Prop where
  /-- The circuit shows its state, and what its window counts now. -/
  shown : ∃ c, b.circuits.get? n = some c ∧ (b.move (.request n .state)).2 = .state c.state ∧
    (b.move (.request n .tally)).2 = .tally (c.window.tally b.now)
  /-- A closed circuit refuses a request just when its window calls for opening it. -/
  asked : ∀ c, b.circuits.get? n = some c → c.state = .closed →
    (b.move (.request n .allow)).2 = .yes (!decide (s.Trips (c.window.tally b.now)))
  /-- It is open then, and its sleep window starts now. -/
  opens : ∀ c, b.circuits.get? n = some c → c.state = .closed →
    s.Trips (c.window.tally b.now) →
      ∃ e, (b.move (.request n .allow)).1.circuits.get? n = some e ∧ e.state = .opened ∧
        e.since = b.now
  /-- Otherwise it stays closed, since when it was. -/
  stays : ∀ c, b.circuits.get? n = some c → c.state = .closed →
    ¬ s.Trips (c.window.tally b.now) →
      ∃ e, (b.move (.request n .allow)).1.circuits.get? n = some e ∧ e.state = .closed ∧
        e.since = c.since
  /-- Asked whether it is open, a closed circuit says the opposite of what it says to a
  request, and is left the same. -/
  looked : ∀ c, b.circuits.get? n = some c → c.state = .closed →
    (b.move (.request n .isOpen)).2 = .yes (decide (s.Trips (c.window.tally b.now))) ∧
      (b.move (.request n .isOpen)).1.circuits.get? n =
        (b.move (.request n .allow)).1.circuits.get? n
  /-- Any other circuit says that it is open, and stays as it is, even when it would let a
  probe through. -/
  unclosed : ∀ c, b.circuits.get? n = some c → c.state ≠ .closed →
    (b.move (.request n .isOpen)).2 = .yes true ∧
      (b.move (.request n .isOpen)).1.circuits.get? n = some c

/-- Where hooks do no actions, asking a circuit takes its step and nothing more. -/
theorem move_allow (silent : b.hooks.Silent) (found : b.circuits.get? n = some c) :
    (b.move (.request n .allow)).2 = .yes (c.allow b.now).answer ∧
      (b.move (.request n .allow)).1.circuits.get? n = some (c.allow b.now).circuit := by
  have retold := retold_allow silent found none
  simp only [move, serve, found]
  refine ⟨by simp only [allow, found], ?_⟩
  rw [retold.circuits]
  exact Roster.get?_put_self _ _ _

theorem move_isOpen (silent : b.hooks.Silent) (found : b.circuits.get? n = some c) :
    (b.move (.request n .isOpen)).2 = .yes (c.isOpen b.now).answer ∧
      (b.move (.request n .isOpen)).1.circuits.get? n = some (c.isOpen b.now).circuit := by
  have retold := retold_take silent n (c.isOpen b.now)
  simp only [move, serve, found]
  refine ⟨trivial, ?_⟩
  rw [retold.circuits]
  exact Roster.get?_put_self _ _ _

/-- Under any settings, and whatever was done to the circuit before, a closed circuit opens
just when its window calls for it, as long as hooks do no actions. -/
theorem discerning (hosts : Hosts n s b) (silent : b.hooks.Silent) : b.Discerning n s := by
  obtain ⟨c, found, serves⟩ := hosts.serves
  obtain ⟨toRequest, allowed⟩ := move_allow silent found
  obtain ⟨toLook, seen⟩ := move_isOpen silent found
  have only : ∀ e, b.circuits.get? n = some e → e = c := fun e known =>
    Option.some.inj (known.symm.trans found)
  constructor
  case shown =>
    refine ⟨c, found, ?_, ?_⟩
    · simp only [move, serve, found]
    · simp only [move, serve, found]
  case asked =>
    intro e known closed
    obtain rfl := only e known
    rw [toRequest]
    by_cases trips : s.Trips (e.window.tally b.now)
    · simp [Circuit.allow, closed, serves.examine_of_trips trips, trips]
    · simp [Circuit.allow, closed, serves.examine_of_not_trips trips, trips]
  case opens =>
    intro e known closed trips
    obtain rfl := only e known
    refine ⟨_, allowed, ?_⟩
    simp [Circuit.allow, closed, serves.examine_of_trips trips]
  case stays =>
    intro e known closed sound
    obtain rfl := only e known
    refine ⟨_, allowed, ?_⟩
    simp [Circuit.allow, closed, serves.examine_of_not_trips sound]
  case looked =>
    intro e known closed
    obtain rfl := only e known
    rw [toLook, seen, allowed]
    by_cases trips : s.Trips (e.window.tally b.now)
    · simp [Circuit.isOpen, Circuit.allow, closed, serves.examine_of_trips trips, trips]
    · simp [Circuit.isOpen, Circuit.allow, closed, serves.examine_of_not_trips trips, trips]
  case unclosed =>
    intro e known unclosed
    obtain rfl := only e known
    rw [toLook, seen]
    cases state : e.state with
    | closed => exact absurd state unclosed
    | opened | halfOpen => simp [Circuit.isOpen, state]

/-- Where hooks do no actions, and none is set that does, none ever does. -/
theorem silent_runAt (n : Name) (s : Settings) {hooks : Hooks} (silent : hooks.Silent)
    (start : Instant) {moves : List Move} (tame : ∀ m ∈ moves, m.Tame) :
    ((fresh n s hooks start).runAt 3 moves).hooks.Silent := by
  have first : Paired n (fun _ _ => True) (fresh n s hooks start) (fresh n s hooks start) :=
    ⟨start, _, _, lone_fresh n s silent start, lone_fresh n s silent start, trivial⟩
  rw [← run_eq_runAt]
  generalize fresh n s hooks start = b at first
  induction moves generalizing b with
  | nil =>
      obtain ⟨_, _, _, lone, _⟩ := first
      exact lone.silent
  | cons m rest ih =>
      obtain ⟨here, later⟩ := List.forall_mem_cons.mp tame
      exact ih later _ (first.move (fun _ _ _ _ _ => trivial) here)

/-- One error in three requests is a rate of 33 percent, and does not reach 34, though a
failed fallback has been recorded too. -/
theorem discerning_of_third :
    let s : Settings := { errorThresholdPct := 34, volumeThreshold := 3 }
    let moves : List Move := [.request "svc" (.report .failure 1 .zero none),
      .setHook .reported ⟨"heard", []⟩, .request "svc" (.report .success 2 .zero none),
      .request "svc" (.report .fallbackFailure 5 .zero none), .advance (.ofMillis 9000)]
    ((fresh "svc" s {} .origin).runAt 3 moves).hooks.Silent ∧
      ((fresh "svc" s {} .origin).runAt 3 moves).Discerning "svc" s := by
  intro s moves
  have tame : ∀ m ∈ moves, m.Tame := by simp [moves, Move.Tame]
  have silent := silent_runAt "svc" s Hooks.silent_empty .origin tame
  exact ⟨silent, discerning (.alone {} .origin 3 moves) silent⟩

end Board

end Bulwark
