import Bulwark.Proofs.Standing

/-!
One frozen command per name.

A command comes into use the first time that it can be created, with the settings that the
policy gives it at that moment, and stays in use with those, whatever becomes of the policy
(`Engine.Frozen`). Who asks for it gets that command from then on. Who asks for it before
is told what is wrong with its settings, if they are unusable, and leaves no trace
(`Engine.Answers`).

* `Engine.settings?_step`: what a step does to the settings of the commands in use.
* `Engine.Furnished.answers`: what who asks for a command is answered.
* `Engine.frozen`: all this holds after every schedule.
-/

namespace Bulwark

def Step.change? : Step → Option Policy.Change
  | .change c => some c
  | _ => none

namespace Engine

variable {e : Engine} {n : Name}

/-! ### Steps -/

theorem rest_of_queue_nil (atRest : e.queue = []) : e.rest = e := settle_of_queue_nil atRest _

/-- Resting leaves the policy alone. -/
theorem policy_rest (e : Engine) : e.rest.policy = e.policy :=
  ((Heir.lasting e).rest (.refl e)).policy

/-- A step that is no change leaves the policy and all settings to what comes after it. -/
theorem heir_step {x : Step} (unchanged : x.change? = none) : Heir e (e.step x).1 := by
  refine (Heir.lasting e).step (.refl e) x ?_
  rintro c rfl
  cases unchanged

/-- A step changes the policy only if it is a change of the policy. -/
theorem policy_step (e : Engine) (x : Step) :
    (e.step x).1.policy = (x.change?.map e.policy.change).getD e.policy := by
  cases changed : x.change? with
  | none => exact (heir_step changed).policy
  | some c =>
      cases x with
      | change d =>
          obtain rfl := Option.some.inj changed
          exact policy_rest _
      | _ => cases changed

/-- A command in use stays so, with its settings, and one that comes into use has those
that the policy gives it. -/
theorem settings?_step (atRest : e.queue = []) (x : Step) :
    (∀ n s, e.settings? n = some s → (e.step x).1.settings? n = some s) ∧
      ∀ n s, e.settings? n = none → (e.step x).1.settings? n = some s →
        s = e.policy.settings n ∧ s.defect? = none := by
  cases changed : x.change? with
  | none =>
      have heir : Heir e (e.step x).1 := heir_step changed
      exact ⟨heir.kept, heir.founded⟩
  | some c =>
      cases x with
      | change d =>
          -- Nothing waits for its turn, so nothing is created after the change.
          have still : (e.step (.change d)).1.settings? = e.settings? := by
            have idle : ({ e with policy := e.policy.change d } : Engine).queue = [] := atRest
            simp only [Engine.step, Engine.begin, rest_of_queue_nil idle]
            rfl
          rw [still]
          refine ⟨fun n s used => used, fun n s absent used => ?_⟩
          rw [absent] at used
          cases used
      | _ => cases changed

/-! ### Answers -/

/-- What the commands of an engine answer who asks for the one of a name. -/
structure Answers (e : Engine) (n : Name) : Prop where
  /-- Creating it fails just when it is not in use and its settings have a defect: that one. -/
  defective : ∀ d, (e.step (.create n)).2 = .defective d ↔
    e.settings? n = none ∧ (e.policy.settings n).defect? = some d
  /-- It leaves no trace then. -/
  unchanged : ∀ d, (e.step (.create n)).2 = .defective d → (e.step (.create n)).1 = e
  /-- The first success puts it to use, with the settings of the moment. -/
  first : e.settings? n = none → (e.policy.settings n).defect? = none →
    let s := e.policy.settings n
    (e.step (.create n)).2 = .created ⟨n, s, .closed, s.maxConcurrent⟩ ∧
      (e.step (.create n)).1.settings? n = some s ∧
      (e.step (.create n)).1.board.circuits.get? n = some (.make s e.now)
  /-- From then on everybody gets the same, and nothing changes. -/
  again : ∀ s, e.settings? n = some s →
    ∃ c, e.board.circuits.get? n = some c ∧ c.Serves s ∧
      e.step (.create n) = (e, .created ⟨n, s, c.state, s.maxConcurrent⟩) ∧
      e.step (.get n) = (e, .command ⟨n, s, c.state, s.maxConcurrent⟩)
  absent : e.settings? n = none → e.step (.get n) = (e, .nothing)
  /-- Making a call fails for its settings in the same case, and leaves no trace then. -/
  uncalled : ∀ spec, spec.command = n → ∀ d,
    (e.execute spec).2 = .error (.config d) ↔
      spec.mode ≠ .offRuntime ∧ e.settings? n = none ∧ (e.policy.settings n).defect? = some d
  unmade : ∀ spec error, (e.execute spec).2 = .error error → (e.execute spec).1 = e
  /-- A call of a command in use is one more of its calls. -/
  joined : ∀ spec desk, spec.command = n → spec.mode ≠ .offRuntime → e.desks.get? n = some desk →
    (e.execute spec).2 = .ok ⟨n, desk.calls.length⟩ ∧
      (e.execute spec).1.desks.get? n = some { desk with calls := desk.calls ++ [.make spec e.now] }
  /-- The first call puts the command to use. -/
  called : ∀ spec, spec.command = n → spec.mode ≠ .offRuntime → e.settings? n = none →
    (e.policy.settings n).defect? = none →
      (e.execute spec).2 = .ok ⟨n, 0⟩ ∧
        (e.execute spec).1.settings? n = some (e.policy.settings n)

/-- What can be seen of a command in use. -/
theorem Orderly.view? (orderly : e.Orderly) {s : Settings} {c : Circuit}
    (used : e.settings? n = some s) (found : e.board.circuits.get? n = some c) :
    e.view? n = some ⟨n, s, c.state, s.maxConcurrent⟩ := by
  obtain ⟨desk, known, rfl⟩ := Option.map_eq_some_iff.mp used
  have capacity := (orderly.balanced n desk known).capacity
  simp only [Engine.view?, known, found, capacity]

section Asked

variable {s : Settings} {c : Circuit} {spec : CallSpec Script}

/-- To create a command that is used changes nothing and yields its view. -/
theorem step_create_of_used (orderly : e.Orderly) (atRest : e.queue = [])
    (used : e.settings? n = some s) (found : e.board.circuits.get? n = some c) :
    e.step (.create n) = (e, .created ⟨n, s, c.state, s.maxConcurrent⟩) := by
  have view := orderly.view? used found
  simp only [Engine.step, Engine.begin, create_of_used used, view, rest_of_queue_nil atRest,
    Option.map_some, Option.getD_some]

/-- To create a command with wrong settings changes nothing and tells the defect. -/
theorem step_create_of_wrong (atRest : e.queue = []) {d : Defect} (absent : e.settings? n = none)
    (wrong : (e.policy.settings n).defect? = some d) :
    e.step (.create n) = (e, .defective d) := by
  simp only [Engine.step, Engine.begin, create_of_wrong absent wrong, rest_of_queue_nil atRest]

/-- To create a command with sound settings establishes it. -/
theorem step_create_of_sound (atRest : e.queue = []) (absent : e.settings? n = none)
    (sound : (e.policy.settings n).defect? = none) :
    e.step (.create n) = (e.establish n, .created
      ⟨n, e.policy.settings n, .closed, (e.policy.settings n).maxConcurrent⟩) := by
  have view : (e.establish n).view? n = some
      ⟨n, e.policy.settings n, .closed, (e.policy.settings n).maxConcurrent⟩ := by
    simp [Engine.view?, establish, Engine.remark, Engine.note, Board.note, Board.putCircuit,
      Circuit.make, Pool.full]
  have idle : (e.establish n).queue = [] := atRest
  simp only [Engine.step, Engine.begin, create_of_sound absent sound, view,
    rest_of_queue_nil idle, Option.map_some, Option.getD_some]

theorem step_get (atRest : e.queue = []) (n : Name) :
    e.step (.get n) = (e, ((e.view? n).map .command).getD .nothing) := by
  simp only [Engine.step, Engine.begin, rest_of_queue_nil atRest]

theorem view?_of_absent (absent : e.settings? n = none) : e.view? n = none := by
  simp only [Engine.view?, Option.map_eq_none_iff.mp absent]

theorem execute_of_off (off : spec.mode = .offRuntime) :
    e.execute spec = (e, .error .noRuntime) := by
  simp only [execute, off]

/-- A call of a command with wrong settings changes nothing and tells the defect. -/
theorem execute_of_wrong {d : Defect} (running : spec.mode ≠ .offRuntime)
    (absent : e.settings? spec.command = none)
    (wrong : (e.policy.settings spec.command).defect? = some d) :
    e.execute spec = (e, .error (.config d)) := by
  unfold execute
  split
  · next off => exact absurd off running
  · rw [create_of_wrong absent wrong]

/-- A call is made at the desk of its command. -/
theorem execute_of_created {e' : Engine} {desk : Desk} (running : spec.mode ≠ .offRuntime)
    (created : e.create spec.command = (e', none))
    (found : e'.desks.get? spec.command = some desk) :
    (e.execute spec).2 = .ok ⟨spec.command, desk.calls.length⟩ ∧
      (e.execute spec).1.desks.get? spec.command =
        some { desk with calls := desk.calls ++ [.make spec e'.now] } := by
  unfold execute
  split
  · next off => exact absurd off running
  · simp [created, found, get?_updateDesk]

/-- The first call of a command is made at its new desk. -/
theorem execute_of_sound (running : spec.mode ≠ .offRuntime)
    (absent : e.settings? spec.command = none)
    (sound : (e.policy.settings spec.command).defect? = none) :
    (e.execute spec).2 = .ok ⟨spec.command, 0⟩ ∧
      (e.execute spec).1.settings? spec.command = some (e.policy.settings spec.command) := by
  have found : (e.establish spec.command).desks.get? spec.command = some
      { settings := e.policy.settings spec.command,
        pool := .full (e.policy.settings spec.command).maxConcurrent } :=
    Roster.get?_put_self _ _ _
  obtain ⟨key, desk⟩ := execute_of_created running (create_of_sound absent sound) found
  exact ⟨key, by rw [settings?, desk, Option.map_some]⟩

end Asked

/-- Who asks for a command is answered so. -/
theorem Furnished.answers (furnished : e.Furnished) (orderly : e.Orderly) (atRest : e.queue = [])
    (n : Name) : e.Answers n := by
  constructor
  case defective =>
    intro d
    cases absent : e.settings? n with
    | some s =>
        obtain ⟨c, found, _⟩ := furnished n s absent
        simp [step_create_of_used orderly atRest absent found]
    | none =>
        cases sound : (e.policy.settings n).defect? with
        | some d' => simp [step_create_of_wrong atRest absent sound]
        | none => simp [step_create_of_sound atRest absent sound]
  case unchanged =>
    intro d failed
    cases absent : e.settings? n with
    | some s =>
        obtain ⟨c, found, _⟩ := furnished n s absent
        rw [step_create_of_used orderly atRest absent found]
    | none =>
        cases sound : (e.policy.settings n).defect? with
        | some d' => rw [step_create_of_wrong atRest absent sound]
        | none =>
            rw [step_create_of_sound atRest absent sound] at failed
            cases failed
  case first =>
    intro absent sound s
    rw [step_create_of_sound atRest absent sound]
    refine ⟨rfl, ?_, Roster.get?_put_self _ _ _⟩
    rw [settings?_establish, if_pos rfl]
  case again =>
    intro s used
    obtain ⟨c, found, serves⟩ := furnished n s used
    refine ⟨c, found, serves, step_create_of_used orderly atRest used found, ?_⟩
    rw [step_get atRest, orderly.view? used found]
    rfl
  case absent =>
    intro absent
    rw [step_get atRest, view?_of_absent absent]
    rfl
  case uncalled =>
    rintro spec rfl d
    by_cases running : spec.mode = .offRuntime
    · simp [execute_of_off running, running]
    · cases absent : e.settings? spec.command with
      | some s =>
          obtain ⟨desk, found, _⟩ := Option.map_eq_some_iff.mp absent
          simp [(execute_of_created running (create_of_used absent) found).1]
      | none =>
          cases sound : (e.policy.settings spec.command).defect? with
          | some d' => simp [execute_of_wrong running absent sound, running]
          | none => simp [(execute_of_sound running absent sound).1]
  case unmade =>
    intro spec error failed
    exact execute_of_error (Prod.ext rfl failed)
  case joined =>
    rintro spec desk rfl running found
    have used : e.settings? spec.command = some desk.settings := by simp [settings?, found]
    exact execute_of_created running (create_of_used used) found
  case called =>
    rintro spec rfl running absent sound
    exact execute_of_sound running absent sound

/-! ### Schedules -/

section Schedules

variable {start : Engine}

theorem run_append (start : Engine) (before after : List Step) :
    start.run (before ++ after) = (start.run before).run after := List.foldl_append

/-- The policy is the one that the changes so far have made. -/
theorem policy_run (start : Engine) (steps : List Step) :
    (start.run steps).policy = (steps.filterMap Step.change?).foldl Policy.change start.policy := by
  induction steps generalizing start with
  | nil => rfl
  | cons x rest ih =>
      refine (ih (start.step x).1).trans ?_
      rw [policy_step]
      cases changed : x.change? <;> simp [changed]

/-- After every schedule commands in use have what they need. -/
theorem furnished_run (furnished : start.Furnished) (steps : List Step) :
    (start.run steps).Furnished := by
  induction steps generalizing start with
  | nil => exact furnished
  | cons x rest ih => exact ih (Furnished.lasting.step furnished x fun _ _ => furnished)

/-- Settings stay as they are through a schedule. -/
theorem settings?_run (ordered : start.Ordered .ahead none) (atRest : start.queue = [])
    (steps : List Step) {s : Settings} (used : start.settings? n = some s) :
    (start.run steps).settings? n = some s := by
  induction steps generalizing start with
  | nil => exact used
  | cons x rest ih =>
      obtain ⟨next, idle⟩ := ordered.step atRest x
      exact ih next idle ((settings?_step atRest x).1 n s used)

/-- A command that a schedule put to use has the settings that the policy gave it then. -/
theorem resolved_run (ordered : start.Ordered .ahead none) (atRest : start.queue = [])
    (unused : start.settings? n = none) (steps : List Step) {s : Settings}
    (used : (start.run steps).settings? n = some s) :
    ∃ before x after, steps = before ++ x :: after ∧ (start.run before).settings? n = none ∧
      (start.run (before ++ [x])).settings? n = some s ∧
      s = (start.run before).policy.settings n ∧ s.defect? = none := by
  induction steps generalizing start with
  | nil =>
      rw [Engine.run, List.foldl_nil, unused] at used
      cases used
  | cons x rest ih =>
      obtain ⟨next, idle⟩ := ordered.step atRest x
      cases created : (start.step x).1.settings? n with
      | some s' =>
          have kept := settings?_run next idle rest created
          obtain rfl := Option.some.inj (kept.symm.trans used)
          obtain ⟨resolved, sound⟩ := (settings?_step atRest x).2 n s' unused created
          exact ⟨[], x, rest, rfl, unused, created, resolved, sound⟩
      | none =>
          obtain ⟨before, y, after, rfl, absent, present, resolved, sound⟩ :=
            ih next idle created used
          exact ⟨x :: before, y, after, rfl, absent, present, resolved, sound⟩

end Schedules

/-- A name is listed exactly when it has settings. -/
theorem mem_names_iff (e : Engine) (n : Name) : n ∈ e.names ↔ (e.settings? n).isSome := by
  have known : n ∈ e.desks.names ↔ (e.desks.get? n).isSome := by
    rw [← not_iff_not, ← Roster.get?_eq_none_iff, Option.not_isSome_iff_eq_none]
  rw [Engine.names, List.mem_mergeSort, known, settings?, Option.isSome_map]

/-- After a schedule there is one command for each name that could be created so far, with
the settings of that moment. -/
structure Frozen (start : Engine) (steps : List Step) : Prop where
  /-- The policy is the one that the changes so far have made. -/
  policy : (start.run steps).policy =
    (steps.filterMap Step.change?).foldl Policy.change start.policy
  /-- A command came into use at one step, with the settings that the policy gave it then. -/
  resolved : ∀ n s, (start.run steps).settings? n = some s → ∃ before x after,
    steps = before ++ x :: after ∧ (start.run before).settings? n = none ∧
      (start.run (before ++ [x])).settings? n = some s ∧
      s = (start.run before).policy.settings n ∧ s.defect? = none
  /-- From then on it stays in use, with those settings. -/
  kept : ∀ before between after n s, steps = before ++ between ++ after →
    (start.run before).settings? n = some s → (start.run (before ++ between)).settings? n = some s
  /-- At every moment who asks for a command is answered accordingly. -/
  answers : ∀ before after, steps = before ++ after → ∀ n, (start.run before).Answers n
  /-- The names are those of the commands in use, each once. -/
  named : (start.run steps).step .names = (start.run steps, .names (start.run steps).names)
  names : (start.run steps).names.Nodup ∧
    ∀ n, n ∈ (start.run steps).names ↔ ((start.run steps).settings? n).isSome

/-- Whatever callers do, there is one frozen command per name. -/
theorem frozen (defaults : Overrides) (items : List (Name × Overrides)) (hooks : Hooks)
    (steps : List Step) : (build defaults items hooks).Frozen steps := by
  have unused : ∀ n, (build defaults items hooks).settings? n = none := fun _ => rfl
  have furnished : (build defaults items hooks).Furnished := by
    intro n s used
    rw [unused] at used
    cases used
  have ordered := ordered_build .ahead defaults items hooks
  have reached := ordered_run defaults items hooks
  have atRest : (build defaults items hooks).queue = [] := rfl
  generalize build defaults items hooks = start at *
  constructor
  case policy => exact policy_run start steps
  case resolved => exact fun n s used => resolved_run ordered atRest (unused n) steps used
  case kept =>
    intro before between after n s _ used
    rw [run_append]
    exact settings?_run (reached before).1 (reached before).2 between used
  case answers =>
    intro before after _ n
    obtain ⟨here, idle⟩ := reached before
    exact (furnished_run furnished before).answers here.orderly idle n
  case named => simp only [Engine.step, Engine.begin, rest_of_queue_nil (reached steps).2]
  case names =>
    refine ⟨?_, mem_names_iff (start.run steps)⟩
    exact (List.mergeSort_perm _ _).nodup_iff.mpr (reached steps).1.orderly.distinct

end Engine

end Bulwark
