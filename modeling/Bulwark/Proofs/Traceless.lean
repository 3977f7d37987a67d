import Bulwark.Proofs.Pledges
import Bulwark.Proofs.Tandem

/-!
A call that fails at setup has no effect.

From a schedule some calls are left out (`Step.without`), each of which is refused where it
is made: outside a runtime, or with settings that cannot be used (`Engine.Futile`). Calls
have ids of their own. Then nothing is different but the handles of those calls
(`Engine.Traceless`): no event, no command and no ticket is there on their account, nothing
of their code ever runs, and whatever is done later is answered as if they had not been made.

* `Engine.step_of_refused`: making such a call adds a handle that knows the error.
* `Engine.handle_of_refused`: so it does if others are made with it.
* `Engine.traceless`: nothing else ever comes of it.
-/

namespace Bulwark

/-- A step without the calls that it makes under some ids. -/
def Step.without (mine : List String) : Step → Option Step
  | .call spec => if spec.id ∈ mine then none else some (.call spec)
  | .calls specs => some (.calls (specs.filter fun spec => spec.id ∉ mine))
  | st => some st

namespace Engine

/-- Every call that a schedule makes under some ids is refused where it is made. -/
def Futile (mine : List String) : Engine → List Step → Prop
  | _, [] => True
  | e, st :: rest =>
    (∀ spec ∈ st.specs, spec.id ∈ mine → (e.refusal? spec).isSome) ∧
      Futile mine (e.step st).1 rest

instance decidableFutile (mine : List String) :
    (e : Engine) → (steps : List Step) → Decidable (e.Futile mine steps)
  | _, [] => .isTrue trivial
  | e, st :: rest =>
    have := decidableFutile mine (e.step st).1 rest
    inferInstanceAs (Decidable ((∀ spec ∈ st.specs, spec.id ∈ mine →
      (e.refusal? spec).isSome) ∧ (e.step st).1.Futile mine rest))

/-- What comes of calls that fail at setup. -/
structure Traceless (start : Engine) (mine : List String) (steps : List Step) : Prop where
  /-- Which calls are refused, and why. -/
  refused_iff : ∀ (e : Engine) spec error, e.refusal? spec = some error ↔
    spec.mode = .offRuntime ∧ error = .noRuntime ∨
      spec.mode ≠ .offRuntime ∧ e.desks.get? spec.command = none ∧
        ∃ d, (e.policy.settings spec.command).defect? = some d ∧ error = .config d
  /-- Whatever an engine is doing, a call fails to be set up just when it is refused. -/
  failed_iff : ∀ (e : Engine) spec error,
    (e.execute spec).2 = .error error ↔ e.refusal? spec = some error
  /-- Then nothing changes. -/
  unmade : ∀ (e : Engine) spec error, e.refusal? spec = some error →
    e.execute spec = (e, .error error)
  /-- Code that makes such a call goes on as code does that fails with its error. -/
  nested : ∀ (e : Engine) spec error, e.refusal? spec = some error → ∀ k stage,
    e.play k stage (.nested spec) = e.play k stage (.fail (.call error))
  /-- When a caller makes such a call, nothing goes on, and all that is new is a handle. -/
  still : ∀ before spec after error, steps = before ++ .call spec :: after →
    (start.run before).refusal? spec = some error →
      start.run (before ++ [.call spec]) = { start.run before with
        handles := (start.run before).handles.put spec.id (refusedHandle spec error) }
  /-- The handle is ready at once, with the error, also if others are made with the call. -/
  ready : ∀ before st after, steps = before ++ st :: after → ∀ spec ∈ st.specs, ∀ error,
    (start.run before).refusal? spec = some error →
      ((start.run (before ++ [st])).step (.poll spec.id)).2 = .verdict (.error error) ∧
        (spec.mode ≠ .awaited →
          ((start.run (before ++ [st])).step (.await spec.id)).2 = .verdict (.error error))
  /-- At every later moment nothing but handles is different for such calls. -/
  same : ∀ before after, steps = before ++ after →
    (start.run before).SameBut mine (start.run (before.filterMap (Step.without mine)))
  /-- Every other step is answered as if they had not been made, unless it looks at their
  handles. -/
  answer : ∀ before st after other, steps = before ++ st :: after →
    st.without mine = some other → (∀ id, st.handle? = some id → id ∉ mine) →
      ((start.run (before.filterMap (Step.without mine))).step other).2 =
        ((start.run before).step st).2

variable {e : Engine} {spec : CallSpec Script} {error : CallError} {mine : List String}

/-! ### Handles -/

/-- A single turn that queues no other is all that goes on. -/
theorem rest_of_queue_singleton {u : Turn} (queued : e.queue = [u])
    (quiet : (({ e with queue := [] } : Engine).take u).queue = []) :
    e.rest = ({ e with queue := [] } : Engine).take u := by
  have fuel : e.fuel = 4 * e.turns + 1 := by simp [Engine.fuel, queued]
  rw [rest, fuel]
  simp only [settle, queued, settle_of_queue_nil quiet]

/-- A call that is refused adds a handle that knows the error. -/
theorem step_of_refused (atRest : e.queue = []) (fresh : e.handles.get? spec.id = none)
    (refused : e.refusal? spec = some error) :
    (e.step (.call spec)).1 =
      { e with handles := e.handles.put spec.id (refusedHandle spec error) } := by
  have begun : e.begin (.call spec) = (e.startCall spec, .started) := by
    simp [begin, Roster.has, fresh]
  simp only [step, begun]
  by_cases awaited : spec.mode = .awaited
  · -- A task makes the call, in the only turn that there is.
    let asked : Engine :=
      { e with handles := e.handles.put spec.id { source := .pending, awaited := true } }
    have started : e.startCall spec = asked.enqueue (.launch spec) := by
      simp only [startCall, awaited, asked]
    have queued : (asked.enqueue (.launch spec)).queue = [.launch spec] := by
      simp [asked, atRest]
    have turn : ({ asked.enqueue (.launch spec) with queue := [] } : Engine).take (.launch spec) =
        { e with handles := e.handles.put spec.id (refusedHandle spec error) } := by
      have alone : { asked.enqueue (.launch spec) with queue := [] } = asked := by
        simp [asked, enqueue, atRest]
      have launched : asked.take (.launch spec) = _ := launch_of_refused refused
      rw [alone, launched]
      simp [asked, Roster.put_put, refusedHandle, awaited]
    rw [started, rest_of_queue_singleton queued (by rw [turn]; exact atRest), turn]
  · have queue : ({ e with handles := e.handles.put spec.id (refusedHandle spec error) } :
        Engine).queue = [] := atRest
    have made : e.startCall spec =
        { e with handles := e.handles.put spec.id (refusedHandle spec error) } := by
      rw [startCall_of_refused refused awaited]
      simp [refusedHandle, awaited]
    rw [made, rest_of_queue_nil queue]

/-- The handle shows the error to whoever looks. -/
theorem step_poll_of_refused
    (found : e.handles.get? spec.id = some (refusedHandle spec error)) :
    (e.step (.poll spec.id)).2 = .verdict (.error error) := by
  by_cases awaited : spec.mode = .awaited <;>
    simp [step, begin, pollHandle, found, refusedHandle, verdict?, awaited]

theorem step_await_of_refused (direct : spec.mode ≠ .awaited)
    (found : e.handles.get? spec.id = some (refusedHandle spec error)) :
    (e.step (.await spec.id)).2 = .verdict (.error error) := by
  simp [step, begin, awaitHandle, found, refusedHandle, verdict?, direct]

/-- Of the calls that a step makes under new ids, each that is refused has such a handle once
everything has gone on. -/
theorem handle_of_refused (atRest : e.queue = []) {st : Step} (quiet : (e.step st).1.queue = [])
    (distinct : st.ids.Nodup) (fresh : ∀ id ∈ st.ids, e.handles.get? id = none)
    (member : spec ∈ st.specs) (refused : e.refusal? spec = some error) :
    (e.step st).1.handles.get? spec.id = some (refusedHandle spec error) := by
  cases st with
  | call other =>
      obtain rfl := List.mem_singleton.mp member
      rw [step_of_refused atRest (fresh spec.id (List.mem_singleton_self _)) refused]
      exact Roster.get?_put_self _ _ _
  | calls specs =>
      have unused : ∀ other ∈ specs, e.handles.has other.id = false := fun other listed => by
        simp only [Roster.has, fresh other.id (List.mem_map_of_mem listed), Option.isSome_none]
      have begun : e.begin (.calls specs) = (specs.foldl startCall e, .started) :=
        begin_calls_of_fresh distinct unused
      simp only [step, begun] at quiet ⊢
      exact (pledged_startCalls atRest distinct member refused).rest quiet
  | _ => cases member

/-! ### Schedules -/

def leftOut (mine : List String) (steps : List Step) : Score :=
  steps.map fun st => (st, st.without mine)

theorem first_leftOut (mine : List String) (steps : List Step) :
    (leftOut mine steps).first = steps := by
  simp [leftOut, Score.first, Function.comp_def]

theorem second_leftOut (mine : List String) (steps : List Step) :
    (leftOut mine steps).second = steps.filterMap (Step.without mine) := by
  simp [leftOut, Score.second, List.filterMap_map]

/-- A schedule is done in tandem with the same without calls that are refused. -/
theorem Futile.suits {panics : Panics} {steps : List Step} (futile : e.Futile mine steps)
    {seen : List String} (fresh : (seen ++ steps.flatMap Step.ids).Nodup) :
    (leftOut mine steps).Suits ⟨panics, mine, seen⟩ e := by
  induction steps generalizing e seen with
  | nil => trivial
  | cons st rest ih =>
      obtain ⟨refused, later⟩ := futile
      have ids : (seen ++ (st.ids ++ rest.flatMap Step.ids)).Nodup := fresh
      have unseen : ∀ id ∈ st.ids, id ∉ seen := fun id listed known =>
        (List.nodup_append.mp ids).2.2 id known id (List.mem_append_left _ listed) rfl
      refine ⟨fun id listed _ => unseen id listed, ?_, ih later (by rwa [List.append_assoc])⟩
      cases st with
      | call spec =>
          by_cases own : spec.id ∈ mine
          · obtain ⟨error, here⟩ :=
              Option.isSome_iff_exists.mp (refused spec (List.mem_singleton_self _) own)
            simp only [Step.without, if_pos own]
            exact .uncalled own here
          · simp only [Step.without, if_neg own]
            exact .same _
      | calls specs =>
          -- A batch loses the calls that are refused, and keeps the others in their order.
          have distinct : (specs.map (·.id)).Nodup :=
            (List.nodup_append.mp (List.nodup_append.mp ids).2.1).1
          exact .fewer distinct (fun spec member => unseen _ (List.mem_map_of_mem member))
            fun spec member own => Option.isSome_iff_exists.mp (refused spec member own)
      | _ => exact .same _

section Build

variable {defaults : Overrides} {items : List (Name × Overrides)} {hooks : Hooks}
  {before after : List Step} {st : Step}

/-- At every moment the engine that is spared such calls differs in their handles alone. -/
theorem Futile.twin (futile : (build defaults items hooks).Futile mine (before ++ after))
    (distinct : ((before ++ after).flatMap Step.ids).Nodup) :
    Twin (Margin.mk .none mine (before.flatMap Step.ids)).idle
      ((build defaults items hooks).run before)
      ((build defaults items hooks).run (before.filterMap (Step.without mine))) := by
  have suits : (leftOut mine (before ++ after)).Suits ⟨.none, mine, []⟩
      (build defaults items hooks) := futile.suits distinct
  rw [leftOut, List.map_append] at suits
  have twin := suits.twin
  rw [Margin.through_eq] at twin
  rwa [← leftOut, first_leftOut, second_leftOut] at twin

/-- The ids of a step are its own, and not in use before it. -/
theorem Futile.unused (futile : (build defaults items hooks).Futile mine (before ++ st :: after))
    (distinct : ((before ++ st :: after).flatMap Step.ids).Nodup) :
    st.ids.Nodup ∧
      ∀ id ∈ st.ids, ((build defaults items hooks).run before).handles.get? id = none := by
  have near : Margin.Near _ _ _ := (futile.twin distinct).handles
  rw [List.flatMap_append, List.flatMap_cons] at distinct
  obtain ⟨_, later, apart⟩ := List.nodup_append.mp distinct
  refine ⟨(List.nodup_append.mp later).1, fun id listed => (near.unseen id fun seen => ?_).1⟩
  exact apart id seen id (List.mem_append_left _ listed) rfl

end Build

/-- Calls that fail at setup have no effect, whatever is done before them and after. -/
theorem traceless (defaults : Overrides) (items : List (Name × Overrides)) (hooks : Hooks)
    (mine : List String) (steps : List Step)
    (futile : (build defaults items hooks).Futile mine steps)
    (distinct : (steps.flatMap Step.ids).Nodup) :
    (build defaults items hooks).Traceless mine steps := by
  constructor
  case refused_iff => exact fun _ _ _ => refusal?_eq_some_iff
  case failed_iff => exact fun _ _ _ => execute_eq_error_iff
  case unmade => exact fun _ _ _ => execute_of_refused
  case nested => exact fun _ _ _ refused k stage => play_of_refused refused k stage
  case still =>
    rintro before spec after error rfl refused
    have fresh := (futile.unused distinct).2 spec.id (List.mem_singleton_self _)
    rw [run_append]
    exact step_of_refused (ordered_run defaults items hooks before).2 fresh refused
  case ready =>
    rintro before st after rfl spec member error refused
    obtain ⟨ordered, atRest⟩ := ordered_run defaults items hooks before
    obtain ⟨own, fresh⟩ := futile.unused distinct
    have found := handle_of_refused atRest (ordered.step atRest st).2 own fresh member refused
    rw [run_append]
    exact ⟨step_poll_of_refused found, fun direct => step_await_of_refused direct found⟩
  case same =>
    rintro before after rfl
    exact (futile.twin distinct).sameBut (ordered_run defaults items hooks before).2
  case answer =>
    rintro before st after other rfl kept apart
    have suits : (leftOut mine (before ++ st :: after)).Suits ⟨.none, mine, []⟩
        (build defaults items hooks) := futile.suits distinct
    rw [leftOut, List.map_append, List.map_cons, kept] at suits
    have answered := suits.answer apart
    rwa [← leftOut, first_leftOut, second_leftOut] at answered

/-- Among calls that are made, one is made outside a runtime and two for a command whose
settings have no buckets, one of them by a task. -/
theorem traceless_of_off :
    let mine := ["off", "bare", "task"]
    let steps : List Step := [.call ⟨"off", "svc", .manual, some .manual, .offRuntime⟩,
      .change (.configure "bad" { window := some (⟨1000000000⟩, 0) }),
      .calls [⟨"good", "svc", .after ⟨5000000⟩ (.fail (.plain ⟨"broken", []⟩)), none, .detached⟩,
        ⟨"bare", "bad", .panic none, some .manual, .detached⟩,
        ⟨"task", "bad", .nested ⟨"more", "svc", .succeed, none, .detached⟩, none, .awaited⟩],
      .poll "bare", .advance ⟨5000000⟩, .await "off", .await "good",
      .change (.configure "bad" {}), .call ⟨"mended", "bad", .succeed, none, .awaited⟩,
      .poll "mended", .circuit "svc" (some .tally), .names]
    (build {} [] {}).Futile mine steps ∧ (steps.flatMap Step.ids).Nodup ∧
      (build {} [] {}).Traceless mine steps := by
  intro mine steps
  have futile : (build {} [] {}).Futile mine steps := by decide
  exact ⟨futile, by decide, traceless {} [] {} mine steps futile (by decide)⟩

end Engine

end Bulwark
