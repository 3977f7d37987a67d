import Bulwark.Proofs.Margins

/-!
The handle of a call that is refused.

A caller is left with such a handle at once, and a task that waits for the verdict once it
has its turn (`Engine.Pledged`). No other turn touches the handle, since turns write to
handles only when a task makes a call, and to the handle of that call (`Engine.take_poll`,
`Engine.exists_launched`). So when everything has gone on the handle knows the error:

* `Engine.pledged_startCalls`: it is pledged once the call has been made.
* `Engine.Pledged.rest`: the pledge is kept.
-/

namespace Bulwark

def refusedHandle (spec : CallSpec Script) (error : CallError) : Handle where
  source := .failed error
  awaited := spec.mode = .awaited

namespace Engine

variable {e : Engine} {spec other : CallSpec Script} {error : CallError}

/-! ### What turns and calls do to handles -/

def NoLaunch (turns : List Turn) : Prop := ∀ spec, .launch spec ∉ turns

/-- What is done may queue turns of calls that were made, and leaves handles alone. -/
def framing (queue : List Turn) (handles : Roster Handle) : Leeway where
  panics := .none
  queue q _ := ∃ turns, q = queue ++ turns ∧ NoLaunch turns
  handles x _ := x = handles
  enqueue := by
    rintro _ _ ⟨turns, rfl, calm⟩ k p
    refine ⟨turns ++ [.poll k p], List.append_assoc _ _ _, fun spec member => ?_⟩
    rcases List.mem_append.mp member with old | new
    · exact calm spec old
    · cases List.mem_singleton.mp new

theorem framed (e : Engine) : Twin (framing e.queue e.handles) e e where
  board := .refl _ _
  policy := rfl
  desks := .refl (fun _ => .refl _ _) _
  queue := ⟨[], (List.append_nil _).symm, fun _ => List.not_mem_nil⟩
  handles := rfl
  tickets := rfl

/-- A turn of a call that was made queues turns of such calls at most, and touches no
handle. -/
theorem take_poll (e : Engine) (k : CallKey) (p : Part) :
    (∃ turns, (e.take (.poll k p)).queue = e.queue ++ turns ∧ NoLaunch turns) ∧
      (e.take (.poll k p)).handles = e.handles := by
  have twin := e.framed.poll k p
  exact ⟨twin.queue, twin.handles⟩

/-- Making a call touches no handle but its own. -/
theorem exists_launched (e : Engine) (spec : CallSpec Script) :
    (∃ turns, (e.launch spec).queue = e.queue ++ turns ∧ NoLaunch turns) ∧
      ∃ h, (e.launch spec).handles = e.handles.put spec.id h := by
  have twin := (e.framed.execute (.refl _ spec)).1
  have handles : (e.execute spec).1.handles = e.handles := twin.handles
  refine ⟨twin.queue, ?_⟩
  simp only [launch, handles]
  exact ⟨_, rfl⟩

/-- So does starting one, which may have to wait for a task to make it. -/
theorem exists_started (e : Engine) (spec : CallSpec Script) :
    (∃ turns, (e.startCall spec).queue = e.queue ++ turns ∧
        ∀ other, .launch other ∈ turns → other = spec) ∧
      ∃ h, (e.startCall spec).handles = e.handles.put spec.id h := by
  unfold startCall
  split
  · exact ⟨⟨[.launch spec], rfl, by simp⟩, _, rfl⟩
  · have twin := (e.framed.execute (.refl _ spec)).1
    have handles : (e.execute spec).1.handles = e.handles := twin.handles
    obtain ⟨turns, queue, calm⟩ := twin.queue
    refine ⟨⟨turns, queue, fun other member => absurd member (calm other)⟩, ?_⟩
    simp only [handles]
    exact ⟨_, rfl⟩

/-- The calls that are about to be made are those that were started. -/
theorem launched_of_startCalls {specs : List (CallSpec Script)}
    (waits : .launch other ∈ (specs.foldl startCall e).queue) :
    .launch other ∈ e.queue ∨ other ∈ specs := by
  induction specs generalizing e with
  | nil => exact .inl waits
  | cons first rest ih =>
      rcases ih waits with started | later
      · obtain ⟨⟨turns, queue, own⟩, _⟩ := e.exists_started first
        rw [queue] at started
        rcases List.mem_append.mp started with old | new
        · exact .inl old
        · exact .inr (own other new ▸ List.mem_cons_self)
      · exact .inr (List.mem_cons_of_mem _ later)

/-! ### Pledges -/

/-- The handle of a call that is refused knows the error, or will once its task has had its
turn. -/
structure Pledged (e : Engine) (spec : CallSpec Script) (error : CallError) : Prop where
  refused : e.refusal? spec = some error
  /-- No other call is about to be made under the id. -/
  alone : ∀ other, .launch other ∈ e.queue → other.id = spec.id →
    other = spec ∧ spec.mode = .awaited
  known : e.handles.get? spec.id = some (refusedHandle spec error) ∨ .launch spec ∈ e.queue

namespace Pledged

/-- What makes no call under the id keeps the pledge. -/
theorem congr (pledged : e.Pledged spec error) {e' : Engine}
    (refused : e'.refusal? spec = some error)
    (queue : ∀ other, .launch other ∈ e'.queue → other.id = spec.id → .launch other ∈ e.queue)
    (waits : .launch spec ∈ e.queue → .launch spec ∈ e'.queue)
    (handles : e'.handles.get? spec.id = e.handles.get? spec.id) : e'.Pledged spec error where
  refused := refused
  alone other member same := pledged.alone other (queue other member same) same
  known := by
    rw [handles]
    exact pledged.known.imp_right waits

/-- A turn leaves a pledge to be kept, or keeps it. -/
theorem take {u : Turn} {rest : List Turn} (pledged : e.Pledged spec error)
    (queued : e.queue = u :: rest) :
    (({ e with queue := rest } : Engine).take u).Pledged spec error := by
  have refused : (({ e with queue := rest } : Engine).take u).refusal? spec = some error := by
    have unqueued : ({ e with queue := rest } : Engine).refusal? spec = some error :=
      pledged.refused
    exact (refusal?_lasting spec error).take unqueued u
  have tail : ∀ other, .launch other ∈ rest → .launch other ∈ e.queue := by
    intro other member
    rw [queued]
    exact List.mem_cons_of_mem _ member
  cases u with
  | poll k p =>
      obtain ⟨⟨turns, queue, calm⟩, handles⟩ := ({ e with queue := rest } : Engine).take_poll k p
      refine pledged.congr refused (fun other member _ => ?_) (fun waits => ?_) (by rw [handles])
      · rw [queue] at member
        exact tail other ((List.mem_append.mp member).resolve_right (calm other))
      · rw [queued] at waits
        rw [queue]
        exact List.mem_append_left _ ((List.mem_cons.mp waits).resolve_left (by simp))
  | launch other =>
      obtain ⟨⟨turns, queue, calm⟩, h, handles⟩ :=
        ({ e with queue := rest } : Engine).exists_launched other
      have before : ∀ more,
          .launch more ∈ (({ e with queue := rest } : Engine).launch other).queue →
            .launch more ∈ e.queue := by
        intro more member
        rw [queue] at member
        exact tail more ((List.mem_append.mp member).resolve_right (calm more))
      -- No other call under this id is still to be launched.
      by_cases same : other.id = spec.id
      · have head : .launch other ∈ e.queue := by
          rw [queued]
          exact List.mem_cons_self
        obtain ⟨rfl, awaited⟩ := pledged.alone other head same
        have launched : ({ e with queue := rest } : Engine).launch other = _ :=
          launch_of_refused pledged.refused
        refine ⟨refused, fun more member => pledged.alone more (before more member), .inl ?_⟩
        simp only [Engine.take, launched, Roster.get?_put_self, refusedHandle, awaited, decide_true]
      · refine pledged.congr refused (fun more member _ => before more member) (fun waits => ?_) ?_
        · rw [queued] at waits
          refine (congrArg (Turn.launch spec ∈ ·) queue).mpr (List.mem_append_left _ ?_)
          refine (List.mem_cons.mp waits).resolve_left fun first => same ?_
          rw [Turn.launch.inj first]
        · exact (congrArg (Roster.get? · spec.id) handles).trans
            (Roster.get?_put_of_ne _ _ same)

/-- When no turn is left the handle knows the error. -/
theorem settle (pledged : e.Pledged spec error) (n : Nat) :
    (settle n e).Pledged spec error := by
  induction n generalizing e with
  | zero => exact pledged
  | succ n ih =>
      cases queued : e.queue with
      | nil =>
          rw [settle_of_queue_nil queued]
          exact pledged
      | cons u rest =>
          simp only [Engine.settle, queued]
          exact ih (pledged.take queued)

/-- A pledge is kept when all has come to rest. -/
theorem rest (pledged : e.Pledged spec error) (atRest : e.rest.queue = []) :
    e.rest.handles.get? spec.id = some (refusedHandle spec error) := by
  refine (pledged.settle e.fuel).known.resolve_right fun waits => ?_
  have quiet : (Engine.settle e.fuel e).queue = [] := atRest
  rw [quiet] at waits
  cases waits

/-- Other calls keep the pledge. -/
theorem startCall (pledged : e.Pledged spec error) (differ : other.id ≠ spec.id) :
    (e.startCall other).Pledged spec error := by
  obtain ⟨⟨turns, queue, own⟩, h, handles⟩ := e.exists_started other
  refine pledged.congr (((refusal?_lasting spec error).habit default).startCall pledged.refused
    other) (fun more member same => ?_) (fun waits => ?_) ?_
  · rw [queue] at member
    refine (List.mem_append.mp member).resolve_right fun new => differ ?_
    rw [← own more new, same]
  · rw [queue]
    exact List.mem_append_left _ waits
  · rw [handles, Roster.get?_put_of_ne _ _ differ]

theorem startCalls (pledged : e.Pledged spec error) {specs : List (CallSpec Script)}
    (differ : ∀ other ∈ specs, other.id ≠ spec.id) :
    (specs.foldl Engine.startCall e).Pledged spec error := by
  induction specs generalizing e with
  | nil => exact pledged
  | cons other rest ih =>
      obtain ⟨first, later⟩ := List.forall_mem_cons.mp differ
      exact ih (pledged.startCall first) later

end Pledged

/-- A call that is refused is pledged once it has been started. -/
theorem pledged_startCall (refused : e.refusal? spec = some error)
    (unlaunched : ∀ other, .launch other ∈ e.queue → other.id ≠ spec.id) :
    (e.startCall spec).Pledged spec error := by
  have still := ((refusal?_lasting spec error).habit default).startCall refused spec
  by_cases awaited : spec.mode = .awaited
  · refine ⟨still, fun other member same => ⟨?_, awaited⟩, .inr ?_⟩
    · obtain ⟨⟨turns, queue, own⟩, _⟩ := e.exists_started spec
      rw [queue] at member
      rcases List.mem_append.mp member with old | new
      · exact absurd same (unlaunched other old)
      · exact own other new
    · simp [Engine.startCall, awaited]
  · rw [startCall_of_refused refused awaited] at still ⊢
    refine ⟨still, fun other member same => absurd same (unlaunched other member), .inl ?_⟩
    simp [refusedHandle, awaited]

/-- So is each of several calls. -/
theorem pledged_startCalls {specs : List (CallSpec Script)} (atRest : e.queue = [])
    (distinct : (specs.map (·.id)).Nodup) (member : spec ∈ specs)
    (refused : e.refusal? spec = some error) :
    (specs.foldl startCall e).Pledged spec error := by
  obtain ⟨before, after, rfl⟩ := List.append_of_mem member
  rw [List.map_append, List.map_cons, List.nodup_append] at distinct
  obtain ⟨_, rest, apart⟩ := distinct
  have first : ∀ other ∈ before, other.id ≠ spec.id := fun other earlier =>
    apart other.id (List.mem_map_of_mem earlier) spec.id List.mem_cons_self
  have later : ∀ other ∈ after, other.id ≠ spec.id := fun other late same =>
    (List.nodup_cons.mp rest).1 (same ▸ List.mem_map_of_mem late)
  rw [List.foldl_append, List.foldl_cons]
  refine Pledged.startCalls (pledged_startCall ?_ fun other waits => ?_) later
  · exact ((refusal?_lasting spec error).habit default).startCalls refused before
  · have earlier := launched_of_startCalls waits
    rw [atRest] at earlier
    exact first other (earlier.resolve_left List.not_mem_nil)

end Engine

end Bulwark
