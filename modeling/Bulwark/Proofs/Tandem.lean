import Bulwark.Proofs.Isolation
import Bulwark.Proofs.Margins

/-!
Schedules in tandem.

Two schedules are done in tandem by two engines: each step of the first is done by the
second as well, but for code that fails in the place of a panic, or it is left out
(`Step.Beside`). What may be left out is a look at a handle that is set apart, and a call,
under an id that is set apart, that is refused.

* `Engine.Twin.rest`, `Engine.Twin.runUntil`: both engines take the same turns at the same
  times.
* `Engine.Twin.step`: after each step they differ no further than their margin allows.
* `Engine.Twin.answer`: what both do is answered alike, unless it looks at a handle that is
  set apart.
* `Score.Suits.twin`, `Score.Suits.answer`: so it is at every moment of whole schedules.
* `Engine.SameBut`: where no panic is replaced, engines are the same but for handles.
-/

namespace Bulwark

namespace Engine.Twin

variable {m : Margin} {extra : CallSpec Script → Prop} {e e' : Engine}

/-! ### Taking all turns -/

/-- Both engines take the same turns, but for the calls that are extra to the first. These
are refused and leave no trace but their handles. -/
theorem settle (twin : Twin (m.leeway extra) e e')
    (refused : ∀ spec, extra spec → spec.id ∈ m.mine ∧ ∃ error, e.refusal? spec = some error)
    (n : Nat) : ∃ n', Twin (m.leeway extra) (Engine.settle n e) (Engine.settle n' e') := by
  -- The second engine takes the same turns but those that launch a refused call.
  induction n generalizing e e' with
  | zero => exact ⟨0, twin⟩
  | succ n ih =>
      cases queued : e.queue with
      | nil =>
          rw [settle_of_queue_nil queued]
          exact ⟨0, twin⟩
      | cons u rest =>
          have still : ∀ spec, extra spec → spec.id ∈ m.mine ∧
              ∃ error, (({ e with queue := rest } : Engine).take u).refusal? spec = some error := by
            intro spec left
            obtain ⟨mine, error, here⟩ := refused spec left
            have unqueued : ({ e with queue := rest } : Engine).refusal? spec = some error := here
            exact ⟨mine, error, (refusal?_lasting spec error).take unqueued u⟩
          have near : m.Near e.handles e'.handles := twin.handles
          have thins : m.Thins extra e.queue e'.queue := twin.queue
          simp only [Engine.settle, queued]
          rw [queued] at thins
          generalize second : e'.queue = queue at thins
          cases thins with
          | @poll k p _ queue tail =>
              have unqueued : Twin (m.leeway extra) { e with queue := rest }
                { e' with queue := queue } := { twin with queue := tail }
              obtain ⟨n', later⟩ := ih (unqueued.poll k p) still
              refine ⟨n' + 1, ?_⟩
              simp only [Engine.settle, second]
              exact later
          | @launch _ _ _ queue same seen tail =>
              have unqueued : Twin (m.leeway extra) { e with queue := rest }
                { e' with queue := queue } := { twin with queue := tail }
              obtain ⟨n', later⟩ := ih (unqueued.launch same seen) still
              refine ⟨n' + 1, ?_⟩
              simp only [Engine.settle, second]
              exact later
          | @extra spec _ _ left seen tail =>
              obtain ⟨mine, error, here⟩ := refused spec left
              have launched : ({ e with queue := rest } : Engine).take (.launch spec) = _ :=
                launch_of_refused here
              rw [launched] at still ⊢
              subst second
              exact ih { twin with queue := tail, handles := near.put_left mine seen _ } still

/-- Where no turns are left to the first engine, none are left to the second. -/
theorem queue_nil (twin : Twin (m.leeway extra) e e') (atRest : e.queue = []) :
    e'.queue = [] := by
  have thins : m.Thins extra e.queue e'.queue := twin.queue
  rw [atRest] at thins
  generalize e'.queue = queue at thins
  cases thins
  rfl

/-- Both engines come to the same rest. -/
theorem rest (twin : Twin (m.leeway extra) e e')
    (refused : ∀ spec, extra spec → spec.id ∈ m.mine ∧ ∃ error, e.refusal? spec = some error)
    (atRest : e.rest.queue = []) (atRest' : e'.rest.queue = []) :
    Twin (m.leeway extra) e.rest e'.rest := by
  obtain ⟨n, settled⟩ := twin.settle refused e.fuel
  rwa [settle_eq (settled.queue_nil atRest) atRest'] at settled

/-! ### From alarm to alarm -/

/-- Twins await the same alarms. -/
theorem alarms (twin : Twin (m.leeway extra) e e') : e'.alarms = e.alarms := by
  refine flatMap_eq_of_forall₂ twin.desks ?_
  rintro ⟨n, desk⟩ ⟨n', desk'⟩ ⟨rfl, same⟩
  exact same.alarms _

theorem turns (twin : Twin (m.leeway extra) e e') (atRest : e.queue = []) :
    e'.turns = e.turns := by
  have desks : weigh (fun entry => entry.2.turns) e'.desks =
      weigh (fun entry => entry.2.turns) e.desks :=
    weigh_eq_of_forall₂ twin.desks fun _ _ same => same.2.turns
  simp only [Engine.turns, desks, atRest, twin.queue_nil atRest]

theorem setNow (twin : Twin (m.leeway extra) e e') (t : Instant) :
    Twin (m.leeway extra) (e.setNow t) (e'.setNow t) :=
  { twin with board := twin.board.setNow t }

/-- An alarm goes off in twins alike. -/
theorem fire (twin : Twin (m.leeway extra) e e') (a : Alarm) :
    Twin (m.leeway extra) (e.fire a) (e'.fire a) :=
  ((twin.setNow a.due).updateCall a.call fun _ _ same => same.ring a.part).poll_next _ _

/-- Everything goes on in both engines at the same times. -/
theorem runUntil (twin : Twin m.idle e e') (ordered : e.Ordered .punctual none)
    (ordered' : e'.Ordered .punctual none) (n : Nat) (t : Instant) :
    Twin m.idle (Engine.runUntil n t e) (Engine.runUntil n t e') := by
  induction n generalizing e e' with
  | zero => exact twin.setNow t
  | succ n ih =>
      unfold Engine.runUntil
      rw [twin.alarms]
      cases first : Alarm.earliest e.alarms with
      | none => exact twin.setNow t
      | some a =>
          simp only
          split
          · have first' : Alarm.earliest e'.alarms = some a := by rw [twin.alarms, first]
            obtain ⟨rested, atRest⟩ := (ordered.fire first).rest
            obtain ⟨rested', atRest'⟩ := (ordered'.fire first').rest
            exact ih ((twin.fire a).rest (fun _ => False.elim) atRest atRest') rested rested'
          · exact twin.setNow t

/-- Time passes in twins alike. -/
theorem advance (twin : Twin m.idle e e') (ordered : e.Ordered .ahead none)
    (ordered' : e'.Ordered .ahead none) (atRest : e.queue = []) (d : Duration) :
    Twin m.idle (e.advance d) (e'.advance d) := by
  unfold Engine.advance
  rw [twin.turns atRest, twin.now]
  exact twin.runUntil ordered.punctual ordered'.punctual _ _

end Engine.Twin

/-! ### Steps -/

/-- What the second engine does beside a step of the first: the same, but for code, or
nothing. -/
inductive Step.Beside (m : Margin) (e : Engine) : Step → Option Step → Prop where
  | same (st : Step) : Beside m e st (some st)
  | call {spec spec' : CallSpec Script} : spec.Twin m.panics spec' →
      Beside m e (.call spec) (some (.call spec'))
  | calls {specs specs' : List (CallSpec Script)} :
      List.Forall₂ (CallSpec.Twin m.panics) specs specs' →
        Beside m e (.calls specs) (some (.calls specs'))
  /-- Code of the stage that waits under the id is told how to go on. -/
  | finish (id : String) {next next' : Script} :
      (∀ k stage, e.manual? id = some (k, stage) → Script.Twin m.panics stage next next') →
        Beside m e (.finish id next) (some (.finish id next'))
  | unlooked {st : Step} {id : String} : st.handle? = some id → id ∈ m.mine → Beside m e st none
  | uncalled {spec : CallSpec Script} {error : CallError} : spec.id ∈ m.mine →
      e.refusal? spec = some error → Beside m e (.call spec) none
  | fewer {specs : List (CallSpec Script)} : (specs.map (·.id)).Nodup →
      (∀ spec ∈ specs, spec.id ∉ m.seen) →
      (∀ spec ∈ specs, spec.id ∈ m.mine → ∃ error, e.refusal? spec = some error) →
        Beside m e (.calls specs) (some (.calls (specs.filter fun spec => spec.id ∉ m.mine)))

/-- The ids under which a step makes calls are new if they are set apart. -/
def Step.Fresh (m : Margin) (st : Step) : Prop := ∀ id ∈ st.ids, id ∈ m.mine → id ∉ m.seen

def Margin.after (m : Margin) (st : Step) : Margin := { m with seen := m.seen ++ st.ids }

def Margin.through (m : Margin) (steps : List Step) : Margin :=
  steps.foldl Margin.after m

/-- Margins change through a schedule in the ids that were seen. -/
theorem Margin.through_eq (m : Margin) (steps : List Step) :
    m.through steps = { m with seen := m.seen ++ steps.flatMap Step.ids } := by
  induction steps generalizing m with
  | nil => simp [Margin.through]
  | cons st rest ih =>
      have later := ih (m.after st)
      simp only [Margin.through, List.foldl_cons] at later ⊢
      rw [later]
      simp [Margin.after, List.append_assoc]

def Step.Refused (m : Margin) (e : Engine) (st : Step) (spec : CallSpec Script) : Prop :=
  spec ∈ st.specs ∧ spec.id ∈ m.mine ∧ ∃ error, e.refusal? spec = some error

/-- Each step of the first engine, and what the second does beside it. -/
abbrev Score := List (Step × Option Step)

def Score.first (score : Score) : List Step := score.map (·.1)

def Score.second (score : Score) : List Step := score.filterMap (·.2)

/-- What the second engine may do beside each step of the first. -/
def Score.Suits (m : Margin) (e : Engine) : Score → Prop
  | [] => True
  | (st, st') :: rest =>
    st.Fresh m ∧ st.Beside m e st' ∧ Score.Suits (m.after st) (e.step st).1 rest

namespace Engine

/-- What an engine does beside a step of another, before anything goes on. -/
def follow (e : Engine) : Option Step → Engine
  | none => e
  | some st => (e.begin st).1

namespace Twin

variable {m : Margin} {extra : CallSpec Script → Prop} {e e' : Engine} {st : Step}
  {st' : Option Step}

/-- Engines at rest differ no further when more calls are let differ. -/
theorem widen (twin : Twin m.idle e e') (atRest : e.queue = []) (st : Step)
    (extra : CallSpec Script → Prop) : Twin ((m.after st).leeway extra) e e' where
  board := twin.board
  policy := twin.policy
  desks := twin.desks
  queue := by
    rw [atRest, twin.queue_nil atRest]
    exact .nil
  handles := by
    have near : m.Near e.handles e'.handles := twin.handles
    refine ⟨near.same, fun id fresh => near.unseen id fun seen => fresh ?_⟩
    exact List.mem_append_left _ seen
  tickets := twin.tickets

/-- At rest no call is about to be made. -/
theorem narrow (twin : Twin (m.leeway extra) e e') (atRest : e.queue = []) : Twin m.idle e e' :=
  ⟨twin.board, twin.policy, twin.desks, by
    rw [atRest, twin.queue_nil atRest]
    exact .nil, twin.handles, twin.tickets⟩

/-- What is refused when a step is begun stays so. -/
theorem refused_begin (m : Margin) (e : Engine) (st : Step) :
    ∀ spec, st.Refused m e spec →
      spec.id ∈ m.mine ∧ ∃ error, (e.begin st).1.refusal? spec = some error := by
  rintro spec ⟨member, mine, error, refused⟩
  have lasting := (refusal?_lasting spec error).habit default
  refine ⟨mine, error, ?_⟩
  cases st with
  | call other =>
      simp only [Engine.begin]
      split
      · exact refused
      · exact lasting.startCall refused other
  | calls specs =>
      simp only [Engine.begin]
      split
      · exact refused
      · exact lasting.startCalls refused specs
  | _ => cases member

/-- Calls that both engines make are refused for their ids in both or in none, and started
alike. -/
theorem begin_calls (twin : Twin m.idle e e') (atRest : e.queue = [])
    {specs specs' : List (CallSpec Script)} (fresh : (Step.calls specs).Fresh m)
    (same : List.Forall₂ (CallSpec.Twin m.panics) specs specs') :
    Twin ((m.after (.calls specs)).leeway extra) (e.begin (.calls specs)).1
        (e'.begin (.calls specs')).1 ∧
      (e'.begin (.calls specs')).2 = (e.begin (.calls specs)).2 := by
  have near : m.Near e.handles e'.handles := twin.handles
  have ids : specs'.map (·.id) = specs.map (·.id) := by
    rw [← List.forall₂_eq_eq_eq, List.forall₂_map_left_iff, List.forall₂_map_right_iff]
    exact same.flip.imp fun _ _ twins => twins.id
  have taken : ∀ specs : List (CallSpec Script), ∀ x : Engine,
      (specs.any fun spec => x.handles.has spec.id) = (specs.map (·.id)).any x.handles.has := by
    intro specs x
    rw [List.any_map]
    rfl
  have has : (specs.map (·.id)).any e'.handles.has = (specs.map (·.id)).any e.handles.has := by
    rw [Bool.eq_iff_iff, List.any_eq_true, List.any_eq_true]
    exact exists_congr fun id => and_congr_right fun member => by rw [near.has (fresh id member)]
  have wide := twin.widen atRest (.calls specs) extra
  simp only [Engine.begin, taken, ids, has]
  split
  · exact ⟨wide, rfl⟩
  · refine ⟨wide.startCalls same fun spec member => ?_, rfl⟩
    exact List.mem_append_right _ (List.mem_map_of_mem member)

/-- Twins are told of twin calls, and answer alike. -/
theorem begin_call (twin : Twin m.idle e e') (atRest : e.queue = []) {spec spec' : CallSpec Script}
    (fresh : (Step.call spec).Fresh m) (same : spec.Twin m.panics spec') :
    Twin ((m.after (.call spec)).leeway extra) (e.begin (.call spec)).1
        (e'.begin (.call spec')).1 ∧
      (e'.begin (.call spec')).2 = (e.begin (.call spec)).2 := by
  have near : m.Near e.handles e'.handles := twin.handles
  have has := near.has (fresh spec.id (List.mem_singleton_self _))
  have wide := twin.widen atRest (.call spec) extra
  simp only [Engine.begin, same.id, has]
  split
  · exact ⟨wide, rfl⟩
  · refine ⟨wide.startCall same ?_, rfl⟩
    exact List.mem_append_right _ (List.mem_singleton_self _)

/-- Calls under new ids are all made, and the second engine makes those that are not set
apart. -/
theorem begin_fewer (twin : Twin m.idle e e') (atRest : e.queue = [])
    {specs : List (CallSpec Script)} (distinct : (specs.map (·.id)).Nodup)
    (unseen : ∀ spec ∈ specs, spec.id ∉ m.seen)
    (refused : ∀ spec ∈ specs, spec.id ∈ m.mine → ∃ error, e.refusal? spec = some error) :
    Twin ((m.after (.calls specs)).leeway ((Step.calls specs).Refused m e))
        (e.begin (.calls specs)).1
        (e'.begin (.calls (specs.filter fun spec => spec.id ∉ m.mine))).1 ∧
      (e'.begin (.calls (specs.filter fun spec => spec.id ∉ m.mine))).2 =
        (e.begin (.calls specs)).2 := by
  have near : m.Near e.handles e'.handles := twin.handles
  have begun := begin_calls_of_fresh (e := e) distinct fun spec member => by
    simp only [Roster.has, (near.unseen spec.id (unseen spec member)).1, Option.isSome_none]
  have begun' : e'.begin (.calls (specs.filter fun spec => spec.id ∉ m.mine)) =
      ((specs.filter fun spec => spec.id ∉ m.mine).foldl Engine.startCall e', .started) := by
    refine begin_calls_of_fresh (distinct.sublist (List.filter_sublist.map _)) fun spec kept => ?_
    have member := (List.mem_filter.mp kept).1
    simp only [Roster.has, (near.unseen spec.id (unseen spec member)).2, Option.isSome_none]
  have wide := twin.widen atRest (.calls specs) ((Step.calls specs).Refused m e)
  rw [begun, begun']
  refine ⟨wide.startFewer (fun spec member mine => ?_) fun spec member => ?_, rfl⟩
  · obtain ⟨error, here⟩ := refused spec member mine
    exact ⟨⟨member, mine, error, here⟩, error, here⟩
  · exact List.mem_append_right _ (List.mem_map_of_mem member)

/-- Code that waits to be told goes on in both engines. -/
theorem begin_finish (twin : Twin (m.leeway extra) e e') (id : String) {next next' : Script}
    (code : ∀ k stage, e.manual? id = some (k, stage) →
      Script.Twin m.panics stage next next') :
    Twin (m.leeway extra) (e.begin (.finish id next)).1 (e'.begin (.finish id next')).1 ∧
      (e'.begin (.finish id next')).2 = (e.begin (.finish id next)).2 := by
  obtain ⟨told, found⟩ := twin.instruct id code
  simp only [Engine.begin]
  revert told found
  rcases e.instruct id next with ⟨x, found⟩
  rcases e'.instruct id next' with ⟨x', found'⟩
  rintro told (rfl : found' = found)
  cases found' <;> exact ⟨told, rfl⟩

/-- The same step in both engines. -/
theorem begin_same (twin : Twin m.idle e e') (ordered : e.Ordered .ahead none)
    (ordered' : e'.Ordered .ahead none) (atRest : e.queue = []) (fresh : st.Fresh m) :
    Twin ((m.after st).leeway (st.Refused m e)) (e.begin st).1 (e'.begin st).1 ∧
      ((∀ id, st.handle? = some id → id ∉ m.mine) → (e'.begin st).2 = (e.begin st).2) := by
  have wide := twin.widen atRest st (st.Refused m e)
  cases looks : st.handle? with
  | some id =>
      by_cases mine : id ∈ m.mine
      · obtain ⟨x, looked, touched⟩ := e.exists_touched looks
        obtain ⟨x', looked', touched'⟩ := e'.exists_touched looks
        rw [looked, looked']
        exact ⟨wide.touch mine touched touched', fun apart => absurd mine (apart id rfl)⟩
      · exact And.imp_right (fun answer _ => answer) (wide.look looks mine)
  | none =>
      refine And.imp_right (fun answer _ => answer) ?_
      cases st with
      | poll id | await id | drop id => cases looks
      | call spec => exact twin.begin_call atRest fresh (.refl _ spec)
      | calls specs =>
          exact twin.begin_calls atRest fresh (List.forall₂_same.mpr fun _ _ => .refl _ _)
      | advance d =>
          have later := twin.advance ordered ordered' atRest d
          have quiet :=
            (ordered.punctual.runUntil atRest (Nat.le_refl e.turns) (e.now.later d)).2.1
          exact ⟨later.widen quiet (.advance d) _, rfl⟩
      | finish id next => exact wide.begin_finish id fun _ stage _ => .refl _ stage next
      | _ => exact wide.begin_of_request rfl rfl (by simp) (by simp)

/-- A step, and what the second engine does beside it, before anything goes on. -/
theorem begin (twin : Twin m.idle e e') (ordered : e.Ordered .ahead none)
    (ordered' : e'.Ordered .ahead none) (atRest : e.queue = []) (fresh : st.Fresh m)
    (beside : st.Beside m e st') :
    Twin ((m.after st).leeway (st.Refused m e)) (e.begin st).1 (e'.follow st') ∧
      ∀ other, st' = some other → (∀ id, st.handle? = some id → id ∉ m.mine) →
        (e'.begin other).2 = (e.begin st).2 := by
  cases beside with
  | same =>
      obtain ⟨begun, answer⟩ := twin.begin_same ordered ordered' atRest fresh
      refine ⟨begun, ?_⟩
      rintro _ ⟨⟩ apart
      exact answer apart
  | call same =>
      obtain ⟨begun, answer⟩ := twin.begin_call atRest fresh same
      refine ⟨begun, ?_⟩
      rintro _ ⟨⟩ _
      exact answer
  | calls same =>
      obtain ⟨begun, answer⟩ := twin.begin_calls atRest fresh same
      refine ⟨begun, ?_⟩
      rintro _ ⟨⟩ _
      exact answer
  | finish id code =>
      obtain ⟨begun, answer⟩ := (twin.widen atRest (.finish id _) _).begin_finish id code
      refine ⟨begun, ?_⟩
      rintro _ ⟨⟩ _
      exact answer
  | fewer distinct unseen refused =>
      obtain ⟨begun, answer⟩ := twin.begin_fewer atRest distinct unseen refused
      refine ⟨begun, ?_⟩
      rintro _ ⟨⟩ _
      exact answer
  | @unlooked _ id looks mine =>
      -- The look that is left out touches a handle that is set apart.
      obtain ⟨x, looked, touched⟩ := e.exists_touched looks
      rw [looked]
      refine ⟨(twin.widen atRest st _).touch mine touched (.refl id _), ?_⟩
      rintro _ ⟨⟩
  | @uncalled spec error mine refused =>
      have wide := twin.widen atRest (.call spec) ((Step.call spec).Refused m e)
      refine ⟨?_, by rintro _ ⟨⟩⟩
      simp only [Engine.begin]
      split
      · exact wide
      · refine wide.startRefused refused ⟨List.mem_singleton_self _, mine, error, refused⟩ mine ?_
        exact List.mem_append_right _ (List.mem_singleton_self _)

/-- What the second engine does beside a step, once everything has gone on. -/
theorem rest_follow (ordered : e.Ordered .ahead none) (atRest : e.queue = [])
    (st : Option Step) :
    (e.follow st).rest = e.run st.toList ∧ (e.follow st).rest.queue = [] := by
  cases st with
  | none => exact ⟨rest_of_queue_nil atRest, (rest_of_queue_nil atRest).symm ▸ atRest⟩
  | some st => exact ⟨rfl, (ordered.step atRest st).2⟩

/-- After a step the engines differ no further, once everything has gone on. -/
theorem step (twin : Twin m.idle e e') (ordered : e.Ordered .ahead none)
    (ordered' : e'.Ordered .ahead none) (atRest : e.queue = []) (fresh : st.Fresh m)
    (beside : st.Beside m e st') : Twin (m.after st).idle (e.step st).1 (e'.run st'.toList) := by
  have begun := (twin.begin ordered ordered' atRest fresh beside).1
  obtain ⟨same, quiet⟩ := rest_follow ordered' (twin.queue_nil atRest) st'
  have stepped := begun.rest (refused_begin m e st) (ordered.step atRest st).2 quiet
  rw [same] at stepped
  exact stepped.narrow (ordered.step atRest st).2

/-- What both engines do is answered alike, unless it looks at a handle that is set apart. -/
theorem answer (twin : Twin m.idle e e') (ordered : e.Ordered .ahead none)
    (ordered' : e'.Ordered .ahead none) (atRest : e.queue = []) (fresh : st.Fresh m)
    {other : Step} (beside : st.Beside m e (some other))
    (apart : ∀ id, st.handle? = some id → id ∉ m.mine) :
    (e'.step other).2 = (e.step st).2 :=
  (twin.begin ordered ordered' atRest fresh beside).2 other rfl apart

end Twin

end Engine

/-! ### Schedules -/

namespace Score

open Engine

variable {m : Margin} {e e' : Engine} {score before after : Score}

theorem Suits.of_append (suits : Suits m e (before ++ after)) :
    Suits m e before ∧ Suits (m.through before.first) (e.run before.first) after := by
  induction before generalizing m e with
  | nil => exact ⟨trivial, suits⟩
  | cons x rest ih =>
      obtain ⟨fresh, beside, later⟩ := suits
      obtain ⟨first, second⟩ := ih later
      exact ⟨⟨fresh, beside, first⟩, second⟩

/-- Through schedules in tandem the engines differ no further than they may. -/
theorem twin_run (twin : e.Twin m.idle e') (ordered : e.Ordered .ahead none)
    (ordered' : e'.Ordered .ahead none) (atRest : e.queue = []) (suits : Suits m e score) :
    Engine.Twin (m.through score.first).idle (e.run score.first) (e'.run score.second) := by
  induction score generalizing m e e' with
  | nil => exact twin
  | cons x rest ih =>
      obtain ⟨st, st'⟩ := x
      obtain ⟨fresh, beside, later⟩ := suits
      have stepped := twin.step ordered ordered' atRest fresh beside
      have second : second ((st, st') :: rest) = st'.toList ++ Score.second rest := by
        cases st' <;> rfl
      rw [second, run_append]
      obtain ⟨next, quiet⟩ := ordered.step atRest st
      exact ih stepped next (ordered'.run (twin.queue_nil atRest) _).1 quiet later

/-- A new engine is like itself within any margin. -/
theorem twin_build (m : Margin) (defaults : Overrides) (items : List (Name × Overrides))
    (hooks : Hooks) :
    Engine.Twin m.idle (build defaults items hooks) (build defaults items hooks) where
  board := .refl _ _
  policy := rfl
  desks := .nil
  queue := .nil
  handles := ⟨fun _ _ => rfl, fun _ _ => ⟨rfl, rfl⟩⟩
  tickets := rfl

section Build

variable {defaults : Overrides} {items : List (Name × Overrides)} {hooks : Hooks}

/-- At every moment of schedules in tandem the engines differ no further than they may. -/
theorem Suits.twin (suits : Suits m (build defaults items hooks) (before ++ after)) :
    Engine.Twin (m.through before.first).idle ((build defaults items hooks).run before.first)
      ((build defaults items hooks).run before.second) := by
  have ordered := ordered_build .ahead defaults items hooks
  exact twin_run (twin_build m defaults items hooks) ordered ordered rfl suits.of_append.1

/-- What both do then is answered alike, unless it looks at a handle that is set apart. -/
theorem Suits.answer {st other : Step}
    (suits : Suits m (build defaults items hooks) (before ++ (st, some other) :: after))
    (apart : ∀ id, st.handle? = some id → id ∉ m.mine) :
    (((build defaults items hooks).run before.second).step other).2 =
      (((build defaults items hooks).run before.first).step st).2 := by
  obtain ⟨fresh, beside, _⟩ := suits.of_append.2
  obtain ⟨ordered, atRest⟩ := ordered_run defaults items hooks before.first
  have ordered' := (ordered_run defaults items hooks before.second).1
  refine suits.twin.answer ordered ordered' atRest fresh beside fun id looks => ?_
  rw [Margin.through_eq]
  exact apart id looks

end Build

end Score

/-! ### Nothing but handles -/

/-- Engines that are the same but for the handles of some calls. -/
structure Engine.SameBut (mine : List String) (e e' : Engine) : Prop where
  /-- The clock, circuits, hooks and the journal. -/
  board : e'.board = e.board
  policy : e'.policy = e.policy
  /-- Commands in use, with their pools and calls. -/
  desks : e'.desks = e.desks
  queue : e'.queue = e.queue
  tickets : e'.tickets = e.tickets
  handles : ∀ id, id ∉ mine → e'.handles.get? id = e.handles.get? id

/-- Where no panic is replaced, nothing but handles differs. -/
theorem Engine.Twin.sameBut {mine seen : List String} {e e' : Engine}
    (twin : Engine.Twin (Margin.mk .none mine seen).idle e e') (atRest : e.queue = []) :
    e.SameBut mine e' where
  board := twin.board.eq
  policy := twin.policy
  desks := twin.desks.eq fun _ _ same => same.eq
  queue := by rw [atRest, twin.queue_nil atRest]
  tickets := twin.tickets
  handles := by
    have near : (Margin.mk .none mine seen).Near e.handles e'.handles := twin.handles
    exact near.same

end Bulwark
