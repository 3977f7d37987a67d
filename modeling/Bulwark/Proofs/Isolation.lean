import Bulwark.Proofs.Narrowed
import Mathlib.Data.List.Nodup

/-!
Commands are isolated from each other.

From a schedule everything is left out that concerns other commands than one (`project`):
the steps that concern other commands alone, and the shares that other commands have in
the rest. What concerns the one command stays as it is, step by step: how its circuit and
its pool stand, what its calls come to and when, what hooks and code leave in the journal
(`Engine.Isolated`).

That holds where nothing ties commands to each other (`Secluded`): hooks do no actions,
calls have ids of their own, and no call of the command nests a call of another or is
nested in one. It also takes that no ticket is named in requests to pools of both, since a
ticket goes back to the pool that it came from, whichever pool is asked to take it back
(`not_isolated_of_shared_ticket`).

* `Engine.Parted.within_run`: a schedule that respects two sides, narrowed to one of them,
  is a schedule of the restricted engine.
* `Engine.isolated`: commands are isolated from each other.
-/

namespace Bulwark

/-! ### Schedules that respect two sides -/

def project (s : Scope) (steps : List Step) : List Step :=
  (steps.filter (·.keeps s)).map (·.narrow s)

def Step.ids (st : Step) : List String := st.specs.map (·.id)

/-- Every step respects the sides, and makes calls with ids that were not seen before. -/
def Step.AllSuit (s : Scope) : List String → List Step → Prop
  | _, [] => True
  | seen, st :: rest => st.Suits s seen ∧ AllSuit s (seen ++ st.ids) rest

namespace Engine

variable {s : Scope} {seen : List String} {e : Engine}

/-- What a schedule does, restricted, is what the narrowed schedule does to the restricted
engine. -/
theorem Parted.within_run (parted : e.Parted s seen) (ordered : e.Ordered .ahead none)
    (orderedWithin : (e.within s).Ordered .ahead none) (atRest : e.queue = []) {steps : List Step}
    (suit : Step.AllSuit s seen steps) :
    (e.run steps).Parted s (seen ++ steps.flatMap Step.ids) ∧
      (e.run steps).within s = (e.within s).run (project s steps) ∧
        ((e.run steps).within s).Ordered .ahead none := by
  induction steps generalizing e seen with
  | nil => exact ⟨(List.append_nil seen).symm ▸ parted, rfl, orderedWithin⟩
  | cons st rest ih =>
      obtain ⟨own, later⟩ := suit
      have stepped := parted.narrows_step ordered orderedWithin atRest own
      rw [List.flatMap_cons, ← List.append_assoc]
      obtain ⟨orderedNext, atRestNext⟩ := ordered.step atRest st
      by_cases kept : st.keeps s = true
      · have view := stepped.kept kept
        have orderedThen := (orderedWithin.step (within_queue_nil atRest) (st.narrow s)).1
        rw [view] at orderedThen
        obtain ⟨partedRest, same, orderedRest⟩ :=
          ih stepped.parted orderedNext orderedThen atRestNext later
        refine ⟨partedRest, ?_, orderedRest⟩
        rw [project, List.filter_cons_of_pos kept, List.map_cons]
        exact same.trans (by rw [← view]; rfl)
      · have still := stepped.other (eq_false_of_ne_true kept)
        have orderedThen := orderedWithin
        rw [← still] at orderedThen
        obtain ⟨partedRest, same, orderedRest⟩ :=
          ih stepped.parted orderedNext orderedThen atRestNext later
        refine ⟨partedRest, ?_, orderedRest⟩
        rw [project, List.filter_cons_of_neg kept]
        exact same.trans (by rw [still]; rfl)

/-- A new engine reaches from nowhere to nowhere. -/
theorem parted_build (s : Scope) (defaults : Overrides) (items : List (Name × Overrides))
    {hooks : Hooks} (silent : hooks.Silent) : (build defaults items hooks).Parted s [] where
  calls := by simp [build]
  queue := by simp [build]
  handles := by simp [build]
  tickets := by simp [build]
  silent := silent

/-- A new engine without the commands that are not kept is one that was never told of them. -/
theorem within_build (s : Scope) (defaults : Overrides) (items : List (Name × Overrides))
    (hooks : Hooks) :
    (build defaults items hooks).within s =
      build defaults (items.filter fun item => s.commands item.1) hooks := by
  have policies := within_configureAll s.commands items (Policy.setDefaults {} defaults)
  simp only [within, build, Policy.build, policies]
  rfl

end Engine

/-! ### One command and the others -/

/-- The calls that a step may come to make, by their ids and commands. -/
def Step.made : Step → List (String × Name)
  | .call spec => spec.calls
  | .calls specs => specs.flatMap CallSpec.calls
  | .finish _ next => next.calls
  | _ => []

/-- The pool that a step asks for a ticket or gives one back to, and the ticket. -/
def Step.ticket? : Step → Option (Name × Name)
  | .pool n _ (some r) => r.ticket?.map (n, ·)
  | _ => none

/-- One command on one side and all others on the other, as they are in a schedule. Ids of
no call, and tickets that are not named, go with the one command. -/
def Scope.of (A : Name) (steps : List Step) : Scope where
  commands n := n = A
  ours id := (id, A) ∈ steps.flatMap Step.made
  theirs id := (id, A) ∉ steps.flatMap Step.made ∧ ∃ x ∈ steps.flatMap Step.made, x.1 = id
  tickets t := ∀ x ∈ steps.filterMap Step.ticket?, x.2 = t → x.1 = A
  apart id own := by
    have listed := of_decide_eq_true own
    simp [listed]

/-- Nothing ties a command to others: hooks do no actions, calls have ids of their own, and
no call of the command nests a call of another or is nested in one. -/
structure Secluded (A : Name) (hooks : Hooks) (steps : List Step) : Prop where
  silent : hooks.Silent
  quiet : ∀ o hook, .setHook o hook ∈ steps → hook.actions = []
  distinct : ((steps.flatMap Step.made).map (·.1)).Nodup
  nested : ∀ st ∈ steps, ∀ spec ∈ st.specs, ∀ x ∈ spec.calls, x.2 = A ↔ spec.command = A
  /-- Code that is told how to go on nests calls as its call does. -/
  told : ∀ id next, .finish id next ∈ steps → ∀ n, (id, n) ∈ steps.flatMap Step.made →
    ∀ x ∈ next.calls, x.2 = A ↔ n = A

/-- No ticket is named in requests to the pool of a command and in requests to others. -/
def TicketsApart (A : Name) (steps : List Step) : Prop :=
  ∀ x ∈ steps.filterMap Step.ticket?, ∀ y ∈ steps.filterMap Step.ticket?,
    x.2 = y.2 → x.1 = A → y.1 = A

instance (A : Name) (steps : List Step) : Decidable (TicketsApart A steps) :=
  inferInstanceAs (Decidable (∀ x ∈ steps.filterMap Step.ticket?,
    ∀ y ∈ steps.filterMap Step.ticket?, x.2 = y.2 → x.1 = A → y.1 = A))

namespace Step

variable {A : Name} {hooks : Hooks} {steps : List Step}

/-- The calls of a specification are among those that its step makes. -/
theorem calls_subset_made {st : Step} {spec : CallSpec Script} (member : spec ∈ st.specs) :
    spec.calls ⊆ st.made := by
  intro x listed
  cases st with
  | call other =>
      obtain rfl := List.mem_singleton.mp member
      exact listed
  | calls specs => exact List.mem_flatMap.mpr ⟨spec, member, listed⟩
  | _ => cases member

/-- The ids of the calls that a step makes are among those of all that it may come to make. -/
theorem ids_sublist_made (st : Step) : st.ids.Sublist (st.made.map (·.1)) := by
  have first (spec : CallSpec Script) : [spec.id].Sublist (spec.calls.map (·.1)) := by
    simp [CallSpec.calls]
  cases st with
  | call spec => exact first spec
  | calls all =>
      change (all.map (·.id)).Sublist ((all.flatMap CallSpec.calls).map (·.1))
      induction all with
      | nil => simp
      | cons spec rest ih =>
          rw [List.map_cons, List.flatMap_cons, List.map_append]
          exact (first spec).append ih
  | _ => simp [ids, specs]

theorem AllSuit.append {s : Scope} {seen : List String} {before after : List Step} :
    AllSuit s seen (before ++ after) ↔
      AllSuit s seen before ∧ AllSuit s (seen ++ before.flatMap ids) after := by
  induction before generalizing seen with
  | nil => simp [AllSuit]
  | cons st rest ih => simp [AllSuit, ih, and_assoc]

end Step

namespace Secluded

variable {A : Name} {hooks : Hooks} {steps : List Step}

/-- Every call is on the side of its command. -/
theorem knows (secluded : Secluded A hooks steps) {x : String × Name}
    (listed : x ∈ steps.flatMap Step.made) :
    (Scope.of A steps).knows ((Scope.of A steps).commands x.2) x.1 = true := by
  obtain ⟨id, n⟩ := x
  by_cases own : n = A
  · subst own
    simpa [Scope.knows, Scope.of] using listed
  · have foreign : (id, A) ∉ steps.flatMap Step.made := by
      intro twin
      have same := List.inj_on_of_nodup_map secluded.distinct listed twin rfl
      exact own (congrArg Prod.snd same)
    simp only [Scope.knows, Scope.of, own, decide_false, Bool.false_eq_true, if_false]
    exact decide_eq_true ⟨foreign, _, listed, rfl⟩

/-- An id that is known on a side is of a call on that side. -/
theorem exists_of_knows {side : Bool} {id : String}
    (known : (Scope.of A steps).knows side id = true) :
    ∃ n, (id, n) ∈ steps.flatMap Step.made ∧ (Scope.of A steps).commands n = side := by
  cases side with
  | true => exact ⟨A, of_decide_eq_true known, by simp [Scope.of]⟩
  | false =>
      obtain ⟨foreign, ⟨_, n⟩, listed, rfl⟩ := of_decide_eq_true known
      refine ⟨n, listed, ?_⟩
      simp only [Scope.of, decide_eq_false_iff_not]
      rintro rfl
      exact foreign listed

/-- Calls that are nested where they may be are all on one side. -/
theorem fits (secluded : Secluded A hooks steps) {calls : List (String × Name)} {n : Name}
    (listed : calls ⊆ steps.flatMap Step.made) (alike : ∀ x ∈ calls, x.2 = A ↔ n = A) :
    (Scope.of A steps).Fits ((Scope.of A steps).commands n) calls := by
  intro x member
  have same : (Scope.of A steps).commands x.2 = (Scope.of A steps).commands n := by
    simp [Scope.of, alike x member]
  rw [← same]
  exact ⟨secluded.knows (listed member), rfl⟩

/-- A step of a schedule respects the sides, wherever it stands. -/
theorem suits (secluded : Secluded A hooks steps) (tickets : TicketsApart A steps)
    {before after : List Step} {st : Step} (split : steps = before ++ st :: after) :
    st.Suits (Scope.of A steps) (before.flatMap Step.ids) := by
  have here : st ∈ steps := by simp [split]
  have made : st.made ⊆ steps.flatMap Step.made := fun x listed =>
    List.mem_flatMap.mpr ⟨st, here, listed⟩
  have distinct := secluded.distinct
  rw [split, List.flatMap_append, List.flatMap_cons, List.map_append, List.map_append] at distinct
  obtain ⟨_, later, apart⟩ := List.nodup_append.mp distinct
  refine ⟨?_, ?_, ?_, ?_, ?_, ?_⟩
  · exact (List.nodup_append.mp later).1.sublist st.ids_sublist_made
  · intro spec member again
    obtain ⟨other, earlier, there⟩ := List.mem_flatMap.mp again
    obtain ⟨x, listed, same⟩ := List.mem_map.mp (other.ids_sublist_made.subset there)
    have own := st.ids_sublist_made.subset (List.mem_map_of_mem member)
    refine apart spec.id ?_ spec.id (List.mem_append_left _ own) rfl
    exact List.mem_map.mpr ⟨x, List.mem_flatMap.mpr ⟨other, earlier, listed⟩, same⟩
  · intro spec member
    exact secluded.fits (List.Subset.trans (Step.calls_subset_made member) made)
      (secluded.nested st here spec member)
  · rintro id next rfl side known
    obtain ⟨n, listed, rfl⟩ := exists_of_knows known
    exact secluded.fits made (secluded.told id next here n listed)
  · rintro n handle r rfl t named
    have own : (n, t) ∈ steps.filterMap Step.ticket? :=
      List.mem_filterMap.mpr ⟨_, here, by simp [Step.ticket?, named]⟩
    simp only [Scope.of, decide_eq_decide]
    constructor
    · exact fun all => all _ own rfl
    · rintro rfl x listed rfl
      exact tickets _ own x listed rfl rfl
  · rintro o hook rfl
    exact secluded.quiet o hook here

theorem allSuit (secluded : Secluded A hooks steps) (tickets : TicketsApart A steps)
    {before after : List Step} (split : steps = before ++ after) :
    Step.AllSuit (Scope.of A steps) (before.flatMap Step.ids) after := by
  induction after generalizing before with
  | nil => trivial
  | cons st rest ih =>
      have longer : steps = (before ++ [st]) ++ rest := by simp [split]
      have later := ih longer
      rw [List.flatMap_append, List.flatMap_singleton] at later
      exact ⟨secluded.suits tickets split, later⟩

/-- Up to every step a schedule, restricted to the command, is its narrowed schedule. -/
theorem within_run (secluded : Secluded A hooks steps) (tickets : TicketsApart A steps)
    {before after : List Step} (split : steps = before ++ after) (defaults : Overrides)
    (items : List (Name × Overrides)) :
    ((Engine.build defaults items hooks).run before).Parted (.of A steps)
        (before.flatMap Step.ids) ∧
      ((Engine.build defaults items hooks).run before).within (.of A steps) =
        (Engine.build defaults (items.filter fun item => item.1 = A) hooks).run
          (project (.of A steps) before) ∧
        (((Engine.build defaults items hooks).run before).within (.of A steps)).Ordered .ahead
          none := by
  subst split
  have built := Engine.within_build (.of A (before ++ after)) defaults items hooks
  have start := Engine.ordered_build .ahead defaults
    (items.filter fun item => (Scope.of A (before ++ after)).commands item.1) hooks
  rw [← built] at start
  have all : Step.AllSuit (.of A (before ++ after)) [] (before ++ after) :=
    secluded.allSuit tickets (List.nil_append _).symm
  have run := (Engine.parted_build _ defaults items secluded.silent).within_run
    (Engine.ordered_build .ahead defaults items hooks) start rfl (Step.AllSuit.append.mp all).1
  rw [built] at run
  exact run

end Secluded

/-! ### What can be seen of one command -/

namespace Engine

/-- All that can be seen of a command is the same in two engines: its settings, its pool
and its circuit, its calls and what handles tell of them, and its part of the journal. -/
structure SameFor (A : Name) (made : List (String × Name)) (e e' : Engine) : Prop where
  now : e'.now = e.now
  desk : e'.desks.get? A = e.desks.get? A
  circuit : e'.board.circuits.get? A = e.board.circuits.get? A
  settings : e'.policy.settings A = e.policy.settings A
  handles : ∀ id, (id, A) ∈ made → e'.handles.get? id = e.handles.get? id
  journal : (e'.board.journal.filter fun x => x.entry.command = A) =
    e.board.journal.filter fun x => x.entry.command = A

/-- Whatever else a schedule does, up to every step all that can be seen of a command is as
if the schedule had only its share in it, and so is every answer to a step that is left.
The engine in words tells of all commands. -/
structure Isolated (A : Name) (defaults : Overrides) (items : List (Name × Overrides))
    (hooks : Hooks) (steps : List Step) : Prop where
  same : ∀ before after, steps = before ++ after →
    SameFor A (steps.flatMap Step.made) ((build defaults items hooks).run before)
      ((build defaults (items.filter fun item => item.1 = A) hooks).run
        (project (.of A steps) before))
  answer : ∀ before st after, steps = before ++ st :: after →
    st.keeps (.of A steps) = true → st ≠ .names → st ≠ .describe →
      (((build defaults (items.filter fun item => item.1 = A) hooks).run
        (project (.of A steps) before)).step (st.narrow (.of A steps))).2 =
        (((build defaults items hooks).run before).step st).2

/-- What is left of an engine is the same for the command that is kept. -/
theorem sameFor_within (A : Name) (steps : List Step) (e : Engine) :
    SameFor A (steps.flatMap Step.made) e (e.within (.of A steps)) where
  now := rfl
  desk := Roster.get?_only_of_mem _ (by simp [Scope.of])
  circuit := Roster.get?_only_of_mem _ (by simp [Scope.of])
  settings := by
    have own : (e.policy.overrides.only (Scope.of A steps).commands).get? A =
        e.policy.overrides.get? A := Roster.get?_only_of_mem _ (by simp [Scope.of])
    simp only [within, Policy.settings, own]
  handles id listed := by
    have own := (Scope.of A steps).apart id (decide_eq_true listed)
    exact Roster.get?_only_of_mem _ (by simp [Scope.handles, own])
  journal := by
    simp [within, Board.within, Scope.of, List.filter_filter]

/-- Commands are isolated from each other. -/
theorem isolated (A : Name) (defaults : Overrides) (items : List (Name × Overrides)) (hooks : Hooks)
    (steps : List Step) (secluded : Secluded A hooks steps) (tickets : TicketsApart A steps) :
    Isolated A defaults items hooks steps := by
  constructor
  case same =>
    intro before after split
    obtain ⟨_, view, _⟩ := secluded.within_run tickets split defaults items
    rw [← view]
    exact sameFor_within A steps _
  case answer =>
    intro before st after split kept notNames notDescribe
    obtain ⟨parted, view, orderedWithin⟩ := secluded.within_run tickets split defaults items
    obtain ⟨ordered, atRest⟩ := ordered_run defaults items hooks before
    have suits := secluded.suits tickets split
    rw [← view]
    exact (parted.narrows_step ordered orderedWithin atRest suits).answer kept notNames notDescribe

/-- A command whose calls wait for time and to be told, beside another whose code nests
calls, with tickets and settings of both. -/
theorem isolated_of_mixed_schedule :
    let steps : List Step := [
      .change (.configureAll [("a", { maxConcurrent := some 1 }), ("b", {})]),
      .calls [⟨"slow", "a", .after ⟨5000000⟩ .manual, some .succeed, .detached⟩,
        ⟨"outer", "b", .nested ⟨"inner", "b", .after ⟨3000000⟩ .succeed, none, .detached⟩, none,
          .awaited⟩],
      .pool "b" 0 (some (.acquire "t")), .pool "a" 0 (some (.acquire "u")),
      .advance ⟨5000000⟩, .poll "outer", .finish "slow" (.fail (.call .timeout)),
      .circuit "b" (some .forceOpen), .setHook .reported ⟨"heard", []⟩, .await "slow",
      .circuit "a" (some .tally)]
    (project (.of "a" steps) steps).length = 8 ∧ Secluded "a" {} steps ∧ TicketsApart "a" steps ∧
      Isolated "a" {} [] {} steps := by
  intro steps
  have secluded : Secluded "a" {} steps := by
    refine ⟨Hooks.silent_empty, ?_, by decide, ?_, ?_⟩
    · simp [steps]
    · simp [steps, Step.specs, CallSpec.calls, Script.calls]
    · simp [steps, Script.calls]
  have tickets : TicketsApart "a" steps := by decide
  exact ⟨by decide, secluded, tickets, isolated "a" {} [] {} steps secluded tickets⟩

/-- A ticket goes back to the pool it came from, whichever pool is asked to take it back:
where a request to the pool of another command names it, the commands are not isolated,
though nothing else ties them and no timer is ever pending. -/
theorem not_isolated_of_shared_ticket :
    let steps : List Step := [.create "a", .create "b", .pool "a" 0 (some (.acquire "t")),
      .pool "b" 0 (some (.release "t")), .pool "a" 0 (some .state)]
    Secluded "a" {} steps ∧
      (∀ i ≤ 5, ((build {} [] {}).run (steps.take i)).alarms = []) ∧
        ¬ Isolated "a" {} [] {} steps := by
  intro steps
  refine ⟨⟨Hooks.silent_empty, ?_, by decide, ?_, ?_⟩, by decide, ?_⟩
  · simp [steps]
  · simp [steps, Step.specs]
  · simp [steps]
  · intro isolated
    have same := (isolated.same steps [] (by simp)).desk
    have counted := congrArg (Option.map fun desk => desk.pool.inUse) same
    revert counted
    decide

end Engine

end Bulwark
