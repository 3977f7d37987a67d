import Bulwark.Proofs.Tandem

/-!
Observing a call does not sway it.

Two schedules are the same, but that the first polls, awaits or drops the handles of some
calls at any points, and the second does not (`Score.Observes`). Calls have ids of their
own. Then nothing is different but those handles (`Engine.Unobserved`): at every moment
both engines have the same clock, circuits, hooks and journal, the same commands, calls
and tickets, and what both do is answered alike.

* `Engine.unobserved`: looks at handles change nothing else.
-/

namespace Bulwark

/-- The second schedule lacks some looks at handles that are set apart, and nothing else. -/
def Score.Observes (mine : List String) (score : Score) : Prop :=
  ∀ x ∈ score, x.2 = some x.1 ∨ x.2 = none ∧ ∃ id ∈ mine, x.1.handle? = some id

namespace Engine

/-- What a schedule that looks at some handles has in common with one that does not. -/
structure Unobserved (start : Engine) (mine : List String) (score : Score) : Prop where
  /-- At every moment nothing but those handles differs. -/
  same : ∀ before after : Score, score = before ++ after →
    (start.run before.first).SameBut mine (start.run before.second)
  /-- What both do is answered alike, unless it looks at such a handle. -/
  answer : ∀ (before : Score) st after, score = before ++ (st, some st) :: after →
    (∀ id, st.handle? = some id → id ∉ mine) →
      ((start.run before.second).step st).2 = ((start.run before.first).step st).2

end Engine

namespace Score

variable {mine : List String} {score : Score}

/-- Schedules that differ in looks are done in tandem. -/
theorem Observes.suits (observes : score.Observes mine) {panics : Panics} {seen : List String}
    (fresh : (seen ++ score.first.flatMap Step.ids).Nodup) (e : Engine) :
    score.Suits ⟨panics, mine, seen⟩ e := by
  induction score generalizing seen e with
  | nil => trivial
  | cons x rest ih =>
      obtain ⟨st, st'⟩ := x
      obtain ⟨own, later⟩ := List.forall_mem_cons.mp observes
      have ids : (seen ++ (st.ids ++ (first rest).flatMap Step.ids)).Nodup := fresh
      refine ⟨?_, ?_, ih later (by rwa [List.append_assoc]) _⟩
      · intro id listed _ known
        have apart := (List.nodup_append.mp ids).2.2
        exact apart id known id (List.mem_append_left _ listed) rfl
      · rcases own with same | ⟨left, id, known, looks⟩
        · obtain rfl : st' = some st := same
          exact .same st
        · obtain rfl : st' = none := left
          exact .unlooked looks known

end Score

namespace Engine

/-- Whoever polls, awaits or drops handles, and whenever, changes nothing but those handles. -/
theorem unobserved (defaults : Overrides) (items : List (Name × Overrides)) (hooks : Hooks)
    (mine : List String) (score : Score) (observes : score.Observes mine)
    (fresh : (score.first.flatMap Step.ids).Nodup) :
    (build defaults items hooks).Unobserved mine score := by
  have suits : score.Suits ⟨.none, mine, []⟩ (build defaults items hooks) :=
    observes.suits fresh _
  constructor
  case same =>
    rintro before after rfl
    have twin := suits.twin
    rw [Margin.through_eq] at twin
    exact twin.sameBut (ordered_run defaults items hooks _).2
  case answer =>
    rintro before st after rfl apart
    exact suits.answer apart

/-- A call is polled before it is resolved and dropped while its fallback runs, which then
fails, and another call is awaited. -/
theorem unobserved_of_dropped :
    let both (st : Step) : Step × Option Step := (st, some st)
    let score : Score := [both (.call ⟨"a", "svc", .manual, some .manual, .detached⟩),
      (.poll "a", none), both (.finish "a" (.fail (.plain ⟨"broken", []⟩))), (.poll "a", none),
      (.drop "a", none), both (.call ⟨"b", "svc", .after ⟨5000000⟩ .succeed, none, .detached⟩),
      both (.finish "a" (.panic (some "lost"))), (.drop "a", none), both (.advance ⟨5000000⟩),
      both (.await "b"), both (.circuit "svc" (some .tally))]
    score.Observes ["a"] ∧ (score.first.flatMap Step.ids).Nodup ∧
      (build {} [] {}).Unobserved ["a"] score := by
  intro both score
  have observes : score.Observes ["a"] := by
    simp [score, both, Score.Observes, Step.handle?]
  exact ⟨observes, by decide, unobserved {} [] {} ["a"] score observes (by decide)⟩

end Engine

end Bulwark
