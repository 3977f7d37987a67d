import Bulwark.Proofs.Lockstep
import Bulwark.Proofs.Narrowed

/-!
What is asked of engines in lockstep.

Callers see commands, circuits and pools alike in engines that are twins, and what they ask
for is done in both (`Engine.Twin.begin_of_request`). Calls, looks at handles, words to code
that waits and the passing of time are left for later: what comes of them depends on how
handles and queues may differ.
-/

namespace Bulwark

/-- The handle that a step looks at or gives up, by the id of its call. -/
def Step.handle? : Step → Option String
  | .poll id | .await id | .drop id => some id
  | _ => none

namespace Engine.Twin

variable {l : Leeway} {e e' : Engine}

/-- Handles that are the same see the same verdict. -/
theorem verdict? (twin : Twin l e e') (h : Handle) : e'.verdict? h = e.verdict? h := by
  unfold Engine.verdict?
  cases h.source with
  | pending | failed error => rfl
  | call k =>
      rcases twin.call? k with ⟨gone, gone'⟩ | ⟨c, c', here, here', same⟩
      · simp only [gone, gone']
      · simp only [here, here', Option.bind_some, same.verdict]

/-- Twins show the same view of a command. -/
theorem view? (twin : Twin l e e') (n : Name) : e'.view? n = e.view? n := by
  unfold Engine.view?
  rw [twin.board.circuits]
  rcases twin.desks.get? n with ⟨gone, gone'⟩ | ⟨desk, desk', found, found', same⟩
  · simp only [gone, gone']
  · simp only [found, found']
    cases e.board.circuits.get? n with
    | none => rfl
    | some c => simp only [same.settings, same.pool]

theorem describeCommand? (twin : Twin l e e') (n : Name) :
    e'.describeCommand? n = e.describeCommand? n := by
  unfold Engine.describeCommand?
  rw [twin.board.circuits]
  rcases twin.desks.get? n with ⟨gone, gone'⟩ | ⟨desk, desk', found, found', same⟩
  · simp only [gone, gone']
  · simp only [found, found']
    cases e.board.circuits.get? n with
    | none => rfl
    | some c => simp only [same.settings, same.pool]

theorem names (twin : Twin l e e') : e'.names = e.names := by
  simp only [Engine.names, twin.desks.names]

theorem describe (twin : Twin l e e') : e'.describe = e.describe := by
  unfold Engine.describe
  rw [← twin.desks.length_eq]

/-- Twins answer a request to a circuit alike, and stay twins. -/
theorem askCircuit (twin : Twin l e e') (n : Name) (request : Option Request) :
    Twin l (e.askCircuit n request).1 (e'.askCircuit n request).1 ∧
      (e'.askCircuit n request).2 = (e.askCircuit n request).2 := by
  obtain ⟨created, failed⟩ := twin.create n
  unfold Engine.askCircuit
  revert created failed
  rcases e.create n with ⟨x, defect⟩
  rcases e'.create n with ⟨x', defect'⟩
  rintro created (rfl : defect' = defect)
  cases defect' with
  | some defect => exact ⟨created, rfl⟩
  | none =>
      cases request with
      | none => exact ⟨created, rfl⟩
      | some request =>
          obtain ⟨served, reply⟩ := created.board.serve (Board.ringsAlike_bell _) n request
          exact ⟨{ created with board := served }, congrArg Answer.circuit reply⟩

/-- The pool of a command in use is the same in both. -/
theorem pool? (twin : Twin l e e') (n : Name) :
    (e'.desks.get? n).map (·.pool) = (e.desks.get? n).map (·.pool) := by
  rcases twin.desks.get? n with ⟨gone, gone'⟩ | ⟨_, _, found, found', same⟩
  · rw [gone, gone']
  · simp only [found, found', Option.map_some, same.pool]

/-- Twins answer a request to a pool alike, and stay twins. -/
theorem servePool (twin : Twin l e e') (n : Name) (handle : Nat) (request : Option PoolRequest) :
    Twin l (e.servePool n handle request).1 (e'.servePool n handle request).1 ∧
      (e'.servePool n handle request).2 = (e.servePool n handle request).2 := by
  unfold Engine.servePool
  rcases twin.desks.get? n with ⟨gone, gone'⟩ | ⟨desk, desk', found, found', same⟩
  · simp only [gone, gone']
    exact ⟨twin, trivial⟩
  · cases request with
    | none =>
        simp only [found, found']
        exact ⟨twin, trivial⟩
    | some request =>
        simp only [found, found', same.handles, same.pool, twin.tickets]
        split
        · exact ⟨twin, rfl⟩
        · cases request with
          | acquire ticket =>
              simp only
              split
              · exact ⟨twin, rfl⟩
              · cases desk.pool.acquire? with
                | none => exact ⟨twin, by simp only [Option.map_some, same.pool]⟩
                | some pool =>
                    have paid : Twin l (e.updateDesk n fun desk => { desk with pool := pool })
                        (e'.updateDesk n fun desk => { desk with pool := pool }) :=
                      twin.updateDesk _ fun _ _ twins => { twins with pool := rfl }
                    exact ⟨{ paid with tickets := rfl }, by simp only [paid.pool?]⟩
          | release ticket =>
              simp only
              cases e.tickets.get? ticket with
              | none => exact ⟨twin, by simp only [Option.map_some, same.pool]⟩
              | some origin =>
                  have repaid : Twin l
                      (e.updateDesk origin fun desk => { desk with pool := desk.pool.release })
                      (e'.updateDesk origin fun desk => { desk with pool := desk.pool.release }) :=
                    twin.updateDesk _ fun _ _ twins => { twins with pool := by rw [twins.pool] }
                  exact ⟨{ repaid with tickets := rfl }, by simp only [repaid.pool?]⟩
          | race takers | state | describe =>
              exact ⟨twin, by simp only [Option.map_some, same.pool]⟩

/-- Twins answer alike when a pool is cloned, and stay twins. -/
theorem clonePool (twin : Twin l e e') (n : Name) :
    Twin l (e.clonePool n).1 (e'.clonePool n).1 ∧ (e'.clonePool n).2 = (e.clonePool n).2 := by
  unfold Engine.clonePool
  rcases twin.desks.get? n with ⟨gone, gone'⟩ | ⟨desk, desk', found, found', same⟩
  · simp only [gone, gone']
    exact ⟨twin, trivial⟩
  · simp only [found, found', same.handles]
    refine ⟨twin.updateDesk n fun _ _ twins => ?_, trivial⟩
    exact { twins with handles := by rw [twins.handles] }

/-- What is asked of engines that are twins is done and answered alike. -/
theorem begin_of_request (twin : Twin l e e') {st : Step} (uncalled : st.specs = [])
    (unseen : st.handle? = none) (still : ∀ d, st ≠ .advance d)
    (untold : ∀ id next, st ≠ .finish id next) :
    Twin l (e.begin st).1 (e'.begin st).1 ∧ (e'.begin st).2 = (e.begin st).2 := by
  cases st with
  | call spec => cases uncalled
  | calls specs =>
      obtain rfl : specs = [] := uncalled
      exact ⟨twin, rfl⟩
  | advance d => exact absurd rfl (still d)
  | finish id next => exact absurd rfl (untold id next)
  | poll id | await id | drop id => cases unseen
  | change c =>
      simp only [Engine.begin, twin.policy]
      exact ⟨{ twin with policy := rfl }, trivial⟩
  | settings n =>
      simp only [Engine.begin, twin.policy]
      exact ⟨twin, trivial⟩
  | circuit n request => exact twin.askCircuit n request
  | create n =>
      obtain ⟨created, failed⟩ := twin.create n
      simp only [Engine.begin]
      -- Both engines found the same defect, if any, so the cases go together.
      revert created failed
      rcases e.create n with ⟨x, defect⟩
      rcases e'.create n with ⟨x', defect'⟩
      rintro created (rfl : defect' = defect)
      cases defect' with
      | some defect => exact ⟨created, rfl⟩
      | none => exact ⟨created, by simp only [created.view?]⟩
  | get n => exact ⟨twin, by simp only [Engine.begin, twin.view?]⟩
  | describeCommand n => exact ⟨twin, by simp only [Engine.begin, twin.describeCommand?]⟩
  | pool n handle request => exact twin.servePool n handle request
  | clonePool n => exact twin.clonePool n
  | createMany n callers =>
      obtain ⟨created, failed⟩ := twin.create n
      simp only [Engine.begin]
      revert created failed
      rcases e.create n with ⟨x, defect⟩
      rcases e'.create n with ⟨x', defect'⟩
      rintro created (rfl : defect' = defect)
      cases callers with
      | zero => exact ⟨twin, rfl⟩
      | succ callers => cases defect' <;> exact ⟨created, rfl⟩
  | names => exact ⟨twin, by simp only [Engine.begin, twin.names]⟩
  | describe => exact ⟨twin, by simp only [Engine.begin, twin.describe]⟩
  | clone => exact ⟨twin, rfl⟩
  | setHook occasion hook => exact ⟨{ twin with board := twin.board.setHook occasion hook }, rfl⟩

end Engine.Twin

end Bulwark
