import Bulwark.Proofs.Restricted

/-!
Steps of callers keep to their side.

* `Engine.Follows.pollHandle`, `Engine.Follows.awaitHandle`, `Engine.Follows.dropHandle`:
  a handle is used on the side of its call.
* `Engine.Follows.servePool`: a pool is asked on the side of its command, with tickets of
  that side.
* `Engine.Follows.begin`: so a step that concerns commands of one side only is done alike
  by an engine and by what follows it, and answered alike.
-/

namespace Bulwark

def PoolRequest.ticket? : PoolRequest → Option Name
  | .acquire ticket | .release ticket => some ticket
  | .race _ | .state | .describe => none

/-- The step concerns commands of one side, and nothing of the other. -/
def Step.On (s : Scope) (seen : List String) (side : Bool) : Step → Prop
  | .call spec => s.Fits side spec.calls ∧ spec.id ∈ seen
  | .finish id next => s.knows side id = true ∧ s.Fits side next.calls
  | .poll id | .await id | .drop id => s.handles id = side
  | .change (.configure n _) => s.commands n = side
  | .settings n | .circuit n _ | .create n | .get n | .describeCommand n | .clonePool n
  | .createMany n _ => s.commands n = side
  | .pool n _ request =>
      s.commands n = side ∧ ∀ r, request = some r → ∀ t, r.ticket? = some t → s.tickets t = side
  | .calls _ | .advance _ | .change (.setDefaults _) | .change (.configureAll _) | .names
  | .describe | .clone | .setHook _ _ => False

namespace Engine

variable {s : Scope} {seen : List String} {side : Bool} {origin x e : Engine} {n : Name}

namespace Follows

/-! ### Handles -/

theorem handle (follows : Follows s seen side origin x e) {id : String}
    (on : s.handles id = side) : x.handles.get? id = e.handles.get? id := by
  rw [follows.view]
  cases side with
  | true => exact Roster.get?_only_of_mem _ on
  | false => rfl

theorem verdict? (follows : Follows s seen side origin x e) {id : String}
    (on : s.handles id = side) {h : Handle} (found : e.handles.get? id = some h) :
    x.verdict? h = e.verdict? h := by
  cases source : h.source with
  | pending => simp only [Engine.verdict?, source]
  | failed error => simp only [Engine.verdict?, source]
  | call k =>
      have owner := (follows.parted.handles _ (Roster.mem_of_get? found)).2 k source
      simp only [Engine.verdict?, source, follows.call? (owner.trans on)]

/-- A handle that is written again keeps its source. -/
theorem rewriteHandle (follows : Follows s seen side origin x e) {id : String}
    (on : s.handles id = side) {h h' : Handle} (found : e.handles.get? id = some h)
    (same : h'.source = h.source) :
    Follows s seen side origin { x with handles := x.handles.put id h' }
      { e with handles := e.handles.put id h' } := by
  obtain ⟨known, owner⟩ := follows.parted.handles _ (Roster.mem_of_get? found)
  exact follows.putHandle on known fun i here => (owner i (same ▸ here)).trans on

/-- A handle of a side is polled alike. -/
theorem pollHandle (follows : Follows s seen side origin x e) {id : String}
    (on : s.handles id = side) :
    Follows s seen side origin (x.pollHandle id).1 (e.pollHandle id).1 ∧
      (x.pollHandle id).2 = (e.pollHandle id).2 := by
  unfold Engine.pollHandle
  rw [follows.handle on]
  cases found : e.handles.get? id with
  | none => exact ⟨follows, rfl⟩
  | some h =>
      simp only [follows.verdict? on found]
      split
      · exact ⟨follows, rfl⟩
      · split
        · exact ⟨follows, rfl⟩
        · split
          · exact ⟨follows, rfl⟩
          · exact ⟨follows.rewriteHandle on found rfl, rfl⟩

/-- A handle of a side is awaited alike. -/
theorem awaitHandle (follows : Follows s seen side origin x e) {id : String}
    (on : s.handles id = side) :
    Follows s seen side origin (x.awaitHandle id).1 (e.awaitHandle id).1 ∧
      (x.awaitHandle id).2 = (e.awaitHandle id).2 := by
  have gone := follows.eraseHandle on
  unfold Engine.awaitHandle
  rw [follows.handle on]
  cases found : e.handles.get? id with
  | none => exact ⟨follows, rfl⟩
  | some h =>
      simp only [follows.verdict? on found]
      split
      · exact ⟨gone, rfl⟩
      · split
        · exact ⟨gone, rfl⟩
        · split
          · exact ⟨follows, rfl⟩
          · exact ⟨gone, rfl⟩

theorem dropHandle (follows : Follows s seen side origin x e) {id : String}
    (on : s.handles id = side) :
    Follows s seen side origin (x.dropHandle id).1 (e.dropHandle id).1 ∧
      (x.dropHandle id).2 = (e.dropHandle id).2 := by
  unfold Engine.dropHandle
  rw [follows.handle on]
  split
  · exact ⟨follows, rfl⟩
  · exact ⟨follows.eraseHandle on, rfl⟩

/-! ### Circuits, pools and settings -/

theorem view? (follows : Follows s seen side origin x e) (on : s.commands n = side) :
    x.view? n = e.view? n := by
  simp only [Engine.view?, follows.desk on, follows.board.circuit on]

theorem describeCommand? (follows : Follows s seen side origin x e) (on : s.commands n = side) :
    x.describeCommand? n = e.describeCommand? n := by
  simp only [Engine.describeCommand?, follows.desk on, follows.board.circuit on]

/-- A circuit of a side answers a request alike. -/
theorem askCircuit (follows : Follows s seen side origin x e) (on : s.commands n = side)
    (request : Option Request) :
    Follows s seen side origin (x.askCircuit n request).1 (e.askCircuit n request).1 ∧
      (x.askCircuit n request).2 = (e.askCircuit n request).2 := by
  obtain ⟨created, same⟩ := follows.create on
  unfold Engine.askCircuit
  revert created same
  rcases x.create n with ⟨x', defect⟩
  rcases e.create n with ⟨e', defect'⟩
  rintro created rfl
  cases defect with
  | some defect => exact ⟨created, rfl⟩
  | none =>
      cases request with
      | none => exact ⟨created, rfl⟩
      | some request =>
          obtain ⟨served, reply⟩ := created.board.serve on request
          exact ⟨created.setBoard served, congrArg Answer.circuit reply⟩

theorem ticket (follows : Follows s seen side origin x e) {t : Name} (on : s.tickets t = side) :
    x.tickets.get? t = e.tickets.get? t := by
  rw [follows.view]
  cases side with
  | true => exact Roster.get?_only_of_mem _ on
  | false => rfl

theorem putTicket (follows : Follows s seen side origin x e) {t : Name} (on : s.tickets t = side)
    (owner : s.commands n = side) :
    Follows s seen side origin { x with tickets := x.tickets.put t n }
      { e with tickets := e.tickets.put t n } := by
  refine follows.of_change (f := fun e => { e with tickets := e.tickets.put t n })
    { follows.parted with tickets := ?_ } ?_ ?_
  · intro entry member
    rcases Roster.mem_put member with rfl | old
    · exact owner.trans on.symm
    · exact follows.parted.tickets entry old
  · intro kept
    simp [within, Roster.only_put _ (on.trans kept)]
  · intro other
    simp [within, Roster.only_put_of_not _ (on.trans other)]

theorem eraseTicket (follows : Follows s seen side origin x e) {t : Name}
    (on : s.tickets t = side) :
    Follows s seen side origin { x with tickets := x.tickets.erase t }
      { e with tickets := e.tickets.erase t } := by
  refine follows.of_change (f := fun e => { e with tickets := e.tickets.erase t })
    { follows.parted with tickets := ?_ } ?_ ?_
  · exact fun entry member => follows.parted.tickets entry (List.mem_filter.mp member).1
  · intro _
    simp [within, Roster.only_erase]
  · intro other
    simp [within, Roster.only_erase_of_not _ (on.trans other)]

/-- The answer of a pool tells how the pool of the command then stands. -/
theorem poolAnswer (follows : Follows s seen side origin x e) (on : s.commands n = side)
    (desk : Desk) (r : PoolReply) :
    Answer.pool r (((x.desks.get? n).map (·.pool)).getD desk.pool) =
      .pool r (((e.desks.get? n).map (·.pool)).getD desk.pool) := by
  rw [follows.desk on]

/-- A pool of a side answers a request alike. -/
theorem servePool (follows : Follows s seen side origin x e) (on : s.commands n = side)
    (handle : Nat) (request : Option PoolRequest)
    (tickets : ∀ r, request = some r → ∀ t, r.ticket? = some t → s.tickets t = side) :
    Follows s seen side origin (x.servePool n handle request).1 (e.servePool n handle request).1 ∧
      (x.servePool n handle request).2 = (e.servePool n handle request).2 := by
  unfold Engine.servePool
  rw [follows.desk on]
  cases found : e.desks.get? n with
  | none => exact ⟨follows, rfl⟩
  | some desk =>
      cases request with
      | none => exact ⟨follows, rfl⟩
      | some request =>
          by_cases absent : desk.handles ≤ handle
          · simp only [absent, if_true]
            exact ⟨follows, trivial⟩
          · simp only [absent, if_false]
            -- Only taking and giving back change a pool, the rest is answered from the desk.
            cases request with
            | acquire t =>
                have own := tickets _ rfl t rfl
                simp only [Roster.has, follows.ticket own]
                by_cases held : (e.tickets.get? t).isSome = true
                · simp only [held, if_true]
                  exact ⟨follows, trivial⟩
                · simp only [held, Bool.false_eq_true, if_false]
                  cases desk.pool.acquire? with
                  | none => exact ⟨follows, follows.poolAnswer on desk _⟩
                  | some pool =>
                      have taken := (follows.updateDesk on
                        (f := fun desk => { desk with pool := pool }) fun _ => id).putTicket own on
                      rw [tickets_updateDesk, tickets_updateDesk] at taken
                      exact ⟨taken, taken.poolAnswer on desk _⟩
            | release t =>
                have own := tickets _ rfl t rfl
                simp only [follows.ticket own]
                cases known : e.tickets.get? t with
                | none => exact ⟨follows, follows.poolAnswer on desk _⟩
                | some owner =>
                    -- The ticket goes back to the pool it is from, whichever pool is asked.
                    have there := (follows.parted.tickets _ (Roster.mem_of_get? known)).trans own
                    have given := (follows.updateDesk there
                      (f := fun desk => { desk with pool := desk.pool.release })
                      fun _ => id).eraseTicket own
                    rw [tickets_updateDesk, tickets_updateDesk] at given
                    exact ⟨given, given.poolAnswer on desk _⟩
            | race takers => exact ⟨follows, follows.poolAnswer on desk _⟩
            | state => exact ⟨follows, follows.poolAnswer on desk _⟩
            | describe => exact ⟨follows, follows.poolAnswer on desk _⟩

theorem clonePool (follows : Follows s seen side origin x e) (on : s.commands n = side) :
    Follows s seen side origin (x.clonePool n).1 (e.clonePool n).1 ∧
      (x.clonePool n).2 = (e.clonePool n).2 := by
  unfold Engine.clonePool
  rw [follows.desk on]
  split
  · exact ⟨follows, rfl⟩
  · exact ⟨follows.updateDesk on fun _ => id, rfl⟩

/-- The overrides of a command are replaced. -/
theorem configure (follows : Follows s seen side origin x e) (on : s.commands n = side)
    (o : Overrides) :
    Follows s seen side origin { x with policy := x.policy.configure n o }
      { e with policy := e.policy.configure n o } := by
  refine follows.of_change (f := fun e => { e with policy := e.policy.configure n o })
    { follows.parted with } ?_ ?_
  · intro kept
    simp [within, Policy.configure, Roster.only_put _ (on.trans kept)]
  · intro other
    simp [within, Policy.configure, Roster.only_put_of_not _ (on.trans other)]

/-- A step that concerns one side is done alike, and answered alike. -/
theorem begin (follows : Follows s seen side origin x e) {st : Step}
    (on : st.On s seen side) :
    Follows s seen side origin (x.begin st).1 (e.begin st).1 ∧
      (x.begin st).2 = (e.begin st).2 := by
  cases st with
  | call spec =>
      obtain ⟨fits, known⟩ := on
      have same : x.handles.has spec.id = e.handles.has spec.id := by
        have known := Scope.handles_of_knows (fits _ List.mem_cons_self).1
        rw [Roster.has, Roster.has, follows.handle known]
      simp only [Engine.begin, same]
      split
      · exact ⟨follows, rfl⟩
      · exact ⟨follows.startCall fits known, rfl⟩
  | finish id next =>
      obtain ⟨known, fits⟩ := on
      obtain ⟨told, same⟩ := follows.instruct known fits
      simp only [Engine.begin]
      revert told same
      rcases x.instruct id next with ⟨x', heard⟩
      rcases e.instruct id next with ⟨e', heard'⟩
      rintro told rfl
      cases heard <;> exact ⟨told, rfl⟩
  | poll id => exact follows.pollHandle on
  | await id => exact follows.awaitHandle on
  | drop id => exact follows.dropHandle on
  | change c =>
      cases c with
      | configure n o => exact ⟨follows.configure on o, rfl⟩
      | setDefaults o => exact on.elim
      | configureAll items => exact on.elim
  | settings n => exact ⟨follows, congrArg Answer.settings (follows.settings on)⟩
  | circuit n request => exact follows.askCircuit on request
  | create n =>
      obtain ⟨created, same⟩ := follows.create on
      simp only [Engine.begin]
      revert created same
      rcases x.create n with ⟨x', defect⟩
      rcases e.create n with ⟨e', defect'⟩
      rintro created rfl
      cases defect with
      | some defect => exact ⟨created, rfl⟩
      | none =>
          refine ⟨created, ?_⟩
          simp only [created.view? on]
  | get n =>
      refine ⟨follows, ?_⟩
      simp only [Engine.begin, follows.view? on]
  | describeCommand n =>
      refine ⟨follows, ?_⟩
      simp only [Engine.begin, follows.describeCommand? on]
  | pool n handle request => exact follows.servePool on.1 handle request on.2
  | clonePool n => exact follows.clonePool on
  | createMany n callers =>
      obtain ⟨created, same⟩ := follows.create on
      simp only [Engine.begin]
      revert created same
      rcases x.create n with ⟨x', defect⟩
      rcases e.create n with ⟨e', defect'⟩
      rintro created rfl
      cases callers with
      | zero => exact ⟨follows, rfl⟩
      | succ callers => cases defect <;> exact ⟨created, rfl⟩
  | calls | advance | names | describe | clone | setHook => exact on.elim

end Follows

end Engine

end Bulwark
