import Bulwark.Proofs.Turn
import Bulwark.Schedule

/-!
What callers do keeps everything in order.

Callers start calls, tell code how to go on, ask circuits and pools, and read
handles. Tickets that they take by hand are accounted for: an acquired ticket is
taken from the pool and entered under its name (`Ordered.acquire`), and a released
one goes back to the pool it came from (`Ordered.release`). All other steps change
no pool.

* `Ordered.begin`: a step of a caller, other than letting time pass, keeps
  everything in order, whenever it is done.
-/

namespace Bulwark.Engine

variable {r : Regime} {e : Engine} {away : Option CallKey}

/-! ### Handles, policies and hooks -/

/-- Handles and policies do not matter to the calls under way. -/
theorem Ordered.aside (ordered : e.Ordered r none) (handles : Roster Handle) (policy : Policy) :
    ({ e with handles := handles, policy := policy } : Engine).Ordered r none :=
  ordered.besides ⟨rfl, fun _ => id, rfl, rfl, fun _ => id⟩ (by simp) fun _ _ => rfl

/-- A poll of a handle keeps order. -/
theorem Ordered.pollHandle (ordered : e.Ordered r none) (id : String) :
    (e.pollHandle id).1.Ordered r none := by
  unfold Engine.pollHandle
  split
  · exact ordered
  · split
    · exact ordered
    · split
      · exact ordered
      · split
        · exact ordered
        · exact ordered.aside _ e.policy

/-- An await of a handle keeps order. -/
theorem Ordered.awaitHandle (ordered : e.Ordered r none) (id : String) :
    (e.awaitHandle id).1.Ordered r none := by
  have gone := ordered.aside (e.handles.erase id) e.policy
  unfold Engine.awaitHandle
  split
  · exact ordered
  · dsimp only
    split
    · exact gone
    · split
      · exact gone
      · split
        · exact ordered
        · exact gone

/-- A handle that is dropped leaves all in order. -/
theorem Ordered.dropHandle (ordered : e.Ordered r none) (id : String) :
    (e.dropHandle id).1.Ordered r none := by
  unfold Engine.dropHandle
  split
  · exact ordered
  · exact ordered.aside _ e.policy

/-- A change of the board that tells nothing of calls. -/
theorem Ordered.quiet (ordered : e.Ordered r none) {board : Board} (quiet : e.board.Quiet board) :
    ({ e with board := board } : Engine).Ordered r none :=
  ordered.besides ⟨quiet.now, fun _ => id, rfl, rfl, quiet.circuits⟩ (by simp)
    fun i _ => Tale.of_quiet quiet i

/-! ### Starting calls -/

/-- A call that starts is in order from the start. -/
theorem Ordered.startCall (ordered : e.Ordered r none) (spec : CallSpec Script) :
    (e.startCall spec).Ordered r none := by
  unfold Engine.startCall
  split
  · exact (ordered.aside _ e.policy).besides (besides_enqueue _) (by simp) fun _ _ => rfl
  · dsimp only
    cases made : e.execute spec with
    | mk after answer =>
        cases answer with
        | ok i => exact (ordered.execute made).1.aside _ after.policy
        | error error =>
            obtain rfl := execute_of_error made
            exact ordered.aside _ after.policy

theorem Ordered.startCalls (ordered : e.Ordered r none) (specs : List (CallSpec Script)) :
    (specs.foldl Engine.startCall e).Ordered r none := by
  induction specs generalizing e with
  | nil => exact ordered
  | cons spec rest ih => exact ih (ordered.startCall spec)

/-! ### Circuits -/

/-- A request to a circuit keeps order. -/
theorem Ordered.askCircuit (ordered : e.Ordered r none) (command : Name)
    (request : Option Request) : (e.askCircuit command request).1.Ordered r none := by
  have created := ordered.create command
  unfold Engine.askCircuit
  split
  · next made => rwa [made] at created
  · next made => rwa [made] at created
  · next made =>
      rw [made] at created
      exact created.quiet (Board.serve_quiet command _ _)

/-! ### Pools -/

/-- A change of a pool and of the tickets that were taken by hand. -/
theorem Ordered.ledger (ordered : e.Ordered r none) (n : Name) {g : Desk → Desk}
    (tickets : Roster Name) (settings : ∀ desk, (g desk).settings = desk.settings)
    (calls : ∀ desk, (g desk).calls = desk.calls) (labelled : tickets.names.Nodup)
    (origin : ∀ x ∈ tickets, (e.desks.get? x.2).isSome)
    (balanced : ∀ m desk, e.desks.get? m = some desk →
      ({ e.updateDesk n g with tickets := tickets } : Engine).Balanced m
        (if m = n then g desk else desk)) :
    ({ e.updateDesk n g with tickets := tickets } : Engine).Ordered r none := by
  have call : ∀ i, (e.updateDesk n g).call? i = e.call? i := call?_updateDesk_of_calls e n calls
  have used : ∀ m, (((e.updateDesk n g).desks.get? m).isSome = true) ↔
      (e.desks.get? m).isSome = true := by
    intro m
    rw [get?_updateDesk]
    split <;> simp
  -- No call and no turn is touched, so every task is seen to as before.
  have same : Sustains e { e.updateDesk n g with tickets := tickets } := by
    refine ⟨now_updateDesk .., by simp, ?_⟩
    rintro i w ⟨c, here, unread, waits⟩
    exact ⟨c, (call i).trans here, unread, waits⟩
  constructor
  case orderly =>
    constructor
    case distinct => exact nodup_updateDesk ordered.orderly.distinct _ _
    case equipped =>
      intro m present
      rw [board_updateDesk]
      exact ordered.orderly.equipped m ((used m).mp present)
    case usable =>
      intro m desk found
      rw [get?_updateDesk] at found
      split at found
      · obtain ⟨old, before, rfl⟩ := Option.map_eq_some_iff.mp found
        rw [settings]
        exact ordered.orderly.usable m old before
      · exact ordered.orderly.usable m desk found
    case balanced =>
      intro m desk found
      rw [get?_updateDesk] at found
      split at found
      · next at_ =>
          obtain ⟨old, before, rfl⟩ := Option.map_eq_some_iff.mp found
          simpa [at_] using balanced m old before
      · next differ => simpa [differ] using balanced m desk found
    case blank =>
      intro i unknown
      have before : e.tale i = {} := ordered.orderly.blank i ((call i).symm.trans unknown)
      exact (tale_updateDesk ..).trans before
    case labelled => exact labelled
    case origin => exact fun x taken => (used _).mpr (origin x taken)
  case kept =>
    intro i d _ here
    exact (ordered.kept i d (by simp) ((call i).symm.trans here)).mono same (tale_updateDesk ..)

theorem Ordered.clonePool (ordered : e.Ordered r none) (n : Name) :
    (e.clonePool n).1.Ordered r none := by
  unfold Engine.clonePool
  split
  · exact ordered
  · have tickets : (e.updateDesk n fun desk => { desk with handles := desk.handles + 1 }) =
        { e.updateDesk n fun desk => { desk with handles := desk.handles + 1 } with
          tickets := e.tickets } := by
      simp only [updateDesk]
      split <;> rfl
    rw [tickets]
    refine ordered.ledger n e.tickets (fun _ => rfl) (fun _ => rfl) ordered.orderly.labelled
      ordered.orderly.origin fun m desk found => ?_
    have before := ordered.orderly.balanced m desk found
    split <;> exact ⟨before.capacity, before.balance⟩

/-- A ticket is taken from a pool by hand. -/
theorem Ordered.acquire (ordered : e.Ordered r none) {n ticket : Name} {desk : Desk} {pool : Pool}
    (found : e.desks.get? n = some desk) (granted : desk.pool.acquire? = some pool)
    (fresh : e.tickets.get? ticket = none) :
    ({ e.updateDesk n fun desk => { desk with pool := pool } with
      tickets := e.tickets.put ticket n } : Engine).Ordered r none := by
  have orderly := ordered.orderly
  obtain ⟨capacity, free⟩ := Pool.of_acquire? granted
  have entered := Roster.put_of_get?_eq_none n fresh
  refine ordered.ledger n _ (fun _ => rfl) (fun _ => rfl)
    (Roster.nodup_names_put orderly.labelled _ _) ?_ ?_
  · intro x taken
    rw [entered] at taken
    rcases List.mem_append.mp taken with before | last
    · exact orderly.origin x before
    · obtain rfl := List.mem_singleton.mp last
      simp [found]
  · intro m other known
    have before := orderly.balanced m other known
    have counted := before.balance
    simp only [handed] at counted
    split
    · next same =>
        subst same
        obtain rfl := Option.some.inj (found.symm.trans known)
        -- One place less is free, and one ticket more is handed out.
        refine ⟨capacity.trans before.capacity, ?_⟩
        simp only [handed, entered, List.countP_append, List.countP_singleton,
          decide_true, if_true, Desk.seated] at counted ⊢
        omega
    · next differ =>
        refine ⟨before.capacity, ?_⟩
        simpa [handed, entered, Ne.symm differ] using counted

/-- A ticket that was taken by hand goes back to the pool it came from. -/
theorem Ordered.release (ordered : e.Ordered r none) {ticket n : Name}
    (held : e.tickets.get? ticket = some n) :
    ({ e.updateDesk n fun desk => { desk with pool := desk.pool.release } with
      tickets := e.tickets.erase ticket } : Engine).Ordered r none := by
  have orderly := ordered.orderly
  refine ordered.ledger n _ (fun _ => rfl) (fun _ => rfl)
    (Roster.nodup_names_erase orderly.labelled _) ?_ ?_
  · intro x taken
    exact orderly.origin x (List.mem_filter.mp taken).1
  · intro m other known
    have before := orderly.balanced m other known
    have counted := before.balance
    have erased := Roster.countP_erase orderly.labelled (fun x => decide (x.2 = m)) held
    simp only [handed] at counted
    split
    · next same =>
        subst same
        refine ⟨before.capacity, ?_⟩
        simp only [decide_true, if_true] at erased
        simp only [handed, Pool.release, Desk.seated] at counted ⊢
        omega
    · next differ =>
        refine ⟨before.capacity, ?_⟩
        simp only [Ne.symm differ, decide_false, Bool.false_eq_true, if_false] at erased
        simp only [handed]
        omega

/-- A request to a pool keeps order: a ticket by hand is a place of the pool like any other. -/
theorem Ordered.servePool (ordered : e.Ordered r none) (command : Name) (handle : Nat)
    (request : Option PoolRequest) : (e.servePool command handle request).1.Ordered r none := by
  unfold Engine.servePool
  split
  · exact ordered
  · exact ordered
  · next desk request found =>
      split
      · exact ordered
      · cases request with
        | acquire ticket =>
            dsimp only
            split
            · exact ordered
            · next fresh =>
                split
                · exact ordered
                · next pool granted =>
                    exact ordered.acquire found granted (by simpa [Roster.has] using fresh)
        | release ticket =>
            dsimp only
            split
            · exact ordered
            · next origin held => exact ordered.release held
        | race takers => exact ordered
        | state => exact ordered
        | describe => exact ordered

/-! ### Steps -/

/-- A step of a caller keeps everything in order, before anything goes on. -/
theorem Ordered.begin (ordered : e.Ordered r none) {s : Step} (still : ∀ d, s ≠ .advance d) :
    (e.begin s).1.Ordered r none := by
  cases s with
  | call spec =>
      simp only [Engine.begin]
      split
      · exact ordered
      · exact ordered.startCall spec
  | calls specs =>
      simp only [Engine.begin]
      split
      · exact ordered
      · exact ordered.startCalls specs
  | advance d => exact absurd rfl (still d)
  | finish id next =>
      have told := ordered.instruct id next
      simp only [Engine.begin]
      split
      · next instructed => rwa [instructed] at told
      · next instructed => rwa [instructed] at told
  | poll id => exact ordered.pollHandle id
  | await id => exact ordered.awaitHandle id
  | drop id => exact ordered.dropHandle id
  | change c => exact ordered.aside e.handles _
  | circuit command request => exact ordered.askCircuit command request
  | create command =>
      have created := ordered.create command
      simp only [Engine.begin]
      split
      · next made => rwa [made] at created
      · next made => rwa [made] at created
  | createMany command callers =>
      have created := ordered.create command
      simp only [Engine.begin]
      split
      · exact ordered
      · next made => rwa [made] at created
      · next made => rwa [made] at created
  | pool command handle request => exact ordered.servePool command handle request
  | clonePool command => exact ordered.clonePool command
  | setHook occasion hook => exact ordered.quiet (.setHook _ _ .refl)
  | settings | get | describeCommand | names | describe | clone => exact ordered

end Bulwark.Engine
