import Bulwark.Pool
import Mathlib.Data.List.Perm.Basic

/-!
A pool and its clones: no ticket is lost, and none is made.

The clones of a pool have the free tickets in common, while each has the capacity for itself and
works out from both how many tickets are in use. They agree because every deed, on whichever
clone, keeps one invariant: each clone has the capacity that the pool was made with, and the free
tickets make it up together with those that are held (`SharedPool.Sound`).

The pool serves one attempt at a time. Of several that are made at once, the list says in which
order their turns come, and every order is a list. So a scramble is a run of single attempts
(`SharedPool.scramble_eq_after`), and as nothing comes back meanwhile, whoever comes first
is served as long as tickets are left (`SharedPool.scramble_eq`).

* `SharedPool.Sound.after`: the invariant holds after every run of deeds.
* `SharedPool.Sound.conserves`: what it says of the clones, and of what comes next.
* `SharedPool.conserved`: both, for every capacity that a pool can have.
-/

namespace Bulwark

inductive PoolDeed where
  /-- A handle is cloned. -/
  | clone (handle : Nat)
  /-- A request is made on a handle. -/
  | ask (handle : Nat) (request : PoolRequest)
  /-- A ticket is dropped by whoever holds it, without a handle. -/
  | drop (ticket : Name)
  /-- Several attempts are made at once, each on a handle and under a name for its ticket, and
  all tickets are kept. The turns come in the order of the list. -/
  | scramble (takers : List (Nat × Name))
  deriving DecidableEq, Repr, Inhabited

namespace SharedPool

variable {capacity : Nat} {p q : SharedPool} {handle : Nat} {ticket : Name}

/-! ### Deeds -/

def taken (p : SharedPool) (ticket : Name) : SharedPool :=
  { p with free := p.free - 1, held := ticket :: p.held }

def returned (p : SharedPool) (ticket : Name) : SharedPool :=
  { p with free := p.free + 1, held := p.held.erase ticket }

def cloneOf (p : SharedPool) (handle : Nat) : SharedPool :=
  { p with clones := p.clones ++ p.clones[handle]?.toList }

def drop (p : SharedPool) (ticket : Name) : SharedPool :=
  if ticket ∈ p.held then p.returned ticket else p

/-- Makes attempts, one after the other, and tells which tickets were taken. -/
def scramble (p : SharedPool) : List (Nat × Name) → SharedPool × List Name
  | [] => (p, [])
  | (handle, ticket) :: rest =>
      match p.serve handle (.acquire ticket) with
      | none => p.scramble rest
      | some (q, reply) =>
          let (r, won) := q.scramble rest
          (r, if reply = .yes true then ticket :: won else won)

/-- A deed. A request that is refused changes nothing. -/
def perform (p : SharedPool) : PoolDeed → SharedPool
  | .clone handle => p.cloneOf handle
  | .ask handle request => ((p.serve handle request).map (·.1)).getD p
  | .drop ticket => p.drop ticket
  | .scramble takers => (p.scramble takers).1

def after (p : SharedPool) (deeds : List PoolDeed) : SharedPool := deeds.foldl perform p

theorem after_nil (p : SharedPool) : p.after [] = p := rfl

theorem after_cons (p : SharedPool) (deed : PoolDeed) (rest : List PoolDeed) :
    p.after (deed :: rest) = (p.perform deed).after rest := rfl

theorem addClone_eq (p : SharedPool) : p.addClone = p.cloneOf 0 := by
  cases first : p.clones <;> simp [addClone, cloneOf, first]

/-! ### What a request does -/

/-- A pool has views on its clones only. -/
theorem view?_eq_none_iff : p.view? handle = none ↔ p.clones.length ≤ handle := by
  simp only [view?, Option.map_eq_none_iff, List.getElem?_eq_none_iff]

theorem view?_of_lt (there : handle < p.clones.length) :
    p.view? handle = some ⟨p.clones[handle], p.free⟩ := by
  rw [view?, List.getElem?_eq_getElem there, Option.map_some]

theorem serve_of_le (missing : p.clones.length ≤ handle) (request : PoolRequest) :
    p.serve handle request = none := by
  rw [serve, view?_eq_none_iff.mpr missing]

theorem serve_acquire_of_mem (out : ticket ∈ p.held) : p.serve handle (.acquire ticket) = none := by
  cases seen : p.view? handle <;> simp [serve, seen, out]

/-- A ticket is granted exactly when one is free. -/
theorem serve_acquire (there : handle < p.clones.length) (fresh : ticket ∉ p.held) :
    p.serve handle (.acquire ticket) =
      if 0 < p.free then some (p.taken ticket, .yes true) else some (p, .yes false) := by
  rcases Nat.eq_zero_or_pos p.free with none_ | some_
  · simp [serve, view?_of_lt there, fresh, Pool.acquire?, none_]
  · simp [serve, view?_of_lt there, fresh, Pool.acquire?, Nat.ne_of_gt some_, some_, taken]

/-- To give a ticket back answers whether it was out. -/
theorem serve_release (there : handle < p.clones.length) :
    p.serve handle (.release ticket) = some (p.drop ticket, .yes (decide (ticket ∈ p.held))) := by
  by_cases out : ticket ∈ p.held
  · simp [serve, view?_of_lt there, out, drop, returned, Pool.release]
  · simp [serve, view?_of_lt there, out, drop]

/-- Of those who race for tickets as many win as there are free ones. -/
theorem serve_race (there : handle < p.clones.length) (takers : Nat) :
    p.serve handle (.race takers) = some (p, .won (min takers p.free)) := by
  simp only [serve, view?_of_lt there, Pool.race]

/-- A request that is served changes nothing, takes a ticket that is free, or gives one back. -/
theorem of_serve {request : PoolRequest} {reply : PoolReply}
    (served : p.serve handle request = some (q, reply)) :
    q = p ∨ (∃ ticket, ticket ∉ p.held ∧ 0 < p.free ∧ q = p.taken ticket ∧ reply = .yes true) ∨
      ∃ ticket, q = p.drop ticket := by
  have there : handle < p.clones.length := by
    apply Nat.lt_of_not_le
    intro missing
    rw [serve_of_le missing] at served
    cases served
  cases request with
  | acquire ticket =>
      have fresh : ticket ∉ p.held := by
        intro out
        rw [serve_acquire_of_mem out] at served
        cases served
      rw [serve_acquire there fresh] at served
      split at served
      case isTrue some_ =>
        cases served
        exact .inr (.inl ⟨ticket, fresh, some_, rfl, rfl⟩)
      case isFalse =>
        cases served
        exact .inl rfl
  | release ticket =>
      rw [serve_release there] at served
      cases served
      exact .inr (.inr ⟨ticket, rfl⟩)
  | race | state | describe =>
      simp only [serve, view?_of_lt there] at served
      cases served
      exact .inl rfl

/-! ### The invariant -/

/-- Every clone has the capacity, which is what is free together with what is held. -/
structure Sound (capacity : Nat) (p : SharedPool) : Prop where
  present : p.clones ≠ []
  alike : ∀ own ∈ p.clones, own = capacity
  counted : p.free + p.held.length = capacity
  distinct : p.held.Nodup

namespace Sound

theorem ofPool (capacity : Nat) : (ofPool (.full capacity)).Sound capacity where
  present := List.cons_ne_nil _ _
  alike _ member := List.mem_singleton.mp member
  counted := rfl
  distinct := List.nodup_nil

/-- To take a free ticket keeps a pool sound. -/
theorem taken (sound : p.Sound capacity) (fresh : ticket ∉ p.held) (some_ : 0 < p.free) :
    (p.taken ticket).Sound capacity where
  present := sound.present
  alike := sound.alike
  counted := by
    have counted := sound.counted
    simp only [SharedPool.taken, List.length_cons]
    omega
  distinct := List.nodup_cons.mpr ⟨fresh, sound.distinct⟩

/-- To return a ticket that is out keeps a pool sound. -/
theorem returned (sound : p.Sound capacity) (out : ticket ∈ p.held) :
    (p.returned ticket).Sound capacity where
  present := sound.present
  alike := sound.alike
  counted := by
    have counted := sound.counted
    have shorter := List.length_erase_of_mem out
    have some_ := List.length_pos_of_mem out
    simp only [SharedPool.returned]
    omega
  distinct := sound.distinct.erase ticket

theorem drop (sound : p.Sound capacity) (ticket : Name) : (p.drop ticket).Sound capacity := by
  unfold SharedPool.drop
  split
  case isTrue out => exact sound.returned out
  case isFalse => exact sound

/-- A clone of a clone keeps a pool sound. -/
theorem cloneOf (sound : p.Sound capacity) (handle : Nat) :
    (p.cloneOf handle).Sound capacity where
  present := List.append_ne_nil_of_left_ne_nil sound.present _
  alike own member := by
    rcases List.mem_append.mp member with old | new
    · exact sound.alike own old
    · exact sound.alike own (List.mem_of_getElem? (Option.mem_toList.mp new))
  counted := sound.counted
  distinct := sound.distinct

theorem serve (sound : p.Sound capacity) {request : PoolRequest} {reply : PoolReply}
    (served : p.serve handle request = some (q, reply)) : q.Sound capacity := by
  rcases of_serve served with rfl | ⟨ticket, fresh, some_, rfl, _⟩ | ⟨ticket, rfl⟩
  · exact sound
  · exact sound.taken fresh some_
  · exact sound.drop ticket

theorem scramble (sound : p.Sound capacity) (takers : List (Nat × Name)) :
    (p.scramble takers).1.Sound capacity := by
  induction takers generalizing p with
  | nil => exact sound
  | cons taker rest ih =>
      simp only [SharedPool.scramble]
      split
      case h_1 => exact ih sound
      case h_2 served => exact ih (sound.serve served)

/-- Each deed keeps the invariant. -/
theorem perform (sound : p.Sound capacity) (deed : PoolDeed) :
    (p.perform deed).Sound capacity := by
  cases deed with
  | clone handle => exact sound.cloneOf handle
  | ask handle request =>
      cases served : p.serve handle request with
      | none =>
          rw [SharedPool.perform, served]
          exact sound
      | some answer =>
          rw [SharedPool.perform, served]
          exact sound.serve served
  | drop ticket => exact sound.drop ticket
  | scramble takers => exact sound.scramble takers

/-- So a run of deeds keeps it. -/
theorem after (sound : p.Sound capacity) (deeds : List PoolDeed) :
    (p.after deeds).Sound capacity := by
  induction deeds generalizing p with
  | nil => exact sound
  | cons deed rest ih => exact ih (sound.perform deed)

end Sound

/-! ### Attempts at once -/

/-- Attempts at once are attempts one after the other. -/
theorem scramble_eq_after (p : SharedPool) (takers : List (Nat × Name)) :
    (p.scramble takers).1 = p.after (takers.map fun t => .ask t.1 (.acquire t.2)) := by
  induction takers generalizing p with
  | nil => rfl
  | cons taker rest ih =>
      simp only [scramble, List.map_cons, after_cons, perform]
      split
      case h_1 served => simp only [served, ih, Option.map_none, Option.getD_none]
      case h_2 served => simp only [served, ih, Option.map_some, Option.getD_some]

/-- Attempts that can be made: the handles are there, and the names for the tickets are new. -/
structure Ready (p : SharedPool) (takers : List (Nat × Name)) : Prop where
  there : ∀ t ∈ takers, t.1 < p.clones.length
  fresh : ∀ t ∈ takers, t.2 ∉ p.held
  distinct : (takers.map (·.2)).Nodup

namespace Ready

variable {taker : Nat × Name} {takers : List (Nat × Name)}

theorem serve_first (ready : p.Ready (taker :: takers)) :
    p.serve taker.1 (.acquire taker.2) =
      if 0 < p.free then some (p.taken taker.2, .yes true) else some (p, .yes false) :=
  serve_acquire (ready.there _ List.mem_cons_self) (ready.fresh _ List.mem_cons_self)

theorem later (ready : p.Ready (taker :: takers)) : p.Ready takers where
  there t member := ready.there t (List.mem_cons_of_mem _ member)
  fresh t member := ready.fresh t (List.mem_cons_of_mem _ member)
  distinct := (List.nodup_cons.mp ready.distinct).2

/-- Once the first has a ticket, the others can go on. -/
theorem later_taken (ready : p.Ready (taker :: takers)) : (p.taken taker.2).Ready takers where
  there := ready.later.there
  fresh := by
    intro t member out
    rcases List.mem_cons.mp out with same | before
    · exact (List.nodup_cons.mp ready.distinct).1 (List.mem_map.mpr ⟨t, member, same⟩)
    · exact ready.later.fresh t member before
  distinct := ready.later.distinct

end Ready

/-- Whoever comes first gets a ticket, as long as tickets are left. -/
theorem scramble_eq {takers : List (Nat × Name)} (ready : p.Ready takers) :
    p.scramble takers =
      ({ p with
          free := p.free - takers.length
          held := ((takers.map (·.2)).take p.free).reverse ++ p.held },
        (takers.map (·.2)).take p.free) := by
  induction takers generalizing p with
  | nil => simp [scramble]
  | cons taker rest ih =>
      rcases Nat.eq_zero_or_pos p.free with none_ | some_
      · have refused := ready.serve_first
        rw [if_neg (by omega)] at refused
        simp only [scramble, refused]
        rw [ih ready.later]
        simp [none_]
      · have granted := ready.serve_first
        rw [if_pos some_] at granted
        obtain ⟨left, counted⟩ : ∃ left, p.free = left + 1 :=
          Nat.exists_eq_succ_of_ne_zero (Nat.ne_of_gt some_)
        simp only [scramble, granted]
        rw [ih ready.later_taken]
        simp [taken, counted]

/-- Tickets that are held and dropped are free again. -/
theorem after_drops {tickets : List Name} (out : ∀ t ∈ tickets, t ∈ p.held)
    (distinct : tickets.Nodup) :
    p.after (tickets.map .drop) =
      { p with free := p.free + tickets.length, held := p.held.diff tickets } := by
  induction tickets generalizing p with
  | nil => simp [after_nil]
  | cons ticket rest ih =>
      obtain ⟨apart, distinct⟩ := List.nodup_cons.mp distinct
      have here : ticket ∈ p.held := out ticket List.mem_cons_self
      have later : ∀ t ∈ rest, t ∈ (p.returned ticket).held := by
        intro t member
        have other : t ≠ ticket := fun same => apart (same ▸ member)
        exact (List.mem_erase_of_ne other).mpr (out t (List.mem_cons_of_mem _ member))
      rw [List.map_cons, after_cons, perform, drop, if_pos here, ih later distinct]
      simp only [returned, List.length_cons, List.diff_cons, Nat.add_assoc, Nat.add_comm 1]

theorem diff_reverse_append (won held : List Name) : (won.reverse ++ held).diff won = held := by
  rw [List.Perm.diff_left _ (List.reverse_perm won).symm]
  induction won.reverse with
  | nil => rfl
  | cons ticket rest ih => rw [List.cons_append, List.diff_cons, List.erase_cons_head, ih]

/-- What was won in a scramble may be dropped in any order, and the pool is as before. -/
theorem after_scramble_drops {takers : List (Nat × Name)} (ready : p.Ready takers)
    {order : List Name} (all : order.Perm (p.scramble takers).2) :
    (p.scramble takers).1.after (order.map .drop) = p := by
  rw [scramble_eq ready] at all ⊢
  have once : order.Nodup := all.nodup_iff.mpr (ready.distinct.sublist (List.take_sublist _ _))
  have length : order.length = min p.free takers.length := by
    rw [all.length_eq, List.length_take, List.length_map]
  have out : ∀ ticket ∈ order, ticket ∈ ((takers.map (·.2)).take p.free).reverse ++ p.held := by
    intro ticket member
    exact List.mem_append_left _ (List.mem_reverse.mpr (all.mem_iff.mp member))
  rw [after_drops out once]
  have free : p.free - takers.length + order.length = p.free := by omega
  simp only [free, List.Perm.diff_left _ all, diff_reverse_append]

/-! ### What the invariant says -/

/-- What comes of attempts at once, in the order of their turns, where there is room for some. -/
structure Settles (p : SharedPool) (takers : List (Nat × Name)) (room : Nat) : Prop where
  /-- Those whose turns come first get a ticket, and keep it. -/
  won : (p.scramble takers).2 = (takers.map (·.2)).take room
  number : (p.scramble takers).2.length = min takers.length room
  held : (p.scramble takers).1.held = (p.scramble takers).2.reverse ++ p.held
  /-- There is nothing to it but single attempts, so it may be looked at in between. -/
  single : (p.scramble takers).1 = p.after (takers.map fun t => .ask t.1 (.acquire t.2))
  /-- A race of as many takers tells the number. -/
  raced : ∀ handle < p.clones.length,
    p.serve handle (.race takers.length) = some (p, .won (p.scramble takers).2.length)
  /-- Once all that was won has come back, in any order, the pool is as it was. -/
  undone : ∀ order : List Name, order.Perm (p.scramble takers).2 →
    (p.scramble takers).1.after (order.map .drop) = p

/-- The tickets of a pool of some capacity are accounted for, and its clones agree. -/
structure Conserves (capacity : Nat) (p : SharedPool) : Prop where
  held_le : p.held.length ≤ capacity
  /-- There is a handle, and each shows the same. -/
  present : 0 < p.clones.length
  seen : ∀ handle < p.clones.length, ∃ view, p.view? handle = some view ∧
    view.capacity = capacity ∧ view.free = capacity - p.held.length ∧
      view.inUse = p.held.length
  /-- A clone of any handle is one more handle, and takes nothing. -/
  cloned : ∀ handle < p.clones.length,
    p.perform (.clone handle) = { p with clones := p.clones ++ [capacity] }
  added : p.addClone = p.perform (.clone 0)
  /-- An attempt succeeds just when fewer tickets are held than the capacity allows, whichever
  handle it is made on, and takes one ticket then. -/
  acquired : ∀ handle < p.clones.length, ∀ ticket ∉ p.held, ∃ q granted,
    p.serve handle (.acquire ticket) = some (q, .yes granted) ∧
      (granted = true ↔ p.held.length < capacity) ∧
      q.held = (if granted then ticket :: p.held else p.held) ∧ q.clones = p.clones
  /-- A ticket that is held comes back once, dropped or released on whichever handle. -/
  returned : ∀ ticket ∈ p.held, ∃ q, p.perform (.drop ticket) = q ∧
    (∀ handle < p.clones.length, p.serve handle (.release ticket) = some (q, .yes true)) ∧
      q.free = p.free + 1 ∧ q.held.length + 1 = p.held.length ∧
      (∀ other, other ∈ q.held ↔ other ∈ p.held ∧ other ≠ ticket) ∧ q.clones = p.clones
  /-- Nothing comes back for a ticket that is not held. -/
  unreturned : ∀ ticket ∉ p.held, p.perform (.drop ticket) = p ∧
    ∀ handle < p.clones.length, p.serve handle (.release ticket) = some (p, .yes false)
  /-- Attempts at once take as many tickets as are free, in whatever order their turns come. -/
  scrambled : ∀ takers, p.Ready takers → p.Settles takers (capacity - p.held.length)

namespace Sound

/-- What is free is what is not held. -/
theorem free_eq (sound : p.Sound capacity) : p.free = capacity - p.held.length := by
  have counted := sound.counted
  omega

/-- Every clone has the same view. -/
theorem view?_of_lt (sound : p.Sound capacity) (there : handle < p.clones.length) :
    p.view? handle = some ⟨capacity, p.free⟩ := by
  rw [SharedPool.view?_of_lt there, sound.alike _ (List.getElem_mem there)]

theorem inUse_eq (sound : p.Sound capacity) : Pool.inUse ⟨capacity, p.free⟩ = p.held.length := by
  have counted := sound.counted
  simp only [Pool.inUse]
  omega

theorem cloneOf_eq (sound : p.Sound capacity) (there : handle < p.clones.length) :
    p.cloneOf handle = { p with clones := p.clones ++ [capacity] } := by
  rw [SharedPool.cloneOf, List.getElem?_eq_getElem there, Option.toList_some,
    sound.alike _ (List.getElem_mem there)]

theorem granted_iff (sound : p.Sound capacity) : 0 < p.free ↔ p.held.length < capacity := by
  have counted := sound.counted
  omega

/-- A ticket that is dropped frees one place, and only it is no longer held. -/
theorem drop_of_mem (sound : p.Sound capacity) (out : ticket ∈ p.held) :
    (p.drop ticket).free = p.free + 1 ∧ (p.drop ticket).held.length + 1 = p.held.length ∧
      ∀ other, other ∈ (p.drop ticket).held ↔ other ∈ p.held ∧ other ≠ ticket := by
  have some_ := List.length_pos_of_mem out
  rw [SharedPool.drop, if_pos out]
  refine ⟨rfl, ?_, ?_⟩
  · simp only [SharedPool.returned, List.length_erase_of_mem out]
    omega
  · intro other
    rw [SharedPool.returned, sound.distinct.mem_erase_iff, and_comm]

/-- Of takers at once, as many win as there are places left. -/
theorem settles (sound : p.Sound capacity) {takers : List (Nat × Name)}
    (ready : p.Ready takers) : p.Settles takers (capacity - p.held.length) := by
  have eq := scramble_eq ready
  have won : (p.scramble takers).2 = (takers.map (·.2)).take p.free := congrArg (·.2) eq
  have number : (p.scramble takers).2.length = min takers.length p.free := by
    rw [won, List.length_take, List.length_map, Nat.min_comm]
  rw [← sound.free_eq]
  constructor
  case won => exact won
  case number => exact number
  case held => rw [eq]
  case single => exact scramble_eq_after p takers
  case raced =>
    intro handle here
    rw [number, serve_race here]
  case undone =>
    intro order all
    exact after_scramble_drops ready all

theorem conserves (sound : p.Sound capacity) : p.Conserves capacity where
  held_le := sound.counted ▸ Nat.le_add_left _ _
  present := List.length_pos_of_ne_nil sound.present
  seen handle there := ⟨_, sound.view?_of_lt there, rfl, sound.free_eq, sound.inUse_eq⟩
  cloned handle there := sound.cloneOf_eq there
  added := addClone_eq p
  acquired := by
    intro handle there ticket fresh
    rw [serve_acquire there fresh]
    by_cases some_ : 0 < p.free
    · rw [if_pos some_]
      exact ⟨_, _, rfl, by simpa only [true_iff] using sound.granted_iff.mp some_, rfl, rfl⟩
    · rw [if_neg some_]
      have full : ¬ p.held.length < capacity := fun room => some_ (sound.granted_iff.mpr room)
      exact ⟨_, _, rfl, by simpa only [Bool.false_eq_true, false_iff] using full, rfl, rfl⟩
  returned := by
    intro ticket out
    obtain ⟨free, shorter, left⟩ := sound.drop_of_mem out
    refine ⟨_, rfl, ?_, free, shorter, left, ?_⟩
    · intro handle there
      rw [serve_release there, decide_eq_true out, SharedPool.perform]
    · rw [SharedPool.perform, SharedPool.drop, if_pos out, SharedPool.returned]
  unreturned := by
    intro ticket fresh
    have same : p.drop ticket = p := if_neg fresh
    refine ⟨same, ?_⟩
    intro handle there
    rw [serve_release there, same, decide_eq_false fresh]
  scrambled _ ready := sound.settles ready

end Sound

/-- A pool of any capacity that it can have keeps account of its tickets, whatever is done
through its handles. -/
theorem conserved {capacity : Nat} (fits : capacity ≤ Nat.pow 2 61 - 1) (deeds : List PoolDeed) :
    ∃ pool, Pool.make? capacity = some pool ∧
      ((ofPool pool).after deeds).Conserves capacity := by
  refine ⟨.full capacity, ?_, ?_⟩
  · exact if_pos fits
  · have sound := (Sound.ofPool capacity).after deeds
    exact sound.conserves

/-- Four takers on three handles, of which one gets the last ticket that is left, and tickets that
come back elsewhere. -/
theorem conserved_across_clones :
    let deeds : List PoolDeed :=
      [.clone 0, .clone 1, .ask 2 (.acquire "a"), .ask 0 (.acquire "b"),
        .scramble [(1, "c"), (2, "d"), (0, "e"), (1, "f")], .ask 1 (.release "b"), .drop "a",
        .ask 2 (.acquire "a")]
    3 ≤ Nat.pow 2 61 - 1 ∧ ∃ pool, Pool.make? 3 = some pool ∧
      (ofPool pool).after deeds = ⟨1, [3, 3, 3], ["a", "c"]⟩ ∧
      ((ofPool pool).after deeds).Conserves 3 := by
  intro deeds
  have fits : 3 ≤ Nat.pow 2 61 - 1 := by decide
  obtain ⟨pool, made, conserves⟩ := conserved fits deeds
  obtain rfl : .full 3 = pool := Option.some.inj made
  exact ⟨fits, _, made, by decide, conserves⟩

end SharedPool

end Bulwark
