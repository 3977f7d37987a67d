import Bulwark.Roster
import Bulwark.Settings

/-!
Pools of tickets.

A pool holds a fixed number of tickets. A ticket is taken only while one is
free, and every ticket taken is given back once. Clones of a pool share its free
tickets, so a ticket may be given back through any of them.
-/

namespace Bulwark

/-- A pool, with the number of its tickets and of those that are free. -/
structure Pool where
  capacity : Nat
  free : Nat
  deriving DecidableEq, Repr, Inhabited

namespace Pool

/-- A pool with all its tickets, unless there are more than a pool can hold. -/
def make? (capacity : Nat) : Option Pool :=
  if capacity ≤ maxTickets then some ⟨capacity, capacity⟩ else none

def full (capacity : Nat) : Pool := ⟨capacity, capacity⟩

def inUse (p : Pool) : Nat := p.capacity - p.free

def acquire? (p : Pool) : Option Pool :=
  if p.free = 0 then none else some { p with free := p.free - 1 }

def release (p : Pool) : Pool := { p with free := p.free + 1 }

/-- How many of several takers at once get a ticket. -/
def race (p : Pool) (takers : Nat) : Nat := min takers p.free

def describe (p : Pool) : String :=
  "AdmissionPool \x7b capacity: " ++ toString p.capacity ++ ", in_use: " ++ toString p.inUse ++
    " \x7d"

theorem of_acquire? {p q : Pool} (granted : p.acquire? = some q) :
    q.capacity = p.capacity ∧ q.free + 1 = p.free := by
  unfold acquire? at granted
  split at granted
  · simp at granted
  · obtain rfl := Option.some.inj granted
    exact ⟨rfl, by simp only; omega⟩

theorem acquire?_isSome (p : Pool) : p.acquire?.isSome = true ↔ 0 < p.free := by
  unfold acquire?
  split <;> simp <;> omega

end Pool

/-- Clones of one pool, with the names under which their tickets are held.
Each clone knows the capacity; the free tickets are common to all. -/
structure SharedPool where
  free : Nat
  clones : List Nat
  held : List Name := []
  deriving DecidableEq, Repr, Inhabited

inductive PoolRequest where
  | acquire (ticket : Name)
  | release (ticket : Name)
  | race (takers : Nat)
  | state
  | describe
  deriving DecidableEq, Repr, Inhabited

inductive PoolReply where
  | yes (granted : Bool)
  | won (tickets : Nat)
  | text (s : String)
  | nothing
  deriving DecidableEq, Repr, Inhabited

namespace SharedPool

def ofPool (p : Pool) : SharedPool := { free := p.free, clones := [p.capacity] }

def view? (p : SharedPool) (clone : Nat) : Option Pool :=
  p.clones[clone]?.map fun capacity => ⟨capacity, p.free⟩

def addClone (p : SharedPool) : SharedPool :=
  { p with clones := p.clones ++ p.clones.take 1 }

/-- Serves a request made on a clone. A ticket that is held cannot be taken
again, and the request is refused, as is a request on a clone that is not there. -/
def serve (p : SharedPool) (clone : Nat) (request : PoolRequest) :
    Option (SharedPool × PoolReply) :=
  match p.view? clone with
  | none => none
  | some pool =>
    match request with
    | .acquire ticket =>
        if ticket ∈ p.held then none
        else match pool.acquire? with
          | some taken => some ({ p with free := taken.free, held := ticket :: p.held }, .yes true)
          | none => some (p, .yes false)
    | .release ticket =>
        if ticket ∈ p.held then
          some ({ p with free := pool.release.free, held := p.held.erase ticket }, .yes true)
        else some (p, .yes false)
    | .race takers => some (p, .won (pool.race takers))
    | .state => some (p, .nothing)
    | .describe => some (p, .text pool.describe)

end SharedPool

end Bulwark
