import Bulwark.Board

/-!
Commands apart from others: their circuits and what the journal tells of them.

A board is restricted to some of its commands (`Board.within`): the circuits of
the others are taken away, and all that the journal tells of them. What is asked of
a circuit on one side either happens in the same way on the restricted board, or
leaves no trace there. Both are told by one relation (`Board.Follows`), which is
carried from request to request, given that hooks do no actions.

* `Roster.only_put`, `Roster.only_erase`: entering names and taking them off commutes
  with the restriction.
* `Board.Follows.allow`, `Board.Follows.report`, `Board.Follows.serve`: requests to a
  circuit keep to its side.
-/

namespace Bulwark

namespace Roster

variable {α : Type}

def only (p : Name → Bool) (r : Roster α) : Roster α := r.filter fun entry => p entry.1

/-- A restricted roster knows the names that are kept, and no others. -/
theorem get?_only (p : Name → Bool) (r : Roster α) (name : Name) :
    (r.only p).get? name = if p name then r.get? name else none := by
  induction r with
  | nil => simp [only]
  | cons entry rest ih =>
      obtain ⟨n, a⟩ := entry
      simp only [only] at ih ⊢
      by_cases kept : p n = true
      · rw [List.filter_cons_of_pos (by exact kept)]
        simp only [get?, ih]
        by_cases same : n = name
        · subst same
          simp [kept]
        · simp [same]
      · rw [List.filter_cons_of_neg (by exact kept), ih]
        by_cases same : n = name
        · subst same
          simp [kept]
        · simp [get?, same]

theorem get?_only_of_mem {p : Name → Bool} (r : Roster α) {name : Name} (kept : p name = true) :
    (r.only p).get? name = r.get? name := by
  rw [get?_only, if_pos kept]

/-- A name that is kept is entered as before. -/
theorem only_put {p : Name → Bool} (r : Roster α) {name : Name} (kept : p name = true) (a : α) :
    (r.put name a).only p = (r.only p).put name a := by
  induction r with
  | nil => simp [only, put, kept]
  | cons entry rest ih =>
      obtain ⟨n, b⟩ := entry
      simp only [only] at ih
      by_cases same : n = name
      · subst same
        simp [only, put, kept]
      · by_cases among : p n = true
        · simp [only, put, same, among, ih]
        · simp [only, put, same, among, ih]

/-- A name that is not kept leaves no trace. -/
theorem only_put_of_not {p : Name → Bool} (r : Roster α) {name : Name} (out : p name = false)
    (a : α) : (r.put name a).only p = r.only p := by
  induction r with
  | nil => simp [only, put, out]
  | cons entry rest ih =>
      obtain ⟨n, b⟩ := entry
      simp only [only] at ih
      by_cases same : n = name
      · subst same
        simp [only, put, out]
      · simp [only, put, same, List.filter_cons, ih]

theorem only_erase (p : Name → Bool) (r : Roster α) (name : Name) :
    (r.erase name).only p = (r.only p).erase name := by
  simp only [only, erase, List.filter_filter]
  exact List.filter_congr fun entry _ => Bool.and_comm ..

theorem only_erase_of_not {p : Name → Bool} (r : Roster α) {name : Name} (out : p name = false) :
    (r.erase name).only p = r.only p := by
  simp only [only, erase, List.filter_filter]
  refine List.filter_congr fun entry _ => ?_
  by_cases same : entry.1 = name
  · simp [same, out]
  · simp [same]

/-- An entry after a name was entered is the new one or was there before. -/
theorem mem_put {r : Roster α} {name : Name} {a : α} {entry : Name × α}
    (member : entry ∈ r.put name a) : entry = (name, a) ∨ entry ∈ r := by
  induction r with
  | nil => exact .inl (List.mem_singleton.mp member)
  | cons first rest ih =>
      obtain ⟨n, b⟩ := first
      simp only [put] at member
      split at member
      · next same =>
          rcases List.mem_cons.mp member with new | old
          · exact .inl (by rw [new, same])
          · exact .inr (List.mem_cons_of_mem _ old)
      · rcases List.mem_cons.mp member with same | later
        · exact .inr (same ▸ List.mem_cons_self)
        · rcases ih later with new | old
          · exact .inl new
          · exact .inr (List.mem_cons_of_mem _ old)

end Roster

def Entry.command : Entry → Name
  | .issued k _ _ | .operation k _ _ | .fallback k _ _ | .ended k _ _ | .resolved k _ => k.command
  | .hook _ n _ | .action n _ _ | .asked n _ _ _ | .recorded n _ _ | .remark n _ => n

def Hooks.Silent (h : Hooks) : Prop := ∀ o hook, h.get? o = some hook → hook.actions = []

/-- Where no hook is set, none does an action. -/
theorem Hooks.silent_empty : Hooks.Silent {} := by
  intro o hook set
  rcases o with s | _
  · cases s <;> cases set
  · cases set

namespace Board

def within (p : Name → Bool) (b : Board) : Board :=
  { b with circuits := b.circuits.only p, journal := b.journal.filter fun x => p x.entry.command }

/-- One board follows another on a side: on the side that is kept it is the other board
without the commands that are not kept, and on the other side nothing that is kept has
changed. -/
structure Follows (p : Name → Bool) (side : Bool) (origin x b : Board) : Prop where
  silent : b.hooks.Silent
  view : x = if side then b.within p else b
  still : side = false → b.within p = origin

namespace Follows

variable {p : Name → Bool} {side : Bool} {origin x b : Board} {n : Name}

theorem now (follows : Follows p side origin x b) : x.now = b.now := by
  rw [follows.view]
  cases side <;> rfl

theorem hooks (follows : Follows p side origin x b) : x.hooks = b.hooks := by
  rw [follows.view]
  cases side <;> rfl

theorem circuit (follows : Follows p side origin x b) (on : p n = side) :
    x.circuits.get? n = b.circuits.get? n := by
  rw [follows.view]
  cases side with
  | true => exact Roster.get?_only_of_mem _ on
  | false => rfl

theorem note (follows : Follows p side origin x b) {e : Entry} (on : p e.command = side) :
    Follows p side origin (x.note e) (b.note e) := by
  refine ⟨follows.silent, ?_, ?_⟩
  · rw [follows.view]
    cases side with
    | true => simp [Board.note, within, on]
    | false => rfl
  · intro other
    rw [← follows.still other]
    simp [Board.note, within, on, other]

theorem putCircuit (follows : Follows p side origin x b) (on : p n = side) (c : Circuit) :
    Follows p side origin (x.putCircuit n c) (b.putCircuit n c) := by
  refine ⟨follows.silent, ?_, ?_⟩
  · rw [follows.view]
    cases side with
    | true => simp [Board.putCircuit, within, Roster.only_put _ on]
    | false => rfl
  · intro other
    rw [← follows.still other]
    simp [Board.putCircuit, within, Roster.only_put_of_not _ (on.trans other)]

/-- A hook that does no actions only leaves its label. -/
theorem bell (follows : Follows p side origin x b) (on : p n = side) (o : Occasion)
    (r : Option Report) : Follows p side origin (bell o n r x) (bell o n r b) := by
  simp only [Board.bell, ring, follows.hooks]
  cases set : b.hooks.get? o with
  | none => exact follows
  | some hook =>
      simp only [follows.silent o hook set, List.foldl_nil]
      exact follows.note (by exact on)

theorem tell (follows : Follows p side origin x b) (on : p n = side) (news : Option News) :
    Follows p side origin (tell Board.bell n news x) (tell Board.bell n news b) := by
  rcases news with _ | ⟨shift⟩ | _
  · exact follows
  · exact (follows.note (e := .remark n (.told (.shifted shift))) on).bell on _ _
  · exact follows.note (e := .remark n (.told .rearmed)) on

theorem take (follows : Follows p side origin x b) (on : p n = side) (step : Circuit.Step) :
    Follows p side origin (take Board.bell n step x) (take Board.bell n step b) :=
  (follows.putCircuit on _).tell on _

/-- A circuit of a side gives the same answer to a question. -/
theorem allow (follows : Follows p side origin x b) (on : p n = side) (caller : Option CallKey) :
    Follows p side origin (allow Board.bell caller n x).1 (allow Board.bell caller n b).1 ∧
      (allow Board.bell caller n x).2 = (allow Board.bell caller n b).2 := by
  unfold Board.allow
  rw [follows.circuit on]
  cases b.circuits.get? n with
  | none => exact ⟨follows, rfl⟩
  | some c =>
      simp only [follows.now]
      exact ⟨(follows.note (by exact on)).take on _, trivial⟩

/-- A report to a circuit of a side is followed. -/
theorem report (follows : Follows p side origin x b) (on : p n = side) (caller : Option CallKey)
    (r : Report) :
    Follows p side origin (report Board.bell caller n r x) (report Board.bell caller n r b) := by
  unfold Board.report
  rw [follows.circuit on]
  cases b.circuits.get? n with
  | none => exact follows
  | some c =>
      simp only [follows.now]
      exact ((follows.note (by exact on)).take on _).bell on _ _

theorem allowMany (follows : Follows p side origin x b) (on : p n = side) (askers : Nat) :
    Follows p side origin (allowMany Board.bell n askers x).1 (allowMany Board.bell n askers b).1 ∧
      (allowMany Board.bell n askers x).2 = (allowMany Board.bell n askers b).2 := by
  induction askers generalizing x b with
  | zero => exact ⟨follows, rfl⟩
  | succ askers ih =>
      obtain ⟨asked, same⟩ := follows.allow on none
      obtain ⟨rest, count⟩ := ih asked
      simp only [Board.allowMany, same, count]
      exact ⟨rest, trivial⟩

theorem reportMany (follows : Follows p side origin x b) (on : p n = side) (r : Report)
    (times : Nat) :
    Follows p side origin (reportMany Board.bell n r times x)
      (reportMany Board.bell n r times b) := by
  induction times generalizing x b with
  | zero => exact follows
  | succ times ih => exact ih (follows.report on none r)

/-- A request to a circuit keeps to its side, and is answered alike. -/
theorem serve (follows : Follows p side origin x b) (on : p n = side) (request : Request) :
    Follows p side origin (serve Board.bell n request x).1 (serve Board.bell n request b).1 ∧
      (serve Board.bell n request x).2 = (serve Board.bell n request b).2 := by
  unfold Board.serve
  rw [follows.circuit on]
  cases found : b.circuits.get? n with
  | none => exact ⟨follows, rfl⟩
  | some c =>
      cases request with
      | allow =>
          obtain ⟨asked, same⟩ := follows.allow on none
          exact ⟨asked, congrArg Reply.yes same⟩
      | isOpen =>
          simp only [follows.now]
          exact ⟨follows.take on _, trivial⟩
      | state => exact ⟨follows, rfl⟩
      | tally =>
          simp only [follows.now]
          exact ⟨follows.putCircuit on _, trivial⟩
      | forceOpen =>
          simp only [follows.now]
          exact ⟨follows.take on _, trivial⟩
      | forceClosed =>
          simp only [follows.now]
          exact ⟨follows.take on _, trivial⟩
      | name => exact ⟨follows, rfl⟩
      | describe => exact ⟨follows, rfl⟩
      | report outcome times took begun =>
          simp only [follows.now]
          exact ⟨follows.reportMany on _ times, trivial⟩
      | allowMany askers =>
          obtain ⟨asked, same⟩ := follows.allowMany on askers
          exact ⟨asked, congrArg Reply.count same⟩

end Follows

end Board

end Bulwark
