import Bulwark.Proofs.Order

/-!
What small changes leave in order.

In the middle of a turn of a call the engine is in order but for that call
(`Engine.Acting`). Each small change that a turn makes keeps it so: writing a
note about the call, queueing a turn, reporting to the circuit or asking it,
changing the call itself. A turn is over when the call is in order again
(`Acting.close`).
-/

namespace Bulwark.Engine

variable {r : Regime} {e e' : Engine} {k j : CallKey} {c d : Call} {t : Tale}
  {busy : Option Part} {away : Option CallKey}

/-! ### Who sees to what -/

/-- Nobody who was to see to something in the first engine is lost in the second. -/
structure Sustains (e e' : Engine) : Prop where
  now : e'.now = e.now
  queue : e.queue ⊆ e'.queue
  owes : ∀ i w, e.Owes i w → e'.Owes i w

/-- A task is minded still where the time is the same, debts are kept and its turn stays queued. -/
theorem Minded.transfer (now : e'.now = e.now) (owes : ∀ i w, e.Owes i w → e'.Owes i w)
    {stage : Stage} {wait : Wait}
    (queue : Turn.poll k (.code stage) ∈ e.queue → Turn.poll k (.code stage) ∈ e'.queue)
    (minded : e.Minded r k stage wait) : e'.Minded r k stage wait := by
  cases wait with
  | timer due next => simpa only [Minded, now] using minded
  | manual => trivial
  | call inner => exact owes _ _ minded
  | turn next => exact queue minded

/-- A part is still seen to if its own turn is not lost. -/
theorem Tended.transfer (now : e'.now = e.now) (owes : ∀ i w, e.Owes i w → e'.Owes i w) {p : Part}
    (queue : Turn.poll k p ∈ e.queue → Turn.poll k p ∈ e'.queue) (tended : e.Tended r k c p) :
    e'.Tended r k c p := by
  rcases p with stage | _
  · cases stage with
    | operation =>
        simp only [Tended] at tended ⊢
        split at tended
        · exact queue tended
        · exact tended
        · exact tended.transfer now owes queue
        · trivial
    | fallback =>
        simp only [Tended] at tended ⊢
        split at tended
        · exact tended.transfer now owes queue
        · trivial
  · simp only [Tended] at tended ⊢
    split at tended
    · rwa [now]
    · trivial
    · exact queue tended

theorem Tended.mono (same : Sustains e e') {p : Part} (tended : e.Tended r k c p) :
    e'.Tended r k c p :=
  tended.transfer same.now same.owes fun queued => same.queue queued

/-- What is kept of a call is kept if its tale stays the same. -/
theorem Kept.mono (same : Sustains e e') (tale : e'.tale j = e.tale j) (kept : Kept r e j d) :
    Kept r e' j d where
  sound := kept.sound
  told := by simpa only [tale] using kept.told
  resolution := by simpa only [tale] using kept.resolution
  tended p := (kept.tended p).mono same

/-! ### Changes outside the desks -/

/-- The second engine differs from the first in neither desks nor tickets, and no
turn and no circuit is lost. -/
structure Besides (e e' : Engine) : Prop where
  now : e'.now = e.now
  queue : e.queue ⊆ e'.queue
  desks : e'.desks = e.desks
  tickets : e'.tickets = e.tickets
  circuits : ∀ n, (e.board.circuits.get? n).isSome → (e'.board.circuits.get? n).isSome

theorem Besides.sustains (same : Besides e e') : Sustains e e' where
  now := same.now
  queue := same.queue
  owes i w owed := by
    obtain ⟨inner, here, open_, waits⟩ := owed
    exact ⟨inner, (call?_congr same.desks i).trans here, open_, waits⟩

/-- Calls stay orderly when nothing changes besides what is told of calls that were made. -/
theorem Orderly.besides (orderly : e.Orderly) (same : Besides e e')
    (tales : ∀ i, e.call? i = none → e'.tale i = e.tale i) : e'.Orderly where
  distinct := by rw [same.desks]; exact orderly.distinct
  equipped n used := same.circuits n (orderly.equipped n (by rwa [same.desks] at used))
  usable n desk found := orderly.usable n desk (by rwa [same.desks] at found)
  balanced n desk found := by
    obtain ⟨capacity, balance⟩ := orderly.balanced n desk (by rwa [same.desks] at found)
    exact ⟨capacity, by simpa only [handed, same.tickets] using balance⟩
  blank i unknown := by
    have before : e.call? i = none := by rwa [call?_congr same.desks] at unknown
    rw [tales i before, orderly.blank i before]
  labelled := by rw [same.tickets]; exact orderly.labelled
  origin x taken := by
    rw [same.desks]
    exact orderly.origin x (by rwa [same.tickets] at taken)

/-- All stays in order when nothing changes besides the tale of a call that is away. -/
theorem Ordered.besides (ordered : e.Ordered r away) (same : Besides e e')
    (present : ∀ i, away = some i → (e.call? i).isSome)
    (tales : ∀ i, some i ≠ away → e'.tale i = e.tale i) : e'.Ordered r away where
  orderly := by
    refine ordered.orderly.besides same fun i unknown => tales i ?_
    rintro rfl
    simpa [unknown] using present i rfl
  kept i d other here :=
    (ordered.kept i d other (by rwa [call?_congr same.desks] at here)).mono same.sustains
      (tales i other)

/-- A call in action stays so when nothing changes but its tale. -/
theorem Acting.besides (acting : e.Acting r k c t busy) (same : Besides e e') {t' : Tale}
    (tales : ∀ i, i ≠ k → e'.tale i = e.tale i) (tale : e'.tale k = t') :
    e'.Acting r k c t' busy where
  rest := by
    refine acting.rest.besides same ?_ fun i other => tales i fun differ => other (by rw [differ])
    rintro i ⟨⟩
    simp [acting.here]
  here := (call?_congr same.desks k).trans acting.here
  tale := tale
  tended p free := (acting.tended p free).mono same.sustains

theorem besides_note (x : Entry) : Besides e (e.note x) :=
  ⟨rfl, fun _ => id, rfl, rfl, fun _ => id⟩

theorem besides_enqueue (u : Turn) : Besides e (e.enqueue u) :=
  ⟨rfl, by simp, rfl, rfl, fun _ => id⟩

theorem besides_report (k : CallKey) (o : Outcome) (took : Duration) :
    Besides e (e.report k o took) := by
  refine ⟨now_report k o took, by simp, desks_report .., tickets_report .., ?_⟩
  intro n present
  unfold report
  split
  · exact present
  · cases found : e.board.circuits.get? k.command with
    | none => simpa [Board.report, found] using present
    | some circuit =>
        apply (Board.report_quiet 3 (some k) _ found).circuits n
        exact Board.Trail.circuits_putCircuit (b := e.board.note _) k.command _ present

theorem besides_ask (k : CallKey) : Besides e (e.ask k).1 := by
  refine ⟨now_ask k, fun _ => id, rfl, rfl, ?_⟩
  intro n present
  simp only [ask]
  cases found : e.board.circuits.get? k.command with
  | none => simpa [Board.allow, found] using present
  | some circuit => exact (Board.allow_quiet 3 (some k) found).circuits n present

/-- The command of a call under way has a circuit. -/
theorem Orderly.equipped_of_call? (orderly : e.Orderly) (known : e.call? k = some c) :
    (e.board.circuits.get? k.command).isSome := by
  obtain ⟨desk, found, _⟩ := desk_of_call? known
  exact orderly.equipped _ (by simp [found])

namespace Acting

/-- A note about the call in action is added to its tale. -/
theorem note (acting : e.Acting r k c t busy) {x : Entry} (about : x.call? = some k) :
    (e.note x).Acting r k c (t.add x) busy := by
  apply acting.besides (besides_note x)
  · intro i differ
    apply tale_note_of_ne
    rw [about]
    rintro ⟨⟩
    exact differ rfl
  · rw [tale_note_self e about, acting.tale]

theorem remark (acting : e.Acting r k c t busy) (n : Name) (m : Remark) :
    (e.remark n m).Acting r k c t busy :=
  acting.besides (besides_note _) (fun _ _ => rfl) acting.tale

theorem mark (acting : e.Acting r k c t busy) (i : CallKey) (stage : Stage) {m : Mark}
    (past : m ≠ .started) : (e.mark i stage m).Acting r k c t busy := by
  have same : Besides e (e.mark i stage m) := by
    rcases e.mark_eq_self_or_note i stage m with unmarked | ⟨id, noted⟩
    · rw [unmarked]; exact ⟨rfl, fun _ => id, rfl, rfl, fun _ => id⟩
    · rw [noted]; exact besides_note _
  exact acting.besides same (fun _ _ => tale_mark e past ..)
    ((tale_mark e past ..).trans acting.tale)

theorem enqueue (acting : e.Acting r k c t busy) (u : Turn) :
    (e.enqueue u).Acting r k c t busy :=
  acting.besides (besides_enqueue u) (fun _ _ => rfl) acting.tale

/-- A report of the call in action is added to its tale. -/
theorem report (acting : e.Acting r k c t busy) (o : Outcome) (took : Duration) :
    (e.report k o took).Acting r k c
      { t with beats := t.beats ++ [.reported ⟨o, c.start, took⟩] } busy := by
  have told := tale_report acting.here (acting.rest.orderly.equipped_of_call? acting.here) o took
  refine acting.besides (besides_report k o took) (fun i differ => ?_) ?_
  · rw [told i, if_neg differ]
  · rw [told k, if_pos rfl, acting.tale]

theorem ask (acting : e.Acting r k c t busy) : (e.ask k).1.Acting r k c t busy :=
  acting.besides (besides_ask k) (fun i _ => tale_ask k i) ((tale_ask k k).trans acting.tale)

end Acting

/-! ### Changes of one call -/

/-- A list with one of its items changed. -/
theorem modify_split {α : Type} {l : List α} {i : Nat} {a : α} (found : l[i]? = some a)
    (f : α → α) : ∃ before after, l = before ++ a :: after ∧
      l.modify i f = before ++ f a :: after := by
  obtain ⟨bound, rfl⟩ := List.getElem?_eq_some_iff.mp found
  obtain ⟨before, b, after, split, reached, changed⟩ := List.exists_of_modify f bound
  refine ⟨before, after, ?_, ?_⟩
  · rw [show l[i] = b by simp [split, ← reached]]
    exact split
  · rw [show l[i] = b by simp [split, ← reached]]
    exact changed

/-- What changing one item does to the number of items of a kind. -/
theorem countP_modify {α : Type} {l : List α} {i : Nat} {a : α} (found : l[i]? = some a)
    (f : α → α) (kind : α → Bool) :
    (l.modify i f).countP kind + (if kind a then 1 else 0) =
      l.countP kind + (if kind (f a) then 1 else 0) := by
  obtain ⟨before, after, split, changed⟩ := modify_split found f
  rw [changed, split]
  simp only [List.countP_append, List.countP_cons]
  omega

/-- A change of a desk that changes one of its calls, and hands a ticket to or fro
between that call and the pool. -/
structure Deskwork (e : Engine) (k : CallKey) (f : Call → Call) (g : Desk → Desk) : Prop where
  settings : ∀ desk, (g desk).settings = desk.settings
  calls : ∀ desk, (g desk).calls = desk.calls.modify k.number f
  capacity : ∀ desk, e.desks.get? k.command = some desk →
    (g desk).pool.capacity = desk.pool.capacity
  balance : ∀ desk, e.desks.get? k.command = some desk →
    (g desk).pool.free + (g desk).seated = desk.pool.free + desk.seated

/-- A change of a call that leaves its ticket alone. -/
theorem deskwork_of_slot {f : Call → Call} (slot : ∀ d, (f d).slot = d.slot) :
    Deskwork e k f fun desk => { desk with calls := desk.calls.modify k.number f } where
  settings _ := rfl
  calls _ := rfl
  capacity _ _ := rfl
  balance desk _ := by
    simp only [Desk.seated]
    cases found : desk.calls[k.number]? with
    | none => rw [List.modify_eq_self (by simpa using found)]
    | some c =>
        have counted := countP_modify found f fun d => decide (d.slot = .holding)
        simp only [slot] at counted
        omega

/-- A change of a call and of the pool of its command, by which a ticket that one
comes to hold leaves the other. -/
theorem deskwork_of_pool (here : e.call? k = some c) {desk : Desk}
    (found : e.desks.get? k.command = some desk) {f : Call → Call} {g : Desk → Pool}
    (capacity : (g desk).capacity = desk.pool.capacity)
    (balance : (g desk).free + (if (f c).slot = .holding then 1 else 0) =
      desk.pool.free + (if c.slot = .holding then 1 else 0)) :
    Deskwork e k f fun desk =>
      { desk with pool := g desk, calls := desk.calls.modify k.number f } where
  settings _ := rfl
  calls _ := rfl
  capacity other same := by
    obtain rfl := Option.some.inj (found.symm.trans same)
    exact capacity
  balance other same := by
    obtain rfl := Option.some.inj (found.symm.trans same)
    have numbered : desk.calls[k.number]? = some c := by
      rw [← call?_of_desk found]
      exact here
    have counted := countP_modify numbered f fun d => decide (d.slot = .holding)
    simp only [decide_eq_true_eq] at counted
    simp only [Desk.seated]
    omega

/-- Work at one desk on one call leaves the others orderly. -/
theorem Orderly.deskwork (orderly : e.Orderly) {f : Call → Call} {g : Desk → Desk}
    (work : Deskwork e k f g) : (e.updateDesk k.command g).Orderly where
  distinct := nodup_updateDesk orderly.distinct _ _
  equipped n used := by
    apply (board_updateDesk e _ _).symm ▸ orderly.equipped n
    rw [get?_updateDesk] at used
    split at used <;> simpa using used
  usable n desk found := by
    rw [get?_updateDesk] at found
    split at found
    · obtain ⟨old, before, rfl⟩ := Option.map_eq_some_iff.mp found
      rw [work.settings]
      exact orderly.usable n old before
    · exact orderly.usable n desk found
  balanced n desk found := by
    rw [get?_updateDesk] at found
    have tickets : (e.updateDesk k.command g).handed n = e.handed n := by simp [handed]
    split at found
    · next same =>
        obtain ⟨old, before, rfl⟩ := Option.map_eq_some_iff.mp found
        obtain ⟨capacity, balance⟩ := orderly.balanced n old before
        -- What the call gains its pool loses, and the other way round.
        have sized := work.capacity old (same ▸ before)
        have moved := work.balance old (same ▸ before)
        exact ⟨by rw [sized, work.settings, capacity], by rw [sized, tickets]; omega⟩
    · obtain ⟨capacity, balance⟩ := orderly.balanced n desk found
      exact ⟨capacity, by rwa [tickets]⟩
  blank i unknown := by
    rw [call?_updateDesk_of_modify e work.calls] at unknown
    rw [tale_updateDesk]
    apply orderly.blank i
    split at unknown <;> simpa using unknown
  labelled := by simpa using orderly.labelled
  origin x taken := by
    have used := orderly.origin x (by simpa using taken)
    rw [get?_updateDesk]
    split <;> simpa using used

/-- A change of a call that is away leaves the others in order, if what it owes it
still owes. -/
theorem Ordered.deskwork (ordered : e.Ordered r (some k)) {f : Call → Call} {g : Desk → Desk}
    (work : Deskwork e k f g) (here : e.call? k = some c) (verdict : (f c).verdict = c.verdict)
    (waiter : (f c).waiter = c.waiter) :
    (e.updateDesk k.command g).Ordered r (some k) ∧ Sustains e (e.updateDesk k.command g) := by
  have calls := call?_updateDesk_of_modify e work.calls
  have same : Sustains e (e.updateDesk k.command g) := by
    refine ⟨now_updateDesk .., by simp, ?_⟩
    rintro i w ⟨inner, found, open_, waits⟩
    by_cases self : i = k
    · subst self
      obtain rfl : c = inner := Option.some.inj (here.symm.trans found)
      exact ⟨f c, by simp [calls, here], verdict.trans open_, waiter.trans waits⟩
    · exact ⟨inner, by simp [calls, self, found], open_, waits⟩
  refine ⟨⟨ordered.orderly.deskwork work, fun i d other found => ?_⟩, same⟩
  have differ : i ≠ k := fun self => other (by rw [self])
  rw [calls, if_neg differ] at found
  exact (ordered.kept i d other found).mono same (tale_updateDesk ..)

namespace Acting

/-- Work of a call on itself keeps it in action, if its tasks are still tended. -/
theorem deskwork (acting : e.Acting r k c t busy) {f : Call → Call} {g : Desk → Desk}
    (work : Deskwork e k f g) (verdict : (f c).verdict = c.verdict)
    (waiter : (f c).waiter = c.waiter) {busy' : Option Part}
    (tended : ∀ p, some p ≠ busy' → e.Tended r k (f c) p) :
    (e.updateDesk k.command g).Acting r k (f c) t busy' := by
  obtain ⟨rest, same⟩ := acting.rest.deskwork work acting.here verdict waiter
  exact {
    rest := rest
    here := by simp [call?_updateDesk_of_modify e work.calls, acting.here]
    tale := (tale_updateDesk ..).trans acting.tale
    tended := fun p free => (tended p free).mono same }

/-- The call itself changes, but for its ticket and what it owes. -/
theorem update (acting : e.Acting r k c t busy) {f : Call → Call} (slot : ∀ d, (f d).slot = d.slot)
    (verdict : (f c).verdict = c.verdict) (waiter : (f c).waiter = c.waiter)
    {busy' : Option Part} (tended : ∀ p, some p ≠ busy' → e.Tended r k (f c) p) :
    (e.updateCall k f).Acting r k (f c) t busy' :=
  acting.deskwork (deskwork_of_slot slot) verdict waiter tended

/-- The turn is over. -/
theorem close (acting : e.Acting r k c t none) (sound : c.Sound) (told : c.Told t)
    (resolution : Resolution t c.claimed c.rescue c.verdict) : e.Ordered r none where
  orderly := acting.rest.orderly
  kept i d _ here := by
    by_cases self : i = k
    · subst self
      obtain rfl : c = d := Option.some.inj (acting.here.symm.trans here)
      exact ⟨sound, acting.tale.symm ▸ told, acting.tale.symm ▸ resolution,
        fun p => acting.tended p (by simp)⟩
    · exact acting.rest.kept i d (by simpa using self) here

end Acting

/-! ### The beginning of a turn -/

section Taken

variable {before after : List Turn} {u : Turn}

/-- A turn is taken from the queue, and no other is lost. -/
theorem mem_of_taken (queued : e.queue = before ++ u :: after) {v : Turn} (differ : v ≠ u)
    (member : v ∈ e.queue) : v ∈ before ++ after := by
  rw [queued] at member
  rcases List.mem_append.mp member with early | late
  · exact List.mem_append_left _ early
  · exact List.mem_append_right _ ((List.mem_cons.mp late).resolve_left differ)

/-- A turn that is taken is missed by no other task. -/
theorem Tended.taken (queued : e.queue = before ++ u :: after) {p : Part}
    (other : Turn.poll k p ≠ u) (tended : e.Tended r k c p) :
    ({ e with queue := before ++ after } : Engine).Tended r k c p := by
  refine tended.transfer ?_ ?_ ?_
  · rfl
  · exact fun _ _ owed => owed
  · exact mem_of_taken queued other

theorem Orderly.taken (orderly : e.Orderly) (queue : List Turn) :
    ({ e with queue := queue } : Engine).Orderly :=
  ⟨orderly.distinct, orderly.equipped, orderly.usable,
    fun n desk found => ⟨(orderly.balanced n desk found).capacity,
      (orderly.balanced n desk found).balance⟩,
    orderly.blank, orderly.labelled, orderly.origin⟩

/-- The turn of a part of a call begins. -/
theorem Ordered.open (ordered : e.Ordered r none) {p : Part}
    (queued : e.queue = before ++ .poll k p :: after) (here : e.call? k = some c) :
    ({ e with queue := before ++ after } : Engine).Acting r k c (e.tale k) (some p) where
  rest := by
    refine ⟨ordered.orderly.taken _, ?_⟩
    intro i d other found
    have kept := ordered.kept i d (by simp) found
    exact ⟨kept.sound, kept.told, kept.resolution, fun q => (kept.tended q).taken queued
      fun same => other (by rw [(Turn.poll.inj same).1])⟩
  here := here
  tale := rfl
  tended q free := ((ordered.kept k c (by simp) here).tended q).taken queued
    fun same => free (by rw [(Turn.poll.inj same).2])

/-- A turn that is nobody's, or no longer needed, is taken for nothing. -/
theorem Ordered.skip (ordered : e.Ordered r none) (queued : e.queue = before ++ u :: after)
    (idle : ∀ k p c, u = .poll k p → e.call? k = some c →
      ({ e with queue := before ++ after } : Engine).Tended r k c p) :
    ({ e with queue := before ++ after } : Engine).Ordered r none where
  orderly := ordered.orderly.taken _
  kept i d _ found := by
    have kept := ordered.kept i d (by simp) found
    refine ⟨kept.sound, kept.told, kept.resolution, ?_⟩
    intro q
    by_cases same : Turn.poll i q = u
    · exact idle i q d same.symm found
    · exact (kept.tended q).taken queued same

end Taken

end Bulwark.Engine
