import Bulwark.Proofs.Course

/-!
What happens to a board, act by act.

Whatever is asked of a board and whatever hooks do in answer, it comes down to a
few acts: a note is written, a hook is set, a command gets a circuit, a circuit
that is asked moves, or a circuit records an outcome (`Board.Trail`). An outcome
is told in the journal by the act in which the window of the command records it,
and by no other (`Board.Trail.recorded`).

Hooks tell nothing of calls, since what they ask a circuit and report to it has no
caller. So a request of a call leaves one entry about that call, and what it sets
off is quiet (`Board.Quiet`).

* `Board.Course.trail`: deeds done to circuits are acts.
* `Board.allow_quiet`, `Board.report_quiet`: a request of a caller is quiet but
  for its own entry.
* `Board.allow_told`, `Board.report_told`: a request is told with the answer that it is
  given, a report is told as it was made, and either is told before anything that it
  sets off.
* `Board.serve_quiet`: a request of nobody's is quiet.
-/

namespace Bulwark

/-- What becomes of a circuit that is asked or told something other than an outcome. -/
inductive Circuit.Moves (now : Instant) (c : Circuit) : Circuit → Prop where
  | allow : Moves now c (c.allow now).circuit
  | isOpen : Moves now c (c.isOpen now).circuit
  | forceOpen : Moves now c (c.forceOpen now).circuit
  | forceClosed : Moves now c (c.forceClosed now).circuit
  | read : Moves now c { c with window := c.window.prune now }

/-- What a circuit that records an outcome then holds: the outcome, unless it closes
the circuit and all is forgotten. -/
theorem Circuit.window_absorb (c : Circuit) (o : Outcome) (now : Instant) :
    (c.absorb o now).circuit.window =
      if c.state = .halfOpen ∧ o = .success then (c.window.record o now).reset
      else c.window.record o now := by
  cases state : c.state with
  | closed => simp [absorb, state]
  | opened => simp [absorb, state]
  | halfOpen =>
      simp only [absorb, state, true_and]
      split
      · rfl
      · split <;> rfl

namespace Board

/-- The circuit of a command records an outcome, and the journal tells of it. -/
def absorb (b : Board) (n : Name) (caller : Option CallKey) (r : Report) (c : Circuit) : Board :=
  (b.note (.recorded n caller r)).putCircuit n (c.absorb r.outcome b.now).circuit

/-- An outcome is told in the journal and recorded in the window of the command. -/
structure Records (n : Name) (caller : Option CallKey) (r : Report) (b b' : Board) : Prop where
  journal : b'.journal = ⟨b.now, .recorded n caller r⟩ :: b.journal
  window : ∃ c c', b.circuits.get? n = some c ∧ b'.circuits.get? n = some c' ∧
    c'.window = if c.state = .halfOpen ∧ r.outcome = .success
      then (c.window.record r.outcome b.now).reset else c.window.record r.outcome b.now

/-- What absorbing a report writes is the note of it, and what it sets is the window of its
circuit. -/
theorem absorb_records {b : Board} {n : Name} {c : Circuit} (found : b.circuits.get? n = some c)
    (caller : Option CallKey) (r : Report) : b.Records n caller r (b.absorb n caller r c) where
  journal := rfl
  window := ⟨c, _, found, by simp [absorb, putCircuit], c.window_absorb ..⟩

/-- What happens from one board to another, all entries being of a kind. -/
inductive Trail (kind : Entry → Prop) (b : Board) : Board → Prop where
  | refl : Trail kind b b
  | note {b' : Board} {x : Entry} : Trail kind b b' → kind x →
      (∀ n caller r, x ≠ .recorded n caller r) → Trail kind b (b'.note x)
  | setHook {b' : Board} (occasion : Occasion) (hook : Hook) : Trail kind b b' →
      Trail kind b (b'.setHook occasion hook)
  | equip {b' : Board} (n : Name) (s : Settings) : Trail kind b b' →
      Trail kind b (b'.putCircuit n (.make s b'.now))
  | move {b' : Board} {n : Name} {c c' : Circuit} : Trail kind b b' →
      b'.circuits.get? n = some c → c.Moves b'.now c' → Trail kind b (b'.putCircuit n c')
  | record {b' : Board} {n : Name} {c : Circuit} {caller : Option CallKey} {r : Report} :
      Trail kind b b' → b'.circuits.get? n = some c → kind (.recorded n caller r) →
      Trail kind b (b'.absorb n caller r c)

/-- What happened is told without mention of any call. -/
abbrev Quiet : Board → Board → Prop := Trail fun x => x.call? = none

namespace Trail

variable {kind wider : Entry → Prop} {b b' b'' : Board}

/-- Two ways, one after the other, make one. -/
theorem trans (first : Trail kind b b') (second : Trail kind b' b'') : Trail kind b b'' := by
  induction second with
  | refl => exact first
  | note _ fits unrecorded ih => exact ih.note fits unrecorded
  | setHook occasion hook _ ih => exact ih.setHook occasion hook
  | equip n s _ ih => exact ih.equip n s
  | move _ found moves ih => exact ih.move found moves
  | record _ found fits ih => exact ih.record found fits

theorem mono (trail : Trail kind b b') (wide : ∀ x, kind x → wider x) : Trail wider b b' := by
  induction trail with
  | refl => exact .refl
  | note _ fits unrecorded ih => exact ih.note (wide _ fits) unrecorded
  | setHook occasion hook _ ih => exact ih.setHook occasion hook
  | equip n s _ ih => exact ih.equip n s
  | move _ found moves ih => exact ih.move found moves
  | record _ found fits ih => exact ih.record found (wide _ fits)

/-- It takes no time. -/
theorem now (trail : Trail kind b b') : b'.now = b.now := by
  induction trail with
  | refl => rfl
  | note _ _ _ ih => exact ih
  | setHook _ _ _ ih => exact ih
  | equip _ _ _ ih => exact ih
  | move _ _ _ ih => exact ih
  | record _ _ _ ih => exact ih

theorem circuits_putCircuit (m : Name) (c : Circuit) {n : Name}
    (present : (b.circuits.get? n).isSome) : ((b.putCircuit m c).circuits.get? n).isSome := by
  simp only [putCircuit, Roster.get?_put]
  split
  · rfl
  · exact present

/-- No command loses its circuit. -/
theorem circuits (trail : Trail kind b b') (n : Name) (present : (b.circuits.get? n).isSome) :
    (b'.circuits.get? n).isSome := by
  induction trail with
  | refl => exact present
  | note _ _ _ ih => exact ih
  | setHook _ _ _ ih => exact ih
  | equip m s _ ih => exact circuits_putCircuit m _ ih
  | move _ _ _ ih => exact circuits_putCircuit _ _ ih
  | @record b' m c caller r _ _ _ ih =>
      exact circuits_putCircuit (b := b'.note (.recorded m caller r)) m _ ih

/-- No hook is lost. -/
theorem hooks (trail : Trail kind b b') (o : Occasion) (present : (b.hooks.get? o).isSome) :
    (b'.hooks.get? o).isSome := by
  induction trail with
  | refl => exact present
  | note _ _ _ ih => exact ih
  | setHook occasion hook _ ih =>
      simp only [Board.setHook, Hooks.get?_put]
      split
      · rfl
      · exact ih
  | equip _ _ _ ih => exact ih
  | move _ _ _ ih => exact ih
  | record _ _ _ ih => exact ih

/-- The journal only grows. -/
theorem journal (trail : Trail kind b b') :
    ∃ new, b'.journal = new ++ b.journal ∧ ∀ n ∈ new, kind n.entry := by
  induction trail with
  | refl => exact ⟨[], rfl, by simp⟩
  | @note b' x _ fits _ ih =>
      obtain ⟨new, grown, kinds⟩ := ih
      exact ⟨⟨b'.now, x⟩ :: new, by simp [Board.note, grown], by simpa [fits] using kinds⟩
  | setHook _ _ _ ih => exact ih
  | equip _ _ _ ih => exact ih
  | move _ _ _ ih => exact ih
  | @record b' n c caller r _ _ fits ih =>
      obtain ⟨new, grown, kinds⟩ := ih
      exact ⟨⟨b'.now, .recorded n caller r⟩ :: new,
        by simp [Board.absorb, Board.note, Board.putCircuit, grown], by simpa [fits] using kinds⟩

end Trail

/-- On the way from one board to another an outcome was recorded, at an instant and
with the journal as it then stood. -/
def Recorded (kind : Entry → Prop) (b b' : Board) (n : Name) (caller : Option CallKey)
    (r : Report) (t : Instant) (earlier : List Note) : Prop :=
  ∃ m m', Trail kind b m ∧ m.journal = earlier ∧ m.now = t ∧ m.Records n caller r m' ∧
    Trail kind m' b'

section Recorded

variable {kind wider : Entry → Prop} {b b' b'' : Board} {n : Name} {caller : Option CallKey}
  {r : Report} {t : Instant} {later earlier : List Note}

/-- What was recorded on the way stays recorded when the way goes on. -/
theorem Recorded.trans (recorded : Recorded kind b b' n caller r t earlier)
    (more : Trail kind b' b'') : Recorded kind b b'' n caller r t earlier := by
  obtain ⟨m, m', before, past, moment, records, after⟩ := recorded
  exact ⟨m, m', before, past, moment, records, after.trans more⟩

theorem Recorded.mono (recorded : Recorded kind b b' n caller r t earlier)
    (wide : ∀ x, kind x → wider x) : Recorded wider b b' n caller r t earlier := by
  obtain ⟨m, m', before, past, moment, records, after⟩ := recorded
  exact ⟨m, m', before.mono wide, past, moment, records, after.mono wide⟩

/-- Where the journal tells of an outcome, it was recorded when that was told. -/
theorem Trail.recorded (trail : Trail kind b b')
    (told : b'.journal = later ++ ⟨t, .recorded n caller r⟩ :: earlier)
    (since : b.journal <:+ earlier) :
    kind (.recorded n caller r) ∧ Recorded kind b b' n caller r t earlier := by
  induction trail generalizing later with
  | refl =>
      -- Nothing happened, so there is no room for the note.
      have shorter := since.length_le
      have longer := congrArg List.length told
      simp only [List.length_append, List.length_cons] at longer
      omega
  | @note b' x _ fits unrecorded ih =>
      cases later with
      | nil =>
          obtain ⟨same, _⟩ := List.cons.inj told
          exact absurd (congrArg Note.entry same) (unrecorded n caller r)
      | cons last later =>
          obtain ⟨own, recorded⟩ := ih (List.cons.inj told).2
          exact ⟨own, recorded.trans (.note .refl fits unrecorded)⟩
  | setHook occasion hook _ ih =>
      obtain ⟨own, recorded⟩ := ih told
      exact ⟨own, recorded.trans (.setHook occasion hook .refl)⟩
  | equip name s _ ih =>
      obtain ⟨own, recorded⟩ := ih told
      exact ⟨own, recorded.trans (.equip name s .refl)⟩
  | move _ known moves ih =>
      obtain ⟨own, recorded⟩ := ih told
      exact ⟨own, recorded.trans (.move .refl known moves)⟩
  | @record b' name c asker s before known fits ih =>
      -- The note is the last one, or was there before this act.
      cases later with
      | nil =>
          obtain ⟨same, rfl⟩ := List.cons.inj told
          obtain ⟨rfl, ⟨rfl, rfl, rfl⟩⟩ :
              b'.now = t ∧ name = n ∧ asker = caller ∧ s = r := by simpa using same
          exact ⟨fits, b', _, before, rfl, rfl, absorb_records known asker s, .refl⟩
      | cons last later =>
          obtain ⟨own, recorded⟩ := ih (List.cons.inj told).2
          exact ⟨own, recorded.trans (.record .refl known fits)⟩

end Recorded

/-! ### From deeds to acts -/

section Deeds

variable {kind : Entry → Prop} {b b' : Board} {n : Name} {c : Circuit}

/-- News are noted, and none of them is an outcome. -/
theorem Trail.hear (trail : Trail kind b b') (n : Name) (news : Option News)
    (fits : ∀ x ∈ Circuit.herald n news, kind x) : Trail kind b (b'.hear n news) := by
  cases news with
  | none => exact trail
  | some x => exact trail.note (fits _ rfl) (by simp)

/-- A bell that a circuit rings is told without mention of any call. -/
theorem Quiet.hear (quiet : Quiet b b') (n : Name) (news : Option News) :
    Quiet b (b'.hear n news) := by
  refine Trail.hear quiet n news ?_
  intro x told
  obtain ⟨_, _, rfl⟩ := Option.map_eq_some_iff.mp told
  rfl

/-- Asking is the entry about it, the move of the circuit, and the news. -/
theorem quiet_ask (caller : Option CallKey) (found : b.circuits.get? n = some c) :
    Quiet (b.note (.asked n caller c.state (c.allow b.now).answer))
      (b.perform n c (.ask caller)) := by
  rw [perform_ask]
  refine Quiet.hear ?_ n _
  exact .move (b := b.note _) .refl found .allow

/-- Reporting is the record of the outcome, and the news. -/
theorem quiet_absorb (caller : Option CallKey) (r : Report) :
    Quiet (b.absorb n caller r c) (b.perform n c (.absorb caller r)) := by
  rw [perform_absorb]
  have none_ : Quiet (b.absorb n caller r c) (b.absorb n caller r c) := .refl
  exact none_.hear n _

/-- Deeds are acts. -/
theorem Course.trail (course : Course kind b b') : Trail kind b b' := by
  induction course with
  | refl => exact .refl
  | @note b' x _ fits aside ih =>
      refine ih.note fits ?_
      rintro n caller r rfl
      simp [Entry.circuit?] at aside
  | setHook occasion hook _ ih => exact ih.setHook occasion hook
  | @deed b' n c d _ found fits ih =>
      have news : ∀ x ∈ Circuit.herald n (c.undergo b'.now d).news, kind x := fun x told =>
        fits x (List.mem_append_left _ (Option.mem_toList.mpr told))
      have own : ∀ x ∈ d.writes? n c b'.now, kind x := fun x told =>
        fits x (List.mem_append_right _ (Option.mem_toList.mpr told))
      have rest (untold : d.writes? n c b'.now = none)
          (moves : c.Moves b'.now (c.undergo b'.now d).circuit) :
          Trail kind b (b'.perform n c d) := by
        rw [perform_of_untold untold]
        exact (ih.move found moves).hear n _ news
      cases d with
      | ask caller =>
          rw [perform_ask]
          exact ((ih.note (own _ rfl) (by simp)).move found .allow).hear n _ news
      | absorb caller r =>
          rw [perform_absorb]
          exact (ih.record found (own _ rfl)).hear n _ news
      | look => exact rest rfl .isOpen
      | read => exact rest rfl .read
      | forceOpen => exact rest rfl .forceOpen
      | forceClosed => exact rest rfl .forceClosed

end Deeds

/-! ### Requests -/

section Requests

variable {n : Name} {b : Board} {c : Circuit}

/-- Nothing but the note of a question names the call that asked. -/
theorem allow_quiet (level : Nat) (caller : Option CallKey)
    (found : b.circuits.get? n = some c) :
    Quiet (b.note (.asked n caller c.state (c.allow b.now).answer))
      (allow (ring level) caller n b).1 :=
  (quiet_ask caller found).trans (allow_calm_of_ring (ring_calm level) caller found).trail

/-- Nothing but the record of a report names the call that reported. -/
theorem report_quiet (level : Nat) (caller : Option CallKey) (r : Report)
    (found : b.circuits.get? n = some c) :
    Quiet (b.absorb n caller r c) (report (ring level) caller n r b) :=
  (quiet_absorb caller r).trans (report_calm_of_ring (ring_calm level) caller r found).trail

/-- A request that asks a circuit is told with the state that it met and the answer that
it is given. What hooks do in answer is told later, and is nobody's. -/
theorem allow_told (level : Nat) (caller : Option CallKey) (found : b.circuits.get? n = some c) :
    ∃ later, (allow (ring level) caller n b).1.journal =
        later ++ ⟨b.now, .asked n caller c.state (allow (ring level) caller n b).2⟩ :: b.journal ∧
      ∀ x ∈ later, x.entry.call? = none := by
  obtain ⟨later, grown, nobody⟩ := (allow_quiet level caller found).journal
  refine ⟨later, ?_, nobody⟩
  rw [grown, allow_eq_follow _ caller found]
  rfl

/-- A report is told as it was made. What hooks do in answer is told later, and is
nobody's. -/
theorem report_told (level : Nat) (caller : Option CallKey) (r : Report)
    (found : b.circuits.get? n = some c) :
    ∃ later, (report (ring level) caller n r b).journal =
        later ++ ⟨b.now, .recorded n caller r⟩ :: b.journal ∧
      ∀ x ∈ later, x.entry.call? = none :=
  (report_quiet level caller r found).journal

end Requests

/-- What a hook does is told without mention of any call, whoever it asks for. -/
theorem foldl_act_quiet (level : Nat) (n : Name) (actions : List Action) (b : Board) :
    Quiet b (actions.foldl (act (ring level) n) b) :=
  (foldl_act_calm (ring_calm level) n actions b).trail

/-- What a report calls for is told without mention of any call. -/
theorem take_quiet (caller : Option CallKey) {n : Name} {b : Board} (r : Report) {c : Circuit} :
    Quiet (b.absorb n caller r c)
      (take bell n (c.absorb r.outcome b.now) (b.note (.recorded n caller r))) := by
  have told := quiet_absorb (b := b) (n := n) (c := c) caller r
  rw [perform_absorb] at told
  rw [take_eq_follow]
  exact told.trans (follow_calm (ring_calm 3) n _ _).trail

/-- A request names no call, so neither does what follows from it. -/
theorem serve_quiet (n : Name) (request : Request) (b : Board) :
    Quiet b (serve bell n request b).1 := (serve_calm_of_ring (ring_calm 3) n request b).trail

end Board

end Bulwark
