import Bulwark.Engine.Run

/-!
What is found where, after each small change of an engine.

A turn is made of small changes: it writes a note, queues a turn, changes one
desk or one call, or asks a circuit or tells it something. The laws here say
what each of them does to the desks, the queue and the calls; the laws about
whole turns are built on them.
-/

namespace Bulwark.Engine

variable (e : Engine)

/-! ### Notes and queued turns -/

@[simp] theorem desks_note (x : Entry) : (e.note x).desks = e.desks := rfl
@[simp] theorem queue_note (x : Entry) : (e.note x).queue = e.queue := rfl
@[simp] theorem tickets_note (x : Entry) : (e.note x).tickets = e.tickets := rfl
@[simp] theorem now_note (x : Entry) : (e.note x).now = e.now := rfl

@[simp] theorem desks_remark (n : Name) (r : Remark) : (e.remark n r).desks = e.desks := rfl
@[simp] theorem queue_remark (n : Name) (r : Remark) : (e.remark n r).queue = e.queue := rfl
@[simp] theorem tickets_remark (n : Name) (r : Remark) : (e.remark n r).tickets = e.tickets := rfl
@[simp] theorem now_remark (n : Name) (r : Remark) : (e.remark n r).now = e.now := rfl

@[simp] theorem desks_enqueue (t : Turn) : (e.enqueue t).desks = e.desks := rfl
@[simp] theorem queue_enqueue (t : Turn) : (e.enqueue t).queue = e.queue ++ [t] := rfl
@[simp] theorem tickets_enqueue (t : Turn) : (e.enqueue t).tickets = e.tickets := rfl
@[simp] theorem board_enqueue (t : Turn) : (e.enqueue t).board = e.board := rfl
@[simp] theorem now_enqueue (t : Turn) : (e.enqueue t).now = e.now := rfl

@[simp] theorem desks_setNow (t : Instant) : (e.setNow t).desks = e.desks := rfl
@[simp] theorem queue_setNow (t : Instant) : (e.setNow t).queue = e.queue := rfl
@[simp] theorem tickets_setNow (t : Instant) : (e.setNow t).tickets = e.tickets := rfl
@[simp] theorem now_setNow (t : Instant) : (e.setNow t).now = t := rfl

/-- A mark is a note if there is a task to make it, and nothing otherwise. -/
theorem mark_eq_self_or_note (k : CallKey) (stage : Stage) (m : Mark) :
    e.mark k stage m = e ∨ ∃ id, e.mark k stage m = e.note (.operation k id m) := by
  unfold mark
  split
  · exact .inr ⟨_, rfl⟩
  · exact .inl rfl

@[simp] theorem desks_mark (k : CallKey) (stage : Stage) (m : Mark) :
    (e.mark k stage m).desks = e.desks := by
  unfold mark; split <;> rfl

@[simp] theorem queue_mark (k : CallKey) (stage : Stage) (m : Mark) :
    (e.mark k stage m).queue = e.queue := by
  unfold mark; split <;> rfl

/-! ### What a circuit is asked and told -/

@[simp] theorem desks_report (k : CallKey) (o : Outcome) (took : Duration) :
    (e.report k o took).desks = e.desks := by
  unfold report; split <;> rfl

@[simp] theorem queue_report (k : CallKey) (o : Outcome) (took : Duration) :
    (e.report k o took).queue = e.queue := by
  unfold report; split <;> rfl

@[simp] theorem tickets_report (k : CallKey) (o : Outcome) (took : Duration) :
    (e.report k o took).tickets = e.tickets := by
  unfold report; split <;> rfl

@[simp] theorem desks_ask (k : CallKey) : (e.ask k).1.desks = e.desks := rfl
@[simp] theorem queue_ask (k : CallKey) : (e.ask k).1.queue = e.queue := rfl
@[simp] theorem tickets_ask (k : CallKey) : (e.ask k).1.tickets = e.tickets := rfl

/-! ### Desks -/

@[simp] theorem queue_updateDesk (n : Name) (f : Desk → Desk) :
    (e.updateDesk n f).queue = e.queue := by
  unfold updateDesk; split <;> rfl

@[simp] theorem board_updateDesk (n : Name) (f : Desk → Desk) :
    (e.updateDesk n f).board = e.board := by
  unfold updateDesk; split <;> rfl

@[simp] theorem tickets_updateDesk (n : Name) (f : Desk → Desk) :
    (e.updateDesk n f).tickets = e.tickets := by
  unfold updateDesk; split <;> rfl

@[simp] theorem policy_updateDesk (n : Name) (f : Desk → Desk) :
    (e.updateDesk n f).policy = e.policy := by
  unfold updateDesk; split <;> rfl

@[simp] theorem now_updateDesk (n : Name) (f : Desk → Desk) :
    (e.updateDesk n f).now = e.now := by
  simp [now]

/-- Work at one desk leaves the others as they are. -/
theorem get?_updateDesk (n m : Name) (f : Desk → Desk) :
    (e.updateDesk n f).desks.get? m =
      if m = n then (e.desks.get? m).map f else e.desks.get? m := by
  unfold updateDesk
  split
  · next absent =>
      split
      · next same => subst same; simp [absent]
      · rfl
  · next desk found =>
      simp only [Roster.get?_put]
      by_cases same : m = n
      · subst same; simp [found]
      · simp [same, Ne.symm same]

/-- Two changes of one desk are one change. -/
theorem updateDesk_updateDesk (n : Name) (f g : Desk → Desk) :
    (e.updateDesk n f).updateDesk n g = e.updateDesk n (g ∘ f) := by
  cases found : e.desks.get? n with
  | none => simp [updateDesk, found]
  | some desk => simp [updateDesk, found, Roster.put_put]

theorem nodup_updateDesk {e : Engine} (distinct : e.desks.names.Nodup) (n : Name)
    (f : Desk → Desk) : (e.updateDesk n f).desks.names.Nodup := by
  unfold updateDesk
  split
  · exact distinct
  · exact Roster.nodup_names_put distinct _ _

/-! ### Calls -/

theorem call?_congr {e₁ e₂ : Engine} (same : e₁.desks = e₂.desks) (k : CallKey) :
    e₁.call? k = e₂.call? k := by
  unfold call?; rw [same]

@[simp] theorem call?_note (x : Entry) (k : CallKey) : (e.note x).call? k = e.call? k := rfl
@[simp] theorem call?_remark (n : Name) (r : Remark) (k : CallKey) :
    (e.remark n r).call? k = e.call? k := rfl
@[simp] theorem call?_enqueue (t : Turn) (k : CallKey) : (e.enqueue t).call? k = e.call? k := rfl
@[simp] theorem call?_setNow (t : Instant) (k : CallKey) : (e.setNow t).call? k = e.call? k := rfl
@[simp] theorem call?_ask (j k : CallKey) : (e.ask j).1.call? k = e.call? k := rfl
@[simp] theorem call?_mark (j : CallKey) (stage : Stage) (m : Mark) (k : CallKey) :
    (e.mark j stage m).call? k = e.call? k := call?_congr (desks_mark ..) k
@[simp] theorem call?_report (j : CallKey) (o : Outcome) (took : Duration) (k : CallKey) :
    (e.report j o took).call? k = e.call? k := call?_congr (desks_report ..) k

/-- A change of a desk that leaves its calls alone. -/
theorem call?_updateDesk_of_calls (n : Name) {f : Desk → Desk} (kept : ∀ d, (f d).calls = d.calls)
    (k : CallKey) : (e.updateDesk n f).call? k = e.call? k := by
  simp only [call?, get?_updateDesk]
  split
  · cases e.desks.get? k.command <;> simp [kept]
  · rfl

/-- A change of a desk that changes one of its calls. -/
theorem call?_updateDesk_of_modify {k : CallKey} {f : Call → Call} {g : Desk → Desk}
    (calls : ∀ d, (g d).calls = d.calls.modify k.number f) (j : CallKey) :
    (e.updateDesk k.command g).call? j = if j = k then (e.call? j).map f else e.call? j := by
  obtain ⟨n, i⟩ := k
  obtain ⟨m, l⟩ := j
  simp only [call?, get?_updateDesk, CallKey.mk.injEq]
  by_cases same : m = n
  · subst same
    cases e.desks.get? m with
    | none => simp
    | some desk =>
        by_cases number : l = i
        · subst number
          simp [calls]
        · simp [calls, number, Ne.symm number]
  · simp [same]

/-- Work on one call leaves the others as they are. -/
theorem call?_updateCall (k j : CallKey) (f : Call → Call) :
    (e.updateCall k f).call? j = if j = k then (e.call? j).map f else e.call? j :=
  call?_updateDesk_of_modify e (fun _ => rfl) j

@[simp] theorem call?_updateCall_self (k : CallKey) (f : Call → Call) :
    (e.updateCall k f).call? k = (e.call? k).map f := by
  simp [call?_updateCall]

theorem call?_updateCall_of_ne {k j : CallKey} (differ : j ≠ k) (f : Call → Call) :
    (e.updateCall k f).call? j = e.call? j := by
  simp [call?_updateCall, differ]

@[simp] theorem queue_updateCall (k : CallKey) (f : Call → Call) :
    (e.updateCall k f).queue = e.queue := queue_updateDesk ..

@[simp] theorem board_updateCall (k : CallKey) (f : Call → Call) :
    (e.updateCall k f).board = e.board := board_updateDesk ..

@[simp] theorem now_updateCall (k : CallKey) (f : Call → Call) :
    (e.updateCall k f).now = e.now := now_updateDesk ..

/-- A call under way has a desk. -/
theorem desk_of_call? {e : Engine} {k : CallKey} {c : Call} (known : e.call? k = some c) :
    ∃ desk, e.desks.get? k.command = some desk ∧ desk.calls[k.number]? = some c := by
  unfold call? at known
  cases found : e.desks.get? k.command with
  | none => simp [found] at known
  | some desk => exact ⟨desk, rfl, by simpa [found] using known⟩

theorem call?_of_desk {e : Engine} {n : Name} {desk : Desk} (found : e.desks.get? n = some desk)
    (i : Nat) : e.call? ⟨n, i⟩ = desk.calls[i]? := by
  simp [call?, found]

/-! ### The worker and the watch -/

@[simp] theorem board_dismiss (k : CallKey) : (e.dismiss k).board = e.board := by
  unfold dismiss
  split
  · rfl
  · split
    · exact board_updateCall ..
    · exact board_updateCall ..

@[simp] theorem board_claim (k : CallKey) : (e.claim k).1.board = e.board := by
  unfold claim
  split
  · rfl
  · split
    · rfl
    · exact board_updateCall ..

@[simp] theorem board_vacate (k : CallKey) : (e.vacate k).board = e.board := by
  unfold vacate
  split
  · rfl
  · dsimp only
    split
    · rw [board_updateDesk, board_updateCall]
    · exact board_updateCall ..

/-- Who wins the claim of a call is the first to claim it. -/
theorem claim_of_true {e e' : Engine} {k : CallKey} (won : e.claim k = (e', true)) :
    ∃ c, e.call? k = some c ∧ c.claimed = false ∧
      e' = e.updateCall k fun c => { c with claimed := true } := by
  unfold claim at won
  split at won
  · simp at won
  · next c here =>
      split at won
      · simp at won
      · next unclaimed => exact ⟨c, here, by simpa using unclaimed, (Prod.mk.inj won).1.symm⟩

/-- A call whose ticket was given back is claimed if it was. -/
theorem claimed_of_vacate {e : Engine} {k : CallKey} {c : Call}
    (known : (e.vacate k).call? k = some c) :
    ∃ d, e.call? k = some d ∧ c.claimed = d.claimed := by
  have shut : ∀ d, e.call? k = some d →
      (e.updateCall k fun c => { c with slot := .shut, watch := .done }).call? k = some c →
        c.claimed = d.claimed := by
    intro d here found
    rw [call?_updateCall_self, here] at found
    obtain rfl := Option.some.inj found
    rfl
  unfold vacate at known
  split at known
  · exact ⟨c, known, rfl⟩
  · next d here =>
      refine ⟨d, here, shut d here ?_⟩
      dsimp only at known
      split at known
      · rwa [call?_updateDesk_of_calls] at known
        exact fun _ => rfl
      · exact known

/-! ### Code that is told how to go on -/

/-- Code that is found under an id waits there. -/
theorem isManual_of_manual? {e : Engine} (distinct : e.desks.names.Nodup) {id : String}
    {k : CallKey} {stage : Stage} (found : e.manual? id = some (k, stage)) :
    ∃ c, e.call? k = some c ∧ c.isManual stage = true := by
  obtain ⟨⟨n, desk⟩, member, inner⟩ := List.exists_of_findSome?_eq_some found
  obtain ⟨⟨c, i⟩, numbered, last⟩ := List.exists_of_findSome?_eq_some inner
  have desks := Roster.get?_of_mem distinct member
  have calls : desk.calls[i]? = some c := List.mk_mem_zipIdx_iff_getElem?.mp numbered
  dsimp only at last
  split at last
  · obtain ⟨waiting, _, here⟩ := List.exists_of_findSome?_eq_some last
    split at here
    · next manual =>
        obtain ⟨rfl, rfl⟩ := Prod.mk.inj (Option.some.inj here)
        exact ⟨c, by rw [call?_of_desk desks, calls], manual⟩
    · simp at here
  · simp at last

end Bulwark.Engine
