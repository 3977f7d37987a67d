import Bulwark.Proofs.Turn

/-!
The clock and the alarms.

An alarm that goes off gives the part that is due its turn (`Ordered.ring`). The
clock may move as long as the regime allows it: under the loose regime anywhere,
otherwise not past an alarm (`Ordered.setNow`); short of all alarms, every deadline
lies ahead (`Ordered.pass`).
-/

namespace Bulwark

namespace Call

/-- When parts of a call are due. -/
theorem mem_alarms {c : Call} {due : Instant} {p : Part} :
    (due, p) ∈ c.alarms ↔
      (∃ stage next, p = .code stage ∧ c.wait? stage = some (.timer due next)) ∨
        p = .watch ∧ c.watch = .armed due := by
  simp only [alarms, List.mem_append]
  constructor
  · rintro ((operation | fallback) | watch)
    · split at operation
      · next due' next waits =>
          obtain ⟨rfl, rfl⟩ : due = due' ∧ p = .code .operation := by simpa using operation
          exact .inl ⟨.operation, next, rfl, waits⟩
      · simp at operation
    · split at fallback
      · next due' next waits =>
          obtain ⟨rfl, rfl⟩ : due = due' ∧ p = .code .fallback := by simpa using fallback
          exact .inl ⟨.fallback, next, rfl, waits⟩
      · simp at fallback
    · split at watch
      · next due' armed =>
          obtain ⟨rfl, rfl⟩ : due = due' ∧ p = .watch := by simpa using watch
          exact .inr ⟨rfl, armed⟩
      · simp at watch
  · rintro (⟨stage, next, rfl, waits⟩ | ⟨rfl, armed⟩)
    · cases stage with
      | operation => exact .inl (.inl (by simp [waits]))
      | fallback => exact .inl (.inr (by simp [waits]))
    · exact .inr (by simp [armed])

end Call

namespace Engine

variable {r r' : Regime} {e : Engine} {k : CallKey} {c : Call}

/-- It matters only what becomes of the call as it is. -/
theorem updateCall_congr (here : e.call? k = some c) {f g : Call → Call} (same : f c = g c) :
    e.updateCall k f = e.updateCall k g := by
  obtain ⟨desk, found, numbered⟩ := desk_of_call? here
  have calls : desk.calls.modify k.number f = desk.calls.modify k.number g := by
    refine List.ext_getElem? ?_
    intro i
    simp only [List.getElem?_modify]
    by_cases at_ : k.number = i
    · subst at_
      simp [numbered, same]
    · simp [at_]
  simp only [updateCall, updateDesk, found, calls]

/-- A call is looked after, as it is between two turns. -/
theorem Ordered.act (ordered : e.Ordered r none) (here : e.call? k = some c) :
    e.Acting r k c (e.tale k) none where
  rest := ⟨ordered.orderly, fun i d _ found => ordered.kept i d (by simp) found⟩
  here := here
  tale := rfl
  tended p _ := (ordered.kept k c (by simp) here).tended p

/-- An alarm goes off. -/
theorem Ordered.ring (ordered : e.Ordered r none) (here : e.call? k = some c) {due : Instant}
    {p : Part} (alarm : (due, p) ∈ c.alarms) :
    ((e.updateCall k (·.ring p)).enqueue (.poll k p)).Ordered r none := by
  have kept := ordered.kept k c (by simp) here
  have acting := ordered.act here
  have ready : Turn.poll k p ∈ ((e.updateCall k (·.ring p)).enqueue (.poll k p)).queue :=
    List.mem_append_right _ (List.mem_singleton.mpr rfl)
  rcases Call.mem_alarms.mp alarm with ⟨stage, next, rfl, waits⟩ | ⟨rfl, armed⟩
  -- Code whose timer goes off wakes like code that is handed a script.
  · have rung : (e.updateCall k (·.ring (.code stage))).enqueue (.poll k (.code stage)) =
        e.wake k stage next := by
      rw [Engine.wake, updateCall_congr here]
      simp only [Call.ring, waits]
    rw [rung]
    exact ordered.wake ..
  -- The watch has its turn to come, and nothing else of the call changes.
  · let rang : Call → Call := fun c => c.ring .watch
    have expired : rang c = { c with watch := .expired } := by simp [rang, Call.ring, armed]
    have rung : (e.updateCall k rang).Acting r k (rang c) (e.tale k) (some .watch) := by
      refine acting.update (f := rang) ?_ ?_ ?_ ?_
      · intro d
        simp only [rang, Call.ring]
        split <;> rfl
      · rw [expired]
      · rw [expired]
      · intro q free
        rw [expired]
        rcases q with stage | _
        · cases stage with
          | operation => exact acting.tended (.code .operation) (by simp)
          | fallback => exact acting.tended (.code .fallback) (by simp)
        · exact absurd rfl free
    have sound := kept.sound
    rw [expired] at rung
    have told : Call.Told (e.tale k) { c with watch := .expired } := by
      refine ⟨kept.told.work, ?_⟩
      intro timedOut
      have through := kept.told.late timedOut
      simp [armed] at through
    refine ((rung.enqueue (.poll k .watch)).disengage ready).close ?_ told kept.resolution
    constructor
    case shut_iff =>
      have open_ := sound.shut_iff
      simpa [armed] using open_
    case vacant => exact sound.vacant
    case holding => exact sound.holding
    case claimed => exact sound.claimed
    case armed => simp
    case dismissed => simp
    case overtaken =>
      intro claimed
      have past := sound.overtaken claimed
      simpa [armed] using past
    case watched => simp

/-! ### The clock moves -/

/-- A part is seen to at another time, if no alarm of its call is overdue then. -/
theorem Tended.setNow {t : Instant} {p : Part} (tended : e.Tended r k c p)
    (slack : c.work.phase = .asked → r = .loose → r' = .loose)
    (due : ∀ a ∈ c.alarms, r'.Deadline t a.1) : (e.setNow t).Tended r' k c p := by
  -- Of all that code can wait for, only a timer looks at the clock.
  have minded : ∀ {stage wait}, c.wait? stage = some wait → e.Minded r k stage wait →
      (e.setNow t).Minded r' k stage wait := by
    intro stage wait waits before
    cases wait with
    | timer d next =>
        have alarm : (d, Part.code stage) ∈ c.alarms :=
          Call.mem_alarms.mpr (.inl ⟨stage, next, rfl, waits⟩)
        exact (due _ alarm).imp_right And.left
    | manual => trivial
    | call inner => exact before
    | turn next => exact before
  rcases p with stage | _
  · cases stage with
    | operation =>
        simp only [Tended] at tended ⊢
        split at tended
        · exact tended
        · next work => exact slack (by simp [work, Work.phase]) tended
        · next work => exact minded (by simp [Call.wait?, work]) tended
        · trivial
    | fallback =>
        simp only [Tended] at tended ⊢
        split at tended
        · next rescue => exact minded (by simp [Call.wait?, rescue]) tended
        · trivial
  · simp only [Tended] at tended ⊢
    split at tended
    · next d armed => exact due (d, .watch) (Call.mem_alarms.mpr (.inr ⟨rfl, armed⟩))
    · trivial
    · exact tended

/-- The clock moves, if no alarm is overdue then. A regime that holds up no worker
may follow one that does if no worker is held up. -/
theorem Ordered.setNow (ordered : e.Ordered r none) {t : Instant}
    (slack : r = .loose → r' = .loose ∨
      ∀ k c, e.call? k = some c → c.work.phase ≠ .asked)
    (due : ∀ k c, e.call? k = some c → ∀ a ∈ c.alarms, r'.Deadline t a.1) :
    (e.setNow t).Ordered r' none where
  orderly :=
    have orderly := ordered.orderly
    ⟨orderly.distinct, orderly.equipped, orderly.usable,
      fun n desk found => ⟨(orderly.balanced n desk found).capacity,
        (orderly.balanced n desk found).balance⟩,
      orderly.blank, orderly.labelled, orderly.origin⟩
  kept i d other here :=
    have kept := ordered.kept i d other here
    ⟨kept.sound, kept.told, kept.resolution,
      fun p => (kept.tended p).setNow
        (fun asked loose => (slack loose).resolve_right fun free => free i d here asked)
        (due i d here)⟩

/-! ### Alarms of the engine -/

/-- The alarms of an engine are those of the tasks of its calls. -/
theorem mem_alarms_iff (distinct : e.desks.names.Nodup) {a : Alarm} :
    a ∈ e.alarms ↔ ∃ c, e.call? a.call = some c ∧ (a.due, a.part) ∈ c.alarms := by
  obtain ⟨due, ⟨n, i⟩, p⟩ := a
  simp only [alarms, Desk.alarms, List.mem_flatMap]
  constructor
  · rintro ⟨⟨m, desk⟩, member, ⟨c, j⟩, numbered, alarm⟩
    obtain ⟨⟨d, q⟩, listed, same⟩ := List.mem_map.mp alarm
    obtain ⟨rfl, ⟨rfl, rfl⟩, rfl⟩ : d = due ∧ (m = n ∧ j = i) ∧ q = p := by simpa using same
    refine ⟨c, ?_, listed⟩
    rw [call?_of_desk (Roster.get?_of_mem distinct member)]
    exact List.mk_mem_zipIdx_iff_getElem?.mp numbered
  · rintro ⟨c, here, listed⟩
    obtain ⟨desk, found, numbered⟩ := desk_of_call? here
    refine ⟨(n, desk), Roster.mem_of_get? found, (c, i), ?_, ?_⟩
    · exact List.mk_mem_zipIdx_iff_getElem?.mpr numbered
    · exact List.mem_map.mpr ⟨(due, p), listed, rfl⟩

/-- The clock moves on to an instant until which no alarm is due, while no worker is
held up. -/
theorem Ordered.pass (ordered : e.Ordered r none)
    (free : r = .loose → ∀ k c, e.call? k = some c → c.work.phase ≠ .asked) {t : Instant}
    (ahead : ∀ a ∈ e.alarms, t.nanos < a.due.nanos) : (e.setNow t).Ordered .ahead none := by
  refine ordered.setNow (fun loose => .inr (free loose)) ?_
  intro k c here b listed
  have later := ahead ⟨b.1, k, b.2⟩
    ((mem_alarms_iff ordered.orderly.distinct).mpr ⟨c, here, listed⟩)
  exact .inr ⟨Int.le_of_lt later, fun _ => later⟩

end Engine

theorem Alarm.earliest_eq_none {alarms : List Alarm} (none_ : Alarm.earliest alarms = none) :
    alarms = [] := by
  cases alarms with
  | nil => rfl
  | cons a rest =>
      simp only [earliest] at none_
      split at none_
      · simp at none_
      · split at none_ <;> simp at none_

/-- The earliest alarm is one of the alarms, and none is due before it. -/
theorem Alarm.earliest_le {alarms : List Alarm} {a : Alarm}
    (first : Alarm.earliest alarms = some a) :
    a ∈ alarms ∧ ∀ b ∈ alarms, a.due.nanos ≤ b.due.nanos := by
  induction alarms generalizing a with
  | nil => simp [earliest] at first
  | cons b rest ih =>
      simp only [earliest] at first
      split at first
      · next last =>
          obtain rfl := Option.some.inj first
          simp [earliest_eq_none last]
      · next c later =>
          obtain ⟨member, least⟩ := ih later
          split at first
          · next before =>
              obtain rfl := Option.some.inj first
              refine ⟨List.mem_cons_of_mem _ member, ?_⟩
              intro d listed
              rcases List.mem_cons.mp listed with rfl | among
              · omega
              · exact least d among
          · next after =>
              obtain rfl := Option.some.inj first
              refine ⟨List.mem_cons_self, ?_⟩
              intro d listed
              rcases List.mem_cons.mp listed with rfl | among
              · omega
              · have bound := least d among
                omega

end Bulwark
