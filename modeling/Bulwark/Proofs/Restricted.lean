import Bulwark.Proofs.Apart
import Bulwark.Proofs.Rest

/-!
Restricted engines come to rest as whole ones do.

What is left out of an engine takes turns of its own and has alarms of its own, so a
restricted engine takes fewer turns, and its clock goes on in longer strides. How far
both are given fuel does not matter, since both come to rest before it is used up.

* `Engine.Parted.within_rest`: an engine at rest, restricted, is the restricted engine
  at rest.
* `Engine.Parted.within_advance`: the same holds of an engine that lets time pass.
-/

namespace Bulwark

namespace Engine

variable {s : Scope} {seen : List String} {e : Engine}

/-! ### Taking all turns -/

theorem settle_of_queue_nil (atRest : e.queue = []) (n : Nat) : settle n e = e := by
  cases n with
  | zero => rfl
  | succ n => simp only [settle, atRest]

/-- Turns may be counted in two parts. -/
theorem settle_add (m n : Nat) (e : Engine) : settle (m + n) e = settle n (settle m e) := by
  induction m generalizing e with
  | zero => rw [Nat.zero_add, settle]
  | succ m ih =>
      rw [Nat.succ_add]
      cases queued : e.queue with
      | nil => simp only [settle, queued, settle_of_queue_nil queued]
      | cons t rest => simp only [settle, queued, ih]

/-- However many turns an engine may take, it comes to the same rest. -/
theorem settle_eq {m n : Nat} (first : (settle m e).queue = []) (second : (settle n e).queue = []) :
    settle m e = settle n e := by
  calc settle m e = settle n (settle m e) := (settle_of_queue_nil first n).symm
    _ = settle (m + n) e := (settle_add m n e).symm
    _ = settle (n + m) e := by rw [Nat.add_comm]
    _ = settle m (settle n e) := settle_add n m e
    _ = settle n e := settle_of_queue_nil second m

/-- The turns of the commands that are kept are those of the restricted engine. -/
theorem Parted.within_settle (parted : e.Parted s seen) (n : Nat) :
    (settle n e).Parted s seen ∧ ∃ m, (settle n e).within s = settle m (e.within s) := by
  induction n generalizing e with
  | zero => exact ⟨parted, 0, rfl⟩
  | succ n ih =>
      cases queued : e.queue with
      | nil =>
          rw [settle_of_queue_nil queued]
          exact ⟨parted, 0, rfl⟩
      | cons t rest =>
          simp only [settle, queued]
          obtain ⟨settled, m, same⟩ := ih (parted.take queued)
          refine ⟨settled, ?_⟩
          by_cases kept : s.commands t.command = true
          · refine ⟨m + 1, ?_⟩
            have turn : (e.within s).queue = t :: rest.filter (fun t => s.commands t.command) := by
              simp [within, queued, kept]
            rw [same, parted.within_take queued kept]
            simp only [settle, turn]
            rfl
          · have other := eq_false_of_ne_true kept
            refine ⟨m, ?_⟩
            have skipped : e.within s = ({ e with queue := rest } : Engine).within s := by
              simp [within, queued, other]
            rw [same, parted.within_take_of_other queued other, skipped]

theorem within_queue_nil (atRest : e.queue = []) : (e.within s).queue = [] := by
  simp [within, atRest]

/-- At rest the restriction is at rest too. -/
theorem Parted.within_rest (parted : e.Parted s seen) (rested : e.rest.queue = [])
    (restedWithin : (e.within s).rest.queue = []) :
    e.rest.Parted s seen ∧ e.rest.within s = (e.within s).rest := by
  obtain ⟨settled, m, same⟩ := parted.within_settle e.fuel
  refine ⟨settled, ?_⟩
  have quiet := within_queue_nil (s := s) rested
  rw [rest, same] at quiet
  exact same.trans (settle_eq quiet restedWithin)

/-! ### From alarm to alarm -/

/-- The earliest of some alarms is the earliest of any of them that it is among. -/
theorem earliest_filter {p : Alarm → Bool} {alarms : List Alarm} {a : Alarm}
    (first : Alarm.earliest alarms = some a) (kept : p a = true) :
    Alarm.earliest (alarms.filter p) = some a := by
  induction alarms generalizing a with
  | nil => cases first
  | cons b rest ih =>
      simp only [Alarm.earliest] at first
      cases later : Alarm.earliest rest with
      | none =>
          rw [later] at first
          obtain rfl := Option.some.inj first
          rw [Alarm.earliest_eq_none later, List.filter_cons_of_pos kept]
          rfl
      | some c =>
          simp only [later] at first
          split at first
          · next before =>
              obtain rfl := Option.some.inj first
              -- The first alarm comes before this one, whether this one is kept or not.
              have tail := ih later kept
              by_cases among : p b = true
              · rw [List.filter_cons_of_pos among, Alarm.earliest, tail]
                exact if_pos before
              · rw [List.filter_cons_of_neg among, tail]
          · next after =>
              obtain rfl := Option.some.inj first
              rw [List.filter_cons_of_pos kept, Alarm.earliest]
              cases tail : Alarm.earliest (rest.filter p) with
              | none => rfl
              | some d =>
                  have member := (Alarm.earliest_le tail).1
                  have least := (Alarm.earliest_le later).2 d (List.mem_filter.mp member).1
                  exact if_neg (by omega)

/-- The alarms of a side are those of its commands. -/
theorem alarms_within (s : Scope) (e : Engine) :
    (e.within s).alarms = e.alarms.filter fun a => s.commands a.call.command := by
  have alarms : ∀ entry ∈ e.desks, ∀ a ∈ entry.2.alarms entry.1, a.call.command = entry.1 := by
    rintro ⟨n, desk⟩ _ a member
    obtain ⟨⟨c, i⟩, _, alarm⟩ := List.mem_flatMap.mp member
    obtain ⟨_, _, rfl⟩ := List.mem_map.mp alarm
    rfl
  simp only [Engine.alarms, within, Roster.only]
  generalize e.desks = desks at alarms
  induction desks with
  | nil => rfl
  | cons entry rest ih =>
      have later := ih fun other member => alarms other (List.mem_cons_of_mem _ member)
      have own := alarms entry List.mem_cons_self
      rw [List.flatMap_cons, List.filter_append, ← later]
      by_cases kept : s.commands entry.1 = true
      · rw [List.filter_cons_of_pos (by exact kept), List.flatMap_cons]
        congr 1
        exact (List.filter_eq_self.mpr fun a member => by rw [own a member, kept]).symm
      · rw [List.filter_cons_of_neg (by exact kept)]
        have none_ : (entry.2.alarms entry.1).filter (fun a => s.commands a.call.command) = [] :=
          List.filter_eq_nil_iff.mpr fun a member => by rw [own a member]; exact kept
        rw [none_, List.nil_append]

/-- Where the clock stands does not matter to what is due. -/
theorem runUntil_setNow (n : Nat) (t u : Instant) (e : Engine) :
    runUntil n t (e.setNow u) = runUntil n t e := by
  cases n with
  | zero => rfl
  | succ n => rfl

/-- Where every alarm lies ahead, only the clock moves. -/
theorem runUntil_of_ahead {t : Instant} (ahead : ∀ a ∈ e.alarms, t.nanos < a.due.nanos) (n : Nat) :
    runUntil n t e = e.setNow t := by
  cases n with
  | zero => rfl
  | succ n =>
      unfold runUntil
      cases first : Alarm.earliest e.alarms with
      | none => rfl
      | some a =>
          have later := ahead a (Alarm.earliest_le first).1
          exact if_neg (by omega)

/-- Waiting may be counted in two parts. -/
theorem runUntil_add (m n : Nat) (t : Instant) (e : Engine) :
    runUntil (m + n) t e = runUntil n t (runUntil m t e) := by
  induction m generalizing e with
  | zero => rw [Nat.zero_add, runUntil, runUntil_setNow]
  | succ m ih =>
      rw [Nat.succ_add]
      cases first : Alarm.earliest e.alarms with
      | none =>
          have ahead : ∀ a ∈ e.alarms, t.nanos < a.due.nanos := by
            simp [Alarm.earliest_eq_none first]
          rw [runUntil_of_ahead ahead, runUntil_of_ahead ahead, runUntil_setNow,
            runUntil_of_ahead ahead]
      | some a =>
          by_cases due : a.due.nanos ≤ t.nanos
          · simp only [runUntil, first, due, if_true]
            exact ih _
          · have ahead : ∀ b ∈ e.alarms, t.nanos < b.due.nanos := by
              intro b member
              have least := (Alarm.earliest_le first).2 b member
              omega
            rw [runUntil_of_ahead ahead, runUntil_of_ahead ahead, runUntil_setNow,
              runUntil_of_ahead ahead]

/-- At whatever number of alarms an engine may stop, it comes to the same if it stops
after all that are due. -/
theorem runUntil_eq {m n : Nat} {t : Instant}
    (first : ∀ a ∈ (runUntil m t e).alarms, t.nanos < a.due.nanos)
    (second : ∀ a ∈ (runUntil n t e).alarms, t.nanos < a.due.nanos) :
    (runUntil m t e).setNow t = (runUntil n t e).setNow t := by
  calc (runUntil m t e).setNow t = runUntil n t (runUntil m t e) := (runUntil_of_ahead first n).symm
    _ = runUntil (m + n) t e := (runUntil_add m n t e).symm
    _ = runUntil (n + m) t e := by rw [Nat.add_comm]
    _ = runUntil m t (runUntil n t e) := runUntil_add n m t e
    _ = (runUntil n t e).setNow t := runUntil_of_ahead second m

theorem setNow_runUntil (n : Nat) (t : Instant) (e : Engine) :
    (runUntil n t e).setNow t = runUntil n t e := by
  induction n generalizing e with
  | zero => rfl
  | succ n ih =>
      unfold runUntil
      split
      · rfl
      · split
        · exact ih _
        · rfl

theorem Parted.setNow (parted : e.Parted s seen) (t : Instant) : (e.setNow t).Parted s seen :=
  ⟨parted.calls, parted.queue, parted.handles, parted.tickets, parted.silent⟩

section Fire

variable {a : Alarm}

theorem Parted.follows_fire (parted : e.Parted s seen) {side : Bool}
    (on : s.commands a.call.command = side) :
    Follows s seen side ((e.within s).setNow a.due) ((if side then e.within s else e).fire a)
      (e.fire a) := by
  have moved := (parted.setNow a.due).follows side
  have rung := (moved.updateCall on fun _ fits => fits.ring a.part).poll on a.part
  cases side <;> exact rung

theorem Parted.fire (parted : e.Parted s seen) (a : Alarm) : (e.fire a).Parted s seen :=
  (parted.follows_fire (a := a) rfl).parted

/-- An alarm of a command that is kept goes off in the restricted engine. -/
theorem Parted.within_fire (parted : e.Parted s seen) (kept : s.commands a.call.command = true) :
    (e.fire a).within s = (e.within s).fire a :=
  (parted.follows_fire kept).view.symm

/-- At any other alarm the clock of the restricted engine moves. -/
theorem Parted.within_fire_of_other (parted : e.Parted s seen)
    (other : s.commands a.call.command = false) :
    (e.fire a).within s = (e.within s).setNow a.due :=
  (parted.follows_fire other).still rfl

/-- After an alarm of a command that is kept, both engines come to rest. -/
theorem Parted.within_rest_fire (parted : e.Parted s seen) (ordered : e.Ordered .punctual none)
    (orderedWithin : (e.within s).Ordered .punctual none)
    (first : Alarm.earliest e.alarms = some a) (kept : s.commands a.call.command = true) :
    Alarm.earliest (e.within s).alarms = some a ∧
      (e.fire a).rest.within s = ((e.within s).fire a).rest := by
  have firstWithin : Alarm.earliest (e.within s).alarms = some a := by
    rw [alarms_within]
    exact earliest_filter first kept
  refine ⟨firstWithin, ?_⟩
  have fired := parted.fire a
  have restedWithin := (orderedWithin.fire firstWithin).rest.2
  rw [← parted.within_fire kept] at restedWithin ⊢
  exact (fired.within_rest (ordered.fire first).rest.2 restedWithin).2

/-- After any other alarm, the restricted engine has nothing to do. -/
theorem Parted.within_rest_fire_of_other (parted : e.Parted s seen)
    (ordered : e.Ordered .punctual none) (atRest : e.queue = [])
    (first : Alarm.earliest e.alarms = some a) (other : s.commands a.call.command = false) :
    (e.fire a).rest.within s = (e.within s).setNow a.due := by
  have fired := parted.fire a
  have same := parted.within_fire_of_other other
  have idle : ((e.fire a).within s).queue = [] := by
    rw [same]
    exact within_queue_nil atRest
  have rested : ((e.fire a).within s).rest = (e.fire a).within s := settle_of_queue_nil idle _
  rw [(fired.within_rest (ordered.fire first).rest.2 (rested.symm ▸ idle)).2, rested, same]

end Fire

/-- The alarms of the commands that are kept are those of the restricted engine. -/
theorem Parted.within_runUntil (parted : e.Parted s seen) (ordered : e.Ordered .punctual none)
    (orderedWithin : (e.within s).Ordered .punctual none) (atRest : e.queue = []) (n : Nat)
    (t : Instant) :
    (runUntil n t e).Parted s seen ∧
      ∃ m, (runUntil n t e).within s = runUntil m t (e.within s) := by
  induction n generalizing e with
  | zero => exact ⟨parted.setNow t, 0, rfl⟩
  | succ n ih =>
      cases first : Alarm.earliest e.alarms with
      | none =>
          simp only [runUntil, first]
          exact ⟨parted.setNow t, 0, rfl⟩
      | some a =>
          by_cases due : a.due.nanos ≤ t.nanos
          · have fires : runUntil (n + 1) t e = runUntil n t (e.fire a).rest := by
              simp only [runUntil, first, due, if_true]
            rw [fires]
            have rested := (ordered.fire first).rest
            have settled : (e.fire a).rest.Parted s seen := ((parted.fire a).within_settle _).1
            by_cases kept : s.commands a.call.command = true
            · obtain ⟨firstWithin, same⟩ :=
                parted.within_rest_fire ordered orderedWithin first kept
              have restedWithin := (orderedWithin.fire firstWithin).rest.1
              rw [← same] at restedWithin
              obtain ⟨after, m, run⟩ := ih settled rested.1 restedWithin rested.2
              refine ⟨after, m + 1, run.trans ?_⟩
              simp only [runUntil, firstWithin, due, if_true, same]
            -- For what is kept an alarm of the other side is the clock that moves on.
            · have same := parted.within_rest_fire_of_other ordered atRest first
                (eq_false_of_ne_true kept)
              have waited : ((e.within s).setNow a.due).Ordered .punctual none := by
                refine orderedWithin.wait fun b member => (Alarm.earliest_le first).2 b ?_
                rw [alarms_within] at member
                exact (List.mem_filter.mp member).1
              rw [← same] at waited
              obtain ⟨after, m, run⟩ := ih settled rested.1 waited rested.2
              refine ⟨after, m, run.trans ?_⟩
              rw [same, runUntil_setNow]
          · simp only [runUntil, first, due, if_false]
            exact ⟨parted.setNow t, 0, rfl⟩

/-- Letting time pass is the same for an engine, restricted, and the restricted engine. -/
theorem Parted.within_advance (parted : e.Parted s seen) (ordered : e.Ordered .punctual none)
    (orderedWithin : (e.within s).Ordered .punctual none) (atRest : e.queue = []) (d : Duration) :
    (e.advance d).Parted s seen ∧ (e.advance d).within s = (e.within s).advance d := by
  obtain ⟨after, m, run⟩ :=
    parted.within_runUntil ordered orderedWithin atRest e.turns (e.now.later d)
  refine ⟨after, ?_⟩
  have ahead := (ordered.runUntil atRest (Nat.le_refl _) (e.now.later d)).2.2
  have aheadWithin := (orderedWithin.runUntil (within_queue_nil atRest) (Nat.le_refl _)
    (e.now.later d)).2.2
  have kept : ∀ a ∈ (runUntil m (e.now.later d) (e.within s)).alarms,
      (e.now.later d).nanos < a.due.nanos := by
    intro a member
    rw [← run, alarms_within] at member
    exact ahead a (List.mem_filter.mp member).1
  have same := runUntil_eq kept aheadWithin
  rw [setNow_runUntil, setNow_runUntil] at same
  exact run.trans same

end Engine

end Bulwark
