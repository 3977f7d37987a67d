import Bulwark.Proofs.Rejection
import Bulwark.Proofs.Stranded

/-!
Tickets are accounted for.

At every moment the tickets of a command that are out are held by calls or were
taken by hand. At rest, the calls that hold one are those whose operation is under
way: it was started, has not ended, and the time of the call is not up
(`Kept.holding_iff_underway`). A call whose time is up holds none, though its
operation may still run, and when that operation ends no pool changes
(`Ordered.pool_late`). A call is rejected only if no ticket is free when its worker
asks for one (`Ordered.full_of_rejected`).
-/

namespace Bulwark

/-- What changes at one place of a list, counted by places. -/
theorem countP_eq_countP_range {α : Type} {l : List α} {kind : α → Bool} {at_ : Nat → Bool}
    (same : ∀ i a, l[i]? = some a → kind a = at_ i) :
    l.countP kind = (List.range l.length).countP at_ := by
  induction l generalizing at_ with
  | nil => rfl
  | cons a rest ih =>
      have first : kind a = at_ 0 := same 0 a rfl
      have later : rest.countP kind = (List.range rest.length).countP (at_ ∘ Nat.succ) :=
        ih fun i b found => same (i + 1) b (by simpa using found)
      rw [List.length_cons, List.range_succ_eq_map, List.countP_cons, List.countP_cons,
        List.countP_map, first, later]

/-- The operation of a call was started and has not ended, and the call has not
reported that its time was up. -/
def Tale.Underway (t : Tale) : Prop := t.starts = 1 ∧ t.ends = [] ∧ .timeout ∉ t.events

instance (t : Tale) : Decidable t.Underway := inferInstanceAs (Decidable (_ ∧ _ ∧ _))

/-- A claimed call whose operation started and has not ended is one whose time was
up. -/
theorem Resolution.timeout_of_open {t : Tale} {rescue : Rescue} {verdict : Option Verdict}
    (resolution : Resolution t true rescue verdict) (started : t.starts = 1) (open_ : t.ends = []) :
    .timeout ∈ t.events := by
  rcases resolution.events_cases with ⟨unclaimed, _⟩ | ⟨_, ended⟩ |
    ⟨o, cause, rest, blame, reported, _⟩
  · simp at unclaimed
  · simp [open_] at ended
  · cases blame with
    | shortCircuited idle => simp [started] at idle
    | rejected idle => simp [started] at idle
    | timeout => simp [reported]
    | failure ended => simp [open_] at ended

namespace Engine

variable {r : Regime} {e e' : Engine} {k : CallKey} {c : Call} {t : Tale}

/-! ### Tickets at rest -/

/-- At rest, a call holds a ticket iff its operation is under way. -/
theorem Kept.holding_iff_underway (kept : e.Kept r k c) (atRest : e.queue = [])
    (free : c.work.phase ≠ .asked) : c.slot = .holding ↔ (e.tale k).Underway := by
  rw [kept.holding_iff atRest]
  constructor
  · rintro ⟨running, open_⟩
    have told := kept.told.work
    cases work : c.work with
    | running since wait =>
        simp only [work, Work.Told] at told
        exact ⟨told.1, told.2, fun timedOut => open_ (kept.told.late timedOut)⟩
    | _ => simp [work, Work.phase] at running
  · rintro ⟨started, unended, inTime⟩
    have told := kept.told.work
    constructor
    · apply (kept.phase_of_rest atRest free).resolve_right
      intro done
      cases work : c.work with
      | done =>
          simp only [work, Work.Told] at told
          rcases told with ⟨idle, _⟩ | ⟨_, fault, ended⟩
          · simp [started] at idle
          · simp [unended] at ended
      | _ => simp [work, Work.phase] at done
    · intro through
      have resolution := kept.resolution
      cases claimed : c.claimed with
      | false => exact kept.sound.watched claimed through
      | true =>
          rw [claimed] at resolution
          exact inTime (resolution.timeout_of_open started unended)

def underway (e : Engine) (n : Name) (desk : Desk) : Nat :=
  (List.range desk.calls.length).countP fun i => decide (e.tale ⟨n, i⟩).Underway

/-- At rest, the calls that hold a ticket are those whose operation is under way. -/
theorem Ordered.seated_eq_underway (ordered : e.Ordered r none) (atRest : e.AtRest) {n : Name}
    {desk : Desk} (found : e.desks.get? n = some desk) : desk.seated = e.underway n desk := by
  apply countP_eq_countP_range
  intro i c numbered
  have here : e.call? ⟨n, i⟩ = some c := (call?_of_desk found i).trans numbered
  have held := (ordered.kept ⟨n, i⟩ c (by simp) here).holding_iff_underway atRest.queue
    (atRest.phase here)
  simp only [held]

/-! ### Operations that end late -/

def pool? (e : Engine) (n : Name) : Option Pool := (e.desks.get? n).map (·.pool)

/-- Work on a call touches no pool. -/
theorem pool?_updateCall (i : CallKey) (f : Call → Call) (n : Name) :
    (e.updateCall i f).pool? n = e.pool? n := by
  simp only [pool?, updateCall, get?_updateDesk]
  split
  · cases e.desks.get? n <;> rfl
  · rfl

theorem pool?_dismiss (i : CallKey) (n : Name) : (e.dismiss i).pool? n = e.pool? n := by
  unfold dismiss
  split
  · rfl
  · split
    · exact pool?_updateCall ..
    · exact pool?_updateCall ..

/-- An operation whose call was claimed before gives no ticket back when it ends. -/
theorem pool?_endOperation_of_claimed (here : e.call? k = some c) (claimed : c.claimed = true)
    (took : Duration) (fault : Option Fault) (n : Name) :
    (e.endOperation k took fault).pool? n = e.pool? n := by
  let noted := e.note (.ended k .operation fault)
  have left : (noted.dismiss k).call? k = some c.leave := call?_dismiss here
  have lost : (noted.dismiss k).claim k = (noted.dismiss k, false) :=
    claim_of_claimed left (by simpa using claimed)
  have same : (noted.dismiss k).pool? n = e.pool? n := pool?_dismiss (e := noted) k n
  cases fault with
  | none =>
      simp only [endOperation]
      rw [lost]
      exact same
  | some fault =>
      simp only [endOperation]
      rw [lost]
      exact same

/-- When an operation ends after the time of its call was up, no ticket is given
back. -/
theorem Ordered.pool_late (ordered : e.Ordered .loose none) (here : e.call? k = some c)
    (timedOut : .timeout ∈ (e.tale k).events) (event : Next e e')
    (ended : (e'.tale k).ends ≠ (e.tale k).ends) (n : Name) : e'.pool? n = e.pool? n := by
  have kept := ordered.kept k c (by simp) here
  have claimed := kept.resolution.claimed_of_event timedOut
  obtain ⟨before, after, since, next, queued, work, rfl⟩ :=
    ordered.turn_of_late here timedOut event ended
  have idle : c.isManual .operation = false := by simp [Call.isManual, Call.wait?, work]
  obtain ⟨c', played, spared, _⟩ := (ordered.open queued here).play idle next
  have same := play_of_ended (e := { e with queue := before ++ after }) (k := k)
    .operation next
  have claimed' := spared.claimed.trans claimed
  simp only [playOperation] at ended ⊢
  split at ended
  · next later wait went =>
      rw [went] at played
      rw [tale_updateCall, played.tale] at ended
      exact absurd rfl ended
  · next later went =>
      -- The call was claimed before, so the end gives nothing back.
      rw [went] at played same
      have desks : later.desks = e.desks := (same (by simp)).1
      rw [pool?_endOperation_of_claimed played.here claimed']
      simp only [pool?, desks]
  · next later fault went =>
      rw [went] at played same
      have desks : later.desks = e.desks := (same (by simp)).1
      rw [pool?_endOperation_of_claimed played.here claimed']
      simp only [pool?, desks]

/-! ### All in all -/

/-- The tickets of a command are accounted for. -/
structure Accounted (e : Engine) (n : Name) (desk : Desk) : Prop where
  total : desk.pool.free + desk.pool.inUse = desk.pool.capacity
  bounded : desk.pool.inUse ≤ desk.settings.maxConcurrent
  /-- The tickets that are out are held by calls or were taken by hand. -/
  held : desk.pool.inUse = desk.seated + e.handed n
  /-- At rest, the calls that hold tickets are those whose operation is under way. -/
  atRest : e.AtRest → desk.pool.inUse = e.underway n desk + e.handed n
  /-- A call whose time is up holds no ticket. -/
  timedOut : ∀ i c, desk.calls[i]? = some c → .timeout ∈ (e.tale ⟨n, i⟩).events →
    c.slot ≠ .holding
  /-- When its operation ends after that, no ticket is given back. -/
  late : ∀ i c, desk.calls[i]? = some c → .timeout ∈ (e.tale ⟨n, i⟩).events → ∀ e', Next e e' →
    (e'.tale ⟨n, i⟩).ends ≠ (e.tale ⟨n, i⟩).ends → e'.pool? n = some desk.pool
  /-- At rest, a call whose fallback waits holds no ticket. -/
  rescued : e.AtRest → ∀ c ∈ desk.calls, (c.wait? .fallback).isSome → c.slot ≠ .holding
  /-- A call is rejected only when no ticket is free. -/
  rejected : ∀ i e', Next e e' → .rejected ∈ (e'.tale ⟨n, i⟩).events →
    .rejected ∉ (e.tale ⟨n, i⟩).events → desk.pool.free = 0

/-- A call that waits in its fallback holds no ticket at rest. -/
theorem Kept.unseated_of_rescue (kept : e.Kept r k c) (atRest : e.queue = [])
    (waits : (c.wait? .fallback).isSome) : c.slot ≠ .holding := by
  intro seated
  obtain ⟨running, open_⟩ := (kept.holding_iff atRest).mp seated
  have resolution := kept.resolution
  cases rescue : c.rescue with
  | running cause took wait =>
      rw [rescue] at resolution
      rcases kept.sound.overtaken resolution.of_running.1 with done | through
      · simp [running] at done
      · exact open_ through
  | none | unused => simp [Call.wait?, rescue] at waits

/-- At every moment of every run, the tickets of every command are accounted for. -/
theorem Reached.accounted (reached : e.Reached) {n : Name} {desk : Desk}
    (found : e.desks.get? n = some desk) : e.Accounted n desk := by
  have ordered := reached.ordered
  obtain ⟨capacity, balance⟩ := ordered.orderly.balanced n desk found
  have known : ∀ i c, desk.calls[i]? = some c → e.call? ⟨n, i⟩ = some c :=
    fun i c numbered => (call?_of_desk found i).trans numbered
  have held : desk.pool.inUse = desk.seated + e.handed n := by
    simp only [Pool.inUse]
    omega
  constructor
  case total =>
    simp only [Pool.inUse]
    omega
  case bounded =>
    simp only [Pool.inUse]
    omega
  case held => exact held
  case atRest =>
    intro atRest
    rw [held, ordered.seated_eq_underway atRest found]
  case timedOut =>
    intro i c numbered timedOut seated
    have kept := ordered.kept ⟨n, i⟩ c (by simp) (known i c numbered)
    have shut := kept.sound.shut_iff.mpr (kept.told.late timedOut)
    simp [seated] at shut
  case late =>
    intro i c numbered timedOut e' event ended
    rw [ordered.pool_late (known i c numbered) timedOut event ended]
    simp only [pool?, found, Option.map_some]
  case rescued =>
    intro atRest c listed waits
    obtain ⟨i, numbered⟩ := List.mem_iff_getElem?.mp listed
    have kept := ordered.kept ⟨n, i⟩ c (by simp) (known i c numbered)
    exact kept.unseated_of_rescue atRest.queue waits
  case rejected =>
    intro i e' event rejected fresh
    exact ordered.full_of_rejected event rejected fresh found

/-- The only ticket of a command is taken by hand, and a call is rejected. -/
theorem accounted_of_taken :
    let e := (build { maxConcurrent := some 1 } [] {}).run [.create "c",
      .pool "c" 0 (some (.acquire "ticket")), .call ⟨"a", "c", .succeed, some .manual, .detached⟩]
    ∃ desk, e.desks.get? "c" = some desk ∧ desk.pool.inUse = 1 ∧ e.handed "c" = 1 ∧
      (e.tale ⟨"c", 0⟩).events = [.rejected] ∧ e.Accounted "c" desk :=
  ⟨_, rfl, rfl, rfl, rfl, (reached_run { maxConcurrent := some 1 } [] {} _).accounted rfl⟩

end Engine

end Bulwark
