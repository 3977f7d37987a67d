import Bulwark.Proofs.Deadlines

/-!
What calls report, and exactly when.

A call that is not let through says so when it is issued. Any other call reports
the end of its operation just when the operation ends, if that is before the alarm
of its watch, and otherwise that the time is up, just when the alarm goes off. That is
when the time of the call is up, but for the rest of a millisecond. What it reports
tells how long its operation took (`Engine.OnTime`, `ReachedPromptly.onTime`).

The journal tells of each report once (`Resolution.primary_unique`) and of the end of
an operation once (`Tale.ended_once`), so that what was judged when it was told is
what can be read off the journal later.
-/

namespace Bulwark

/-! ### Notes and tales -/

namespace Tale

variable {k : CallKey} {journal : List Note} {t : Instant}

/-- A report in a tale was told at some point. -/
theorem told_of_reported {r : Report} (reported : .reported r ∈ (of k journal).beats) :
    ∃ t n, ⟨t, .recorded n (some k) r⟩ ∈ journal := by
  induction journal with
  | nil => simp [of] at reported
  | cons x rest ih =>
      have older : .reported r ∈ (of k rest).beats →
          ∃ t n, ⟨t, .recorded n (some k) r⟩ ∈ x :: rest := by
        intro before
        obtain ⟨t, n, member⟩ := ih before
        exact ⟨t, n, List.mem_cons_of_mem _ member⟩
      simp only [of] at reported
      split at reported
      · next about =>
          obtain ⟨written, entry⟩ := x
          cases entry with
          | recorded n caller other =>
              obtain rfl : caller = some k := about
              simp only [add, List.mem_append, List.mem_singleton] at reported
              rcases reported with before | same
              · exact older before
              · obtain rfl := Beat.reported.inj same
                exact ⟨written, n, List.mem_cons_self⟩
          -- No other entry adds a report to the tale.
          | operation _ _ mark => cases mark <;> exact older reported
          | ended _ stage fault =>
              cases stage with
              | operation => exact older reported
              | fallback => exact older (by simpa [add] using reported)
          | fallback => exact older (by simpa [add] using reported)
          | resolved => exact older (by simpa [add] using reported)
          | _ => exact older reported
      · exact older reported

theorem reported_of_told {n : Name} {r : Report} (told : ⟨t, .recorded n (some k) r⟩ ∈ journal) :
    .reported r ∈ (of k journal).beats := by
  obtain ⟨later, earlier, rfl⟩ := List.append_of_mem told
  have now : .reported r ∈ (of k (⟨t, .recorded n (some k) r⟩ :: earlier)).beats := by
    simp [of, Entry.call?, add]
  exact (beats_of_append k later _).subset now

theorem event_of_told {n : Name} {r : Report} (told : ⟨t, .recorded n (some k) r⟩ ∈ journal) :
    r.outcome ∈ (of k journal).events :=
  List.mem_filterMap.mpr ⟨.reported r, reported_of_told told, rfl⟩

def ending? (k : CallKey) (x : Note) : Option (Instant × Option Fault) :=
  match x.entry with
  | .ended j .operation fault => if j = k then some (x.written, fault) else none
  | _ => none

theorem ends_of (k : CallKey) (journal : List Note) :
    (of k journal).ends = ((journal.filterMap (ending? k)).map Prod.snd).reverse := by
  induction journal with
  | nil => rfl
  | cons x rest ih =>
      obtain ⟨written, entry⟩ := x
      simp only [of, List.filterMap_cons]
      cases entry with
      | ended j stage fault =>
          by_cases self : j = k
          · cases stage <;> simp [Entry.call?, ending?, self, add, ih]
          · cases stage <;> simp [Entry.call?, ending?, self, ih]
      | operation j id mark => cases mark <;> split <;> simp [ending?, add, ih]
      | _ => split <;> simp [ending?, add, ih]

theorem ending_of_told {fault : Option Fault} (told : ⟨t, .ended k .operation fault⟩ ∈ journal) :
    (t, fault) ∈ journal.filterMap (ending? k) :=
  List.mem_filterMap.mpr ⟨_, told, by simp [ending?]⟩

theorem ends_of_told {fault : Option Fault} (told : ⟨t, .ended k .operation fault⟩ ∈ journal) :
    fault ∈ (of k journal).ends := by
  rw [ends_of, List.mem_reverse]
  exact List.mem_map.mpr ⟨_, ending_of_told told, rfl⟩

/-- The end of an operation that ended once is told once. -/
theorem ended_once {f : Instant} {end_ fault other : Option Fault}
    (once : (of k journal).ends = [end_]) (told : ⟨t, .ended k .operation fault⟩ ∈ journal)
    (retold : ⟨f, .ended k .operation other⟩ ∈ journal) : t = f ∧ fault = other := by
  have first := ending_of_told told
  have second := ending_of_told retold
  rw [ends_of] at once
  generalize journal.filterMap (ending? k) = endings at *
  match endings, once with
  | [only], _ =>
      have same := (List.mem_singleton.mp first).trans (List.mem_singleton.mp second).symm
      exact Prod.mk.inj same
  | [], once => simp at first
  | a :: b :: more, once =>
      have length := congrArg List.length once
      simp at length

end Tale

namespace Resolution

variable {t : Tale} {rescue : Rescue} {verdict : Option Verdict} {claimed : Bool}

/-- A call that is claimed has reported how its resolution began. -/
theorem reported_of_claimed (resolution : Resolution t true rescue verdict) :
    ∃ r : Report, .reported r ∈ t.beats ∧ r.outcome.isPrimary = true := by
  cases resolution with
  | @succeeded r _ fresh success ended beats =>
      exact ⟨r, by simp [beats], by simp [success, Outcome.isPrimary]⟩
  | denied blame unrescued beats => exact ⟨_, by simp [beats], blame.primary.1⟩
  | rescuing blame rescuable beats => exact ⟨_, by simp [beats], blame.primary.1⟩
  | rescued blame rescuable success beats => exact ⟨_, by simp [beats], blame.primary.1⟩
  | lost blame rescuable failure beats => exact ⟨_, by simp [beats], blame.primary.1⟩

/-- What a call reports later is how its fallback went. -/
theorem fallback_of_later (resolution : Resolution t claimed rescue verdict) {r : Report}
    (later : .reported r ∈ t.beats.tail) : r.outcome.isPrimary = false := by
  cases resolution with
  | unclaimed fresh blank => simp [blank] at later
  | succeeded fresh success ended beats => simp [beats] at later
  | denied blame unrescued beats => simp [beats] at later
  | rescuing blame rescuable beats => simp [beats] at later
  | rescued blame rescuable success beats =>
      obtain rfl : r = _ := by simpa [beats] using later
      simp [success, Outcome.isPrimary]
  | lost blame rescuable failure beats =>
      obtain rfl : r = _ := by simpa [beats] using later
      simp [failure, Outcome.isPrimary]

/-- Apart from how its fallback went, a call reports once. -/
theorem primary_unique (resolution : Resolution t claimed rescue verdict) {r s : Report}
    (first : .reported r ∈ t.beats) (second : .reported s ∈ t.beats)
    (one : r.outcome.isPrimary = true) (two : s.outcome.isPrimary = true) : r = s := by
  have leads : ∀ {q : Report}, .reported q ∈ t.beats → q.outcome.isPrimary = true →
      t.beats.head? = some (.reported q) := by
    intro q among primary
    have late := resolution.fallback_of_later (r := q)
    cases beats : t.beats with
    | nil => simp [beats] at among
    | cons b rest =>
        rw [beats] at among late
        rcases List.mem_cons.mp among with rfl | later
        · rfl
        · simp [late later] at primary
  exact Beat.reported.inj (Option.some.inj ((leads first one).symm.trans (leads second two)))

end Resolution

namespace Engine

variable {k : CallKey} {s : Instant} {D : Duration} {e : Engine} {c : Call} {desk : Desk}

def Tells (e : Engine) (k : CallKey) (t : Instant) (r : Report) : Prop :=
  ⟨t, .recorded k.command (some k) r⟩ ∈ e.board.journal

/-- The journal tells that the operation of a call ended at an instant. -/
def Ends (e : Engine) (k : CallKey) (t : Instant) (fault : Option Fault) : Prop :=
  ⟨t, .ended k .operation fault⟩ ∈ e.board.journal

/-- The journal tells of a call that was issued at an instant, and of what it reported
and when, given the time that it had. Its alarm goes off when that time is up, rounded up to a
whole millisecond of the clock: so at the very end of it only where that is a whole
millisecond. -/
structure OnTime (e : Engine) (k : CallKey) (s : Instant) (D : Duration) : Prop where
  /-- The call was issued then. -/
  issued : ∃ id rescuable, ⟨s, .issued k id rescuable⟩ ∈ e.board.journal
  /-- It reports to the circuit of its command, and says when it started. -/
  start : ∀ t n r, ⟨t, .recorded n (some k) r⟩ ∈ e.board.journal → n = k.command ∧ r.start = s
  /-- Where the time is up at a whole millisecond, the alarm goes off just then. -/
  sharp : (s.later D).nanos % 1000000 = 0 → s.due D = s.later D
  /-- That it was not let through, it reports when it is issued. -/
  denied : ∀ t r, e.Tells k t r → r.outcome = .shortCircuited ∨ r.outcome = .rejected →
    t = s ∧ r.took = .zero ∧ (e.tale k).starts = 0
  /-- How its operation ended, it reports when the operation ends and before the alarm. -/
  ended : ∀ t r, e.Tells k t r → r.outcome = .success ∨ r.outcome = .failure →
    s.nanos ≤ t.nanos ∧ t.nanos < (s.due D).nanos ∧
      (r.took.nanos : Int) = t.nanos - s.nanos ∧
      ∃ fault, e.Ends k t fault ∧ (fault = none ↔ r.outcome = .success)
  /-- That its time is up, it reports when the alarm goes off, if its operation was started
  and has not ended before. -/
  timedOut : ∀ t r, e.Tells k t r → r.outcome = .timeout →
    t = s.due D ∧ r.took = .zero ∧ (e.tale k).starts = 1 ∧
      ∀ f fault, e.Ends k f fault → (s.due D).nanos ≤ f.nanos
  /-- With the end of its fallback it reports how long its operation took before it failed. -/
  rescued : ∀ t r, e.Tells k t r → r.outcome.isPrimary = false →
    (∀ f p, e.Tells k f p → p.outcome = .failure → (r.took.nanos : Int) = f.nanos - s.nanos) ∧
      ((∀ f p, e.Tells k f p → p.outcome ≠ .failure) → r.took = .zero)
  /-- If its operation is not started at once, it has reported that it was not let through. -/
  refused : (e.tale k).starts = 0 → e.queue = [] ∨ s.nanos < e.now.nanos →
    ∃ r, e.Tells k s r ∧ (r.outcome = .shortCircuited ∨ r.outcome = .rejected)
  /-- If its operation ends before the alarm, it reports that just then. -/
  settled : ∀ f fault, e.Ends k f fault → f.nanos < (s.due D).nanos →
    ∃ r, e.Tells k f r ∧ r.outcome = if fault.isNone then .success else .failure
  /-- If its operation does not end before the alarm, it reports that its time is up. -/
  expired : (e.tale k).starts = 1 →
    (s.due D).nanos < e.now.nanos ∨ (s.due D).nanos ≤ e.now.nanos ∧ e.queue = [] →
    (∀ f fault, e.Ends k f fault → (s.due D).nanos ≤ f.nanos) →
    ∃ r, e.Tells k (s.due D) r ∧ r.outcome = .timeout
/-! ### What was judged when it was told -/

/-- A report that the journal tells of was in time when it was told. -/
theorem inTime (told : e.board.Chronicled k s D) {t : Instant} {n : Name} {r : Report}
    (member : ⟨t, .recorded n (some k) r⟩ ∈ e.board.journal) :
    n = k.command ∧ r.start = s ∧ ∃ earlier,
      ⟨t, .recorded n (some k) r⟩ :: earlier <:+ e.board.journal ∧
        InTime k s D t earlier r.outcome r.took := by
  obtain ⟨later, earlier, whole⟩ := List.append_of_mem member
  have judged := (whole ▸ told.judged : Historic (Judged k s D) (later ++ _ :: earlier)).judged
  obtain ⟨own, start, inTime⟩ := judged.report n r rfl
  exact ⟨own, start, earlier, ⟨later, whole.symm⟩, inTime⟩

/-- A call that keeps to its times waits for its first turn only at the instant at which it
was issued, and is claimed by the time that the watch has taken its turn. -/
theorem Timely.within (timely : e.Timely k) (here : e.call? k = some c)
    (used : e.desks.get? k.command = some desk) :
    e.board.Chronicled k c.start desk.settings.timeout ∧
      (c.work.phase = .queued → c.start = e.now) ∧
      (c.claimed = false → e.now.nanos < (c.start.due desk.settings.timeout).nanos ∨
        e.now = c.start.due desk.settings.timeout ∧ e.queue ≠ []) := by
  have limit : e.limit k.command = desk.settings.timeout := by simp [Engine.limit, settings?, used]
  obtain ⟨s, D, clocked | overdue⟩ := timely
  · have dated := clocked.dated c here
    obtain rfl : D = desk.settings.timeout := clocked.limit.symm.trans limit
    obtain rfl := dated.start
    exact ⟨clocked.told (by rw [here]; rfl), fun queued => (dated.queued queued).1,
      fun unclaimed => .inl (dated.early unclaimed)⟩
  · obtain ⟨d, known, expired, dated⟩ := overdue.dated
    obtain rfl := Option.some.inj (here.symm.trans known)
    obtain rfl : D = desk.settings.timeout := overdue.limit.symm.trans limit
    obtain rfl : c.start = s := dated.start
    exact ⟨overdue.told, fun queued => (dated.queued queued).1,
      fun _ => .inr ⟨overdue.due, by simp [overdue.next]⟩⟩

/-! ### What was reported -/

section Reported

variable (kept : e.Kept .ahead k c) (told : e.board.Chronicled k s D)

include kept told

/-- What was reported first, and when, if the call is claimed. -/
theorem tells_of_claimed (claimed : c.claimed = true) :
    ∃ t r earlier, e.Tells k t r ∧ r.outcome.isPrimary = true ∧
      ⟨t, .recorded k.command (some k) r⟩ :: earlier <:+ e.board.journal ∧
        InTime k s D t earlier r.outcome r.took := by
  have resolution := kept.resolution
  rw [claimed] at resolution
  obtain ⟨r, reported, primary⟩ := resolution.reported_of_claimed
  obtain ⟨t, n, member⟩ := Tale.told_of_reported reported
  obtain ⟨rfl, start, earlier, known, inTime⟩ := e.inTime told member
  exact ⟨t, r, earlier, member, primary, known, inTime⟩

variable {t f : Instant} {r : Report} {fault : Option Fault}

/-- A call that was turned away was so at once. -/
theorem denied_of_tells (tells : e.Tells k t r)
    (away : r.outcome = .shortCircuited ∨ r.outcome = .rejected) :
    t = s ∧ r.took = .zero ∧ (e.tale k).starts = 0 := by
  have event : r.outcome ∈ (e.tale k).events := Tale.event_of_told tells
  have idle : (e.tale k).starts = 0 := by
    apply kept.resolution.idle
    rcases away with same | same
    · exact .inr (same ▸ event)
    · exact .inl (same ▸ event)
  obtain ⟨_, _, earlier, _, inTime⟩ := inTime told tells
  obtain ⟨o, start, took⟩ := r
  rcases away with same | same
  · obtain rfl : o = .shortCircuited := same
    cases inTime with
    | shortCircuited now _ => exact ⟨now, rfl, idle⟩
    | fallback late => simp [Outcome.isPrimary] at late
  · obtain rfl : o = .rejected := same
    cases inTime with
    | rejected now _ => exact ⟨now, rfl, idle⟩
    | fallback late => simp [Outcome.isPrimary] at late

omit kept in
/-- A call that ended by itself did so before its time was up, and took as long as it ran. -/
theorem ended_of_tells (tells : e.Tells k t r) (how : r.outcome = .success ∨ r.outcome = .failure) :
    s.nanos ≤ t.nanos ∧ t.nanos < (s.due D).nanos ∧ r.took = s.elapsed t ∧
      ∃ fault, e.Ends k t fault ∧ (fault = none ↔ r.outcome = .success) := by
  obtain ⟨_, _, earlier, known, inTime⟩ := inTime told tells
  have grown := (List.suffix_cons _ _).trans known
  obtain ⟨o, start, took⟩ := r
  rcases how with same | same
  · obtain rfl : o = .success := same
    cases inTime with
    | success past early ended => exact ⟨past, early, rfl, none, grown.subset ended, by simp⟩
    | fallback late => simp [Outcome.isPrimary] at late
  · obtain rfl : o = .failure := same
    cases inTime with
    | failure fault past early ended =>
        exact ⟨past, early, rfl, some fault, grown.subset ended, by simp⟩
    | fallback late => simp [Outcome.isPrimary] at late

/-- Whatever an operation did after its call reported that the time was up, it did later. -/
theorem timedOut_of_tells (order : e.board.Chronological) (tells : e.Tells k t r)
    (up : r.outcome = .timeout) :
    t = s.due D ∧ r.took = .zero ∧ (e.tale k).starts = 1 ∧
      ∀ f fault, e.Ends k f fault → (s.due D).nanos ≤ f.nanos := by
  obtain ⟨_, _, earlier, known, inTime⟩ := inTime told tells
  obtain ⟨o, start, took⟩ := r
  obtain rfl : o = .timeout := up
  cases inTime with
  | timeout due started going =>
      have grown := (List.suffix_cons _ _).trans known
      have bounds := Tale.starts_of_earlier grown k
      have once := kept.told.starts_le
      refine ⟨due, rfl, ?_, fun f fault ends => ?_⟩
      · simp only [tale] at once ⊢
        omega
      · rw [← due]
        refine order.written_le known ends fun old => ?_
        have among := Tale.ends_of_told old
        simp [going] at among
  | fallback late => simp [Outcome.isPrimary] at late

/-- The outcome of a fallback has its duration from the failure of its call, and none without one.
-/
theorem rescued_of_tells (tells : e.Tells k t r) (rescued : r.outcome.isPrimary = false) :
    (∀ f p, e.Tells k f p → p.outcome = .failure → (r.took.nanos : Int) = f.nanos - s.nanos) ∧
      ((∀ f p, e.Tells k f p → p.outcome ≠ .failure) → r.took = .zero) := by
  obtain ⟨_, _, earlier, known, inTime⟩ := inTime told tells
  have spent : Spent k s earlier r.took := by
    obtain ⟨o, start, took⟩ := r
    cases inTime with
    | fallback _ spent => exact spent
    | _ => simp [Outcome.isPrimary] at rescued
  obtain ⟨g, q, before, cost⟩ := spent
  have before : e.Tells k g q := ((List.suffix_cons _ _).trans known).subset before
  refine ⟨fun f p failed wrong => ?_, fun none_ => ?_⟩
  · -- The report before that of the fallback is the one that the operation failed.
    obtain ⟨past, _, took, _⟩ := ended_of_tells told failed (.inr wrong)
    have primary : q.outcome.isPrimary = true := by
      rcases cost with ⟨same, _⟩ | ⟨same | same | same, _⟩ <;> simp [same, Outcome.isPrimary]
    obtain rfl := kept.resolution.primary_unique (Tale.reported_of_told failed)
      (Tale.reported_of_told before) (by simp [wrong, Outcome.isPrimary]) primary
    rcases cost with ⟨_, same⟩ | ⟨other, _⟩
    · obtain ⟨_, _, took', _⟩ := ended_of_tells told before (.inr wrong)
      rw [same, ← took', took, Instant.nanos_elapsed past]
    · simp [wrong] at other
  · rcases cost with ⟨failed, _⟩ | ⟨_, free⟩
    · exact absurd failed (none_ g q before)
    · exact free

/-! ### What has been reported by now -/

/-- A call that never starts its operation is turned away at once, and told so. -/
theorem tells_of_idle (begun : c.work.phase = .queued → s = e.now)
    (idle : (e.tale k).starts = 0) (past : e.queue = [] ∨ s.nanos < e.now.nanos) :
    ∃ r, e.Tells k s r ∧ (r.outcome = .shortCircuited ∨ r.outcome = .rejected) := by
  have work := kept.told.work
  have tended := kept.tended (.code .operation)
  -- The worker has taken its first turn, and left without starting the operation.
  have gone : c.work.phase = .done ∧ (e.tale k).ends = [] := by
    cases found : c.work with
    | queued operation =>
        rcases past with atRest | late
        · simp [Tended, found, atRest] at tended
        · simp [begun (by simp [found, Work.phase])] at late
    | asked answer operation => exact absurd (by simp [found, Work.phase]) (kept.free (by simp))
    | running since wait => simp [found, Work.Told, idle] at work
    | done => simpa [found, Work.Told, Work.phase, idle] using work
  obtain ⟨t, r, earlier, tells, primary, known, inTime⟩ :=
    tells_of_claimed kept told (kept.sound.claimed gone.1)
  have grown := (List.suffix_cons _ _).trans known
  have unended : ∀ {t fault}, ⟨t, .ended k .operation fault⟩ ∉ earlier := by
    intro t fault ended
    have among : fault ∈ (e.tale k).ends := Tale.ends_of_told (grown.subset ended)
    simp [gone.2] at among
  obtain ⟨o, start, took⟩ := r
  cases inTime with
  | shortCircuited now _ => exact ⟨_, now ▸ tells, .inl rfl⟩
  | rejected now _ => exact ⟨_, now ▸ tells, .inr rfl⟩
  | success _ _ ended => exact absurd ended unended
  | failure _ _ _ ended => exact absurd ended unended
  | timeout _ started _ =>
      have bounds := Tale.starts_of_earlier grown k
      simp only [tale] at idle
      omega
  | fallback late _ => simp [late] at primary

/-- An operation that ends in time is told at that instant, by how it ended. -/
theorem tells_of_ends (order : e.board.Chronological) (ends : e.Ends k f fault)
    (early : f.nanos < (s.due D).nanos) :
    ∃ r, e.Tells k f r ∧ r.outcome = if fault.isNone then .success else .failure := by
  have among : fault ∈ (e.tale k).ends := Tale.ends_of_told ends
  have work := kept.told.work
  have gone : c.work.phase = .done ∧ (e.tale k).starts = 1 ∧ (e.tale k).ends = [fault] := by
    cases found : c.work with
    | done =>
        rcases (by simpa [found, Work.Told] using work) with ⟨_, none_⟩ | ⟨started, only, once⟩
        · simp [none_] at among
        · rw [once, List.mem_singleton] at among
          exact ⟨rfl, started, among ▸ once⟩
    | _ =>
        simp only [found, Work.Told] at work
        simp [work.2] at among
  obtain ⟨t, r, earlier, tells, primary, known, inTime⟩ :=
    tells_of_claimed kept told (kept.sound.claimed gone.1)
  have grown := (List.suffix_cons _ _).trans known
  have event : r.outcome ∈ (e.tale k).events := Tale.event_of_told tells
  obtain ⟨o, start, took⟩ := r
  cases inTime with
  | shortCircuited _ _ => simp [kept.resolution.idle (.inr event)] at gone
  | rejected _ _ => simp [kept.resolution.idle (.inl event)] at gone
  | success _ _ ended =>
      obtain ⟨rfl, rfl⟩ := Tale.ended_once gone.2.2 (grown.subset ended) ends
      exact ⟨_, tells, rfl⟩
  | failure _ _ _ ended =>
      obtain ⟨rfl, rfl⟩ := Tale.ended_once gone.2.2 (grown.subset ended) ends
      exact ⟨_, tells, rfl⟩
  | timeout _ _ _ =>
      -- After a timeout the operation ends late, and this one did not.
      have later := (timedOut_of_tells kept told order tells rfl).2.2.2 f fault ends
      omega
  | fallback late _ => simp [late] at primary

/-- An operation that does not end in time is told as a timeout when the time is up. -/
theorem tells_of_late (within : c.claimed = false → e.now.nanos < (s.due D).nanos ∨
      e.now = s.due D ∧ e.queue ≠ []) (started : (e.tale k).starts = 1)
    (past : (s.due D).nanos < e.now.nanos ∨ (s.due D).nanos ≤ e.now.nanos ∧ e.queue = [])
    (late : ∀ f fault, e.Ends k f fault → (s.due D).nanos ≤ f.nanos) :
    ∃ r, e.Tells k (s.due D) r ∧ r.outcome = .timeout := by
  -- Once the time is up the call is claimed by somebody.
  have claimed : c.claimed = true := by
    cases claimed : c.claimed with
    | true => rfl
    | false =>
        rcases within claimed with early | ⟨due, busy⟩
        · omega
        · rw [due] at past
          rcases past with past | ⟨_, atRest⟩
          · omega
          · exact absurd atRest busy
  obtain ⟨t, r, earlier, tells, primary, known, inTime⟩ := tells_of_claimed kept told claimed
  have grown := (List.suffix_cons _ _).trans known
  have event : r.outcome ∈ (e.tale k).events := Tale.event_of_told tells
  obtain ⟨o, start, took⟩ := r
  -- Of all that can have claimed the call only the timeout is left.
  cases inTime with
  | shortCircuited _ _ => simp [kept.resolution.idle (.inr event)] at started
  | rejected _ _ => simp [kept.resolution.idle (.inl event)] at started
  | success _ early ended =>
      have bound := late _ _ (grown.subset ended)
      omega
  | failure _ _ early ended =>
      have bound := late _ _ (grown.subset ended)
      omega
  | timeout due _ _ => exact ⟨_, due ▸ tells, rfl⟩
  | fallback late _ => simp [late] at primary

end Reported

/-- Where everything happens at its time, every call reports on time: the alarm of a call is
at `s.due D`, which is `s.later D` only where that is a whole millisecond of the clock. -/
theorem ReachedPromptly.onTime (reached : e.ReachedPromptly) (here : e.call? k = some c)
    (used : e.desks.get? k.command = some desk) :
    e.OnTime k c.start desk.settings.timeout := by
  have kept := reached.ordered.kept k c (by simp) here
  have order := reached.chronological
  obtain ⟨told, begun, within⟩ := (reached.timely k).within here used
  generalize c.start = s at told begun within ⊢
  generalize desk.settings.timeout = D at told within ⊢
  constructor
  case issued => exact told.issued
  case start =>
    intro t n r member
    obtain ⟨own, start, _⟩ := inTime told member
    exact ⟨own, start⟩
  case sharp => exact Instant.due_eq_later
  case denied => exact fun t r tells away => denied_of_tells kept told tells away
  case ended =>
    intro t r tells how
    obtain ⟨past, early, took, ended⟩ := ended_of_tells told tells how
    exact ⟨past, early, by rw [took, Instant.nanos_elapsed past], ended⟩
  case timedOut => exact fun t r tells up => timedOut_of_tells kept told order tells up
  case rescued => exact fun t r tells late => rescued_of_tells kept told tells late
  case refused => exact fun idle past => tells_of_idle kept told begun idle past
  case settled => exact fun f fault ends early => tells_of_ends kept told order ends early
  case expired => exact fun started past late => tells_of_late kept told within started past late

/-- The time of a call is up while a nested call goes on, which fails later: that is before
the fallback of the first call ends. -/
theorem onTime_of_nested :
    let e := (build {} [] {}).run [
      .call ⟨"a", "c",
        .after (.ofMillis 300)
          (.nested ⟨"b", "d", .after (.ofMillis 2000) .succeed, none, .detached⟩),
        some (.after (.ofMillis 900) .succeed), .detached⟩,
      .advance (.ofMillis 2500)]
    e.ReachedPromptly ∧ (e.tale ⟨"c", 0⟩).events = [.timeout, .fallbackSuccess] ∧
      (e.tale ⟨"c", 0⟩).ends.length = 1 ∧ e.OnTime ⟨"c", 0⟩ .origin (.ofMillis 1000) := by
  intro e
  have reached : e.ReachedPromptly := reachedPromptly_run {} [] {} (by decide +kernel)
  have made : (e.call? ⟨"c", 0⟩).map (·.start) = some .origin := by rfl
  have set : (e.desks.get? "c").map (·.settings.timeout) = some (.ofMillis 1000) := by rfl
  obtain ⟨c, here, start⟩ := Option.map_eq_some_iff.mp made
  obtain ⟨desk, used, timeout⟩ := Option.map_eq_some_iff.mp set
  have onTime := reached.onTime here used
  rw [start, timeout] at onTime
  exact ⟨reached, by rfl, by rfl, onTime⟩

end Engine

end Bulwark
