import Bulwark.Proofs.Deciding
import Bulwark.Proofs.Deadlines

/-!
What the journal of an engine tells of one circuit.

In a run in which everything happens at its time, the journal tells at every moment
what became of the circuit of a command, and a call reports how its operation went
only if its circuit has let it through (`Engine.Overseen`, `ReachedPromptly.overseen`).
-/

namespace Bulwark

/-- A journal tells that a call was let through by the circuit of its command. -/
def LetThrough (k : CallKey) (journal : List Note) : Prop :=
  ∃ t state, ⟨t, .asked k.command (some k) state true⟩ ∈ journal

/-- A call that was let through stays so as the journal grows. -/
theorem LetThrough.mono {k : CallKey} {journal journal' : List Note}
    (entered : LetThrough k journal) (grown : journal <:+ journal') : LetThrough k journal' := by
  obtain ⟨t, state, told⟩ := entered
  exact ⟨t, state, grown.subset told⟩

/-- An operation starts, and an outcome that can decide a circuit is reported, only for a call
that was let through by the circuit of its command. -/
structure Entry.Entitled (journal : List Note) (x : Entry) : Prop where
  start : ∀ k id, x = .operation k id .started → LetThrough k journal
  report : ∀ n k r, x = .recorded n (some k) r →
    n = k.command ∧ (r.outcome.decides = true → LetThrough k journal)

namespace Entry.Entitled

variable {journal journal' : List Note} {x : Entry}

/-- What an entry is entitled to by a journal it is by any longer one. -/
theorem mono (entitled : x.Entitled journal) (grown : journal <:+ journal') :
    x.Entitled journal' where
  start k id same := (entitled.start k id same).mono grown
  report n k r same :=
    ⟨(entitled.report n k r same).1,
      fun decides => ((entitled.report n k r same).2 decides).mono grown⟩

/-- Of an entry that mentions no call there is nothing to ask. -/
theorem of_quiet (nobody : x.call? = none) : x.Entitled journal where
  start k id same := by simp [same, call?] at nobody
  report n k r same := by simp [same, call?] at nobody

/-- A plain entry needs no title. -/
theorem of_plain {k : CallKey} (plain : x.Plain k) : x.Entitled journal where
  start j id same := absurd same (plain.unstarted j id)
  report n j r same := by
    have aside := plain.aside
    simp [same, circuit?] at aside

end Entry.Entitled

/-- A board on which a command has no circuit stays so. -/
theorem Board.Course.uncircuited {kind : Entry → Prop} {n : Name} {b b' : Board}
    (course : Course kind b b') (none_ : b.circuits.get? n = none)
    (untold : ∀ x ∈ b.journal, x.entry.circuit? ≠ some n) :
    b'.circuits.get? n = none ∧ ∀ x ∈ b'.journal, x.entry.circuit? ≠ some n := by
  refine ⟨course.absent none_, ?_⟩
  induction course with
  | refl => exact untold
  | note _ _ aside ih => exact List.forall_mem_cons.mpr ⟨by simp [aside], ih⟩
  | setHook _ _ _ ih => exact ih
  | deed before known _ ih =>
      intro y among
      rcases List.mem_append.mp among with new | old
      · obtain ⟨x, told, rfl⟩ := List.mem_map.mp new
        rw [Circuit.Deed.circuit?_of_mem_entries told]
        rintro ⟨⟩
        simp [before.absent none_] at known
      · exact ih y old

/-- An operation that was started in a tale was started in the journal. -/
theorem Tale.told_of_started {k : CallKey} {journal : List Note}
    (started : (of k journal).starts ≠ 0) : ∃ t id, ⟨t, .operation k id .started⟩ ∈ journal := by
  induction journal with
  | nil => simp [of] at started
  | cons x rest ih =>
      have older : (of k rest).starts ≠ 0 → ∃ t id, ⟨t, .operation k id .started⟩ ∈ x :: rest := by
        intro before
        obtain ⟨t, id, member⟩ := ih before
        exact ⟨t, id, List.mem_cons_of_mem _ member⟩
      simp only [of] at started
      split at started
      · next about =>
          obtain ⟨written, entry⟩ := x
          cases entry with
          | operation j id mark =>
              obtain rfl : j = k := Option.some.inj about
              cases mark with
              | started => exact ⟨written, id, List.mem_cons_self⟩
              | _ => exact older started
          | ended _ stage fault => cases stage <;> exact older started
          | _ => exact older started
      · exact older started

namespace Engine

open Circuit.Invariant (On)

variable {n : Name} {k : CallKey} {e e' : Engine} {c : Call}

/-- What the journal tells of a circuit, and of those who report. -/
structure Overseen (n : Name) (e : Engine) : Prop where
  told : e.board.Chronological
  unused : e.settings? n = none →
    e.board.circuits.get? n = none ∧ ∀ x ∈ e.board.journal, x.entry.circuit? ≠ some n
  deciding : ∀ s, e.settings? n = some s → On n (Circuit.Deciding n s.sleepWindow) e.board
  entitled : Historic (fun x earlier => x.entry.Entitled earlier) e.board.journal

namespace Overseen

/-! ### What turns do -/

/-- What happens to a board in the course of a turn. -/
theorem course (overseen : e.Overseen n) {b : Board}
    (course : Board.Course (·.Entitled e.board.journal) e.board b) :
    ({ e with board := b } : Engine).Overseen n where
  told := course.trail.chronological overseen.told
  unused none_ := course.uncircuited (overseen.unused none_).1 (overseen.unused none_).2
  deciding s used := (Circuit.deciding n s.sleepWindow).course course (overseen.deciding s used)
  entitled := by
    obtain ⟨new, grown, kinds⟩ := course.trail.journal
    change Historic _ b.journal
    rw [grown]
    clear grown
    induction new with
    | nil => exact overseen.entitled
    | cons x rest ih =>
        exact ⟨(kinds x List.mem_cons_self).mono (List.suffix_append _ _),
          ih fun y among => kinds y (List.mem_cons_of_mem _ among)⟩

theorem note (overseen : e.Overseen n) {x : Entry} (entitled : x.Entitled e.board.journal)
    (aside : x.circuit? = none) : (e.note x).Overseen n :=
  overseen.course (.note .refl entitled aside)

theorem calm (overseen : e.Overseen n) {b : Board} (calm : Board.Calm e.board b) :
    ({ e with board := b } : Engine).Overseen n :=
  overseen.course (calm.mono fun _ nobody => .of_quiet nobody)

/-- To ask on behalf of a call keeps an engine overseen: an answer of yes is the call's title. -/
theorem ask (overseen : e.Overseen n) (k : CallKey) : (e.ask k).1.Overseen n := by
  cases found : e.board.circuits.get? k.command with
  | none =>
      have same : (e.ask k).1 = e := by simp [Engine.ask, Board.allow, found]
      rwa [same]
  | some circuit =>
      refine overseen.course (Board.Course.trans (.deed .refl found fun x told => ?_)
        ((Board.allow_calm_of_ring (Board.ring_calm 3) (some k) found).mono
          fun _ nobody => .of_quiet nobody))
      rcases List.mem_append.mp told with news | own
      · obtain ⟨y, _, rfl⟩ := Option.map_eq_some_iff.mp (Option.mem_toList.mp news)
        exact .of_quiet rfl
      · obtain rfl := Option.some.inj (Option.mem_toList.mp own)
        exact ⟨by simp, by simp⟩

/-- A call may report what decides the circuit only if it was let through. -/
theorem report (overseen : e.Overseen n) {o : Outcome} (took : Duration)
    (entered : o.decides = true → LetThrough k e.board.journal) :
    (e.report k o took).Overseen n := by
  unfold Engine.report
  split
  · exact overseen
  · next c _ =>
      cases found : e.board.circuits.get? k.command with
      | none =>
          have same :
              e.board.report Board.bell (some k) k.command ⟨o, c.start, took⟩ = e.board := by
            simp [Board.report, found]
          rwa [same]
      | some circuit =>
          refine overseen.course (Board.Course.trans (.deed .refl found fun x told => ?_)
            ((Board.report_calm_of_ring (Board.ring_calm 3) (some k) _ found).mono
              fun _ nobody => .of_quiet nobody))
          rcases List.mem_append.mp told with news | own
          · obtain ⟨y, _, rfl⟩ := Option.map_eq_some_iff.mp (Option.mem_toList.mp news)
            exact .of_quiet rfl
          · obtain rfl := Option.some.inj (Option.mem_toList.mp own)
            refine ⟨by simp, ?_⟩
            rintro m j r ⟨⟩
            exact ⟨rfl, entered⟩

/-- A new command has a circuit of which nothing has been told. -/
theorem create (overseen : e.Overseen n) (m : Name) : (e.create m).1.Overseen n := by
  unfold Engine.create
  split
  · exact overseen
  · next absent =>
      dsimp only
      split
      · exact overseen
      · let s := e.policy.settings m
        refine note (e := { e with desks := _, board := e.board.putCircuit m (.make s e.now) }) ?_
          (.of_quiet rfl) rfl
        by_cases same : m = n
        · subst same
          -- Nothing was told of a command that was not in use, so its circuit starts blank.
          have unused : e.settings? m = none := by simp [settings?, absent]
          obtain ⟨_, untold⟩ := overseen.unused unused
          constructor
          case told => exact ⟨overseen.told.past, overseen.told.sorted⟩
          case unused => simp [settings?]
          case deciding =>
            intro s' used
            obtain rfl : s = s' := by simpa [settings?] using used
            exact ⟨_, Roster.get?_put_self _ _ _,
              Circuit.deciding_make m s e.now overseen.told.past untold⟩
          case entitled => exact overseen.entitled
        · constructor
          case told => exact ⟨overseen.told.past, overseen.told.sorted⟩
          case unused =>
            intro none_
            simp only [settings?, Roster.get?_put_of_ne _ _ same] at none_
            obtain ⟨uncircuited, untold⟩ := overseen.unused none_
            exact ⟨(Roster.get?_put_of_ne _ _ same).trans uncircuited, untold⟩
          case deciding =>
            intro s' used
            simp only [settings?, Roster.get?_put_of_ne _ _ same] at used
            obtain ⟨c, found, deciding⟩ := overseen.deciding s' used
            exact ⟨c, (Roster.get?_put_of_ne _ _ same).trans found, deciding⟩
          case entitled => exact overseen.entitled

/-- Nothing but the board and the settings matters. -/
theorem congr (overseen : e.Overseen n) (board : e'.board = e.board)
    (settings : ∀ m, e'.settings? m = e.settings? m) : e'.Overseen n := by
  constructor
  case told => rw [board]; exact overseen.told
  case unused => rw [board, settings]; exact overseen.unused
  case deciding => rw [board, settings]; exact overseen.deciding
  case entitled => rw [board]; exact overseen.entitled

/-- Once let through, a call stays so. -/
theorem lasting (k : CallKey) : Steady k fun e => LetThrough k e.board.journal where
  congr _ _ entered board _ _ := board ▸ entered
  note _ _ entered _ := entered.mono (List.suffix_cons _ _)
  create e m entered := by
    refine entered.mono ?_
    unfold Engine.create
    split
    · exact List.suffix_rfl
    · dsimp only
      split
      · exact List.suffix_rfl
      · exact List.suffix_cons _ _

/-- Whatever a turn of a call does, the journal tells of it. -/
theorem habit (n : Name) (k : CallKey) :
    Habit k (Overseen n) fun e => LetThrough k e.board.journal where
  congr _ _ overseen board _ settings := overseen.congr board settings
  note _ _ overseen plain := overseen.note (.of_plain plain) plain.aside
  create _ m overseen := overseen.create m
  lasting := lasting k
  embark _ id overseen entered := by
    refine ⟨overseen.note ⟨?_, by simp⟩ rfl, entered.mono (List.suffix_cons _ _)⟩
    rintro j id' ⟨⟩
    exact entered
  ask _ overseen := overseen.ask k
  grant e _ granted := by
    cases found : e.board.circuits.get? k.command with
    | none => simp [Engine.ask, Board.allow, found] at granted
    | some circuit =>
        have answer : (Board.allow (Board.ring 3) (some k) k.command e.board).2 = true := granted
        obtain ⟨later, told, _⟩ := Board.allow_told 3 (some k) found
        rw [answer] at told
        refine ⟨e.now, circuit.state, ?_⟩
        change _ ∈ (Board.allow (Board.ring 3) (some k) k.command e.board).1.journal
        rw [told]
        exact List.mem_append_right _ List.mem_cons_self
  report _ _ took overseen entered := overseen.report took entered

/-- To serve a request keeps an engine overseen. -/
theorem served (n : Name) : Served (Overseen n) where
  serve _ m request overseen :=
    overseen.calm (Board.serve_calm_of_ring (Board.ring_calm 3) m request _)
  setHook _ occasion hook overseen := overseen.calm (.setHook occasion hook .refl)

/-- Time passes. -/
theorem setNow (overseen : e.Overseen n) {t : Instant} (onward : e.now.nanos ≤ t.nanos) :
    (e.setNow t).Overseen n where
  told := ⟨fun x among => Int.le_trans (overseen.told.past x among) onward, overseen.told.sorted⟩
  unused := overseen.unused
  deciding s used := by
    obtain ⟨c, found, deciding⟩ := overseen.deciding s used
    have later : t = e.board.now.later ⟨(t.nanos - e.board.now.nanos).toNat⟩ := by
      obtain ⟨nanos⟩ := t
      simp only [Engine.now] at onward
      simp only [Instant.later, Instant.mk.injEq]
      omega
    have passed := (Circuit.deciding n s.sleepWindow).pass _ _ _
      ⟨(t.nanos - e.board.now.nanos).toNat⟩ deciding
    rw [← later] at passed
    exact ⟨c, found, passed⟩
  entitled := overseen.entitled

/-! ### Who has been let through -/

/-- A call whose operation was started had been let through. -/
theorem letThrough (overseen : e.Overseen n) (started : (e.tale k).starts = 1) :
    LetThrough k e.board.journal := by
  have begun : (Tale.of k e.board.journal).starts ≠ 0 := by
    simp only [tale] at started
    omega
  obtain ⟨t, id, member⟩ := Tale.told_of_started begun
  obtain ⟨later, earlier, whole⟩ := List.append_of_mem member
  have told := overseen.entitled
  rw [whole] at told ⊢
  have entered : LetThrough k earlier := told.judged.start k id rfl
  exact entered.mono ⟨later ++ [⟨t, .operation k id .started⟩], by simp⟩

/-- A call whose time is up, and which nobody has claimed, had been let through. -/
theorem letThrough_of_expired (overseen : e.Overseen n) (ordered : e.Ordered .ahead none)
    (timely : e.Timely k) (here : e.call? k = some c) (expired : c.watch = .expired)
    (unclaimed : c.claimed = false) : LetThrough k e.board.journal := by
  obtain ⟨s, D, clocked | overdue⟩ := timely
  · exact absurd expired (clocked.dated c here).unexpired
  · have kept := ordered.kept k c (by simp) here
    exact overseen.letThrough (overdue.going kept (by simp) here unclaimed).1

/-! ### Runs -/

/-- Whatever happens at its time, the journal tells of it. -/
theorem promptly (overseen : e.Overseen n) (ordered : e.Ordered .ahead none)
    (timely : ∀ k, e.Timely k) (event : Promptly e e') : e'.Overseen n := by
  cases event with
  | begin atRest still =>
      exact (habit n default).begin overseen (served n) still
        fun _ _ => overseen.congr rfl fun _ => rfl
  | @take before after u queued =>
      have start : ({ e with queue := before ++ after } : Engine).Overseen n :=
        overseen.congr rfl fun _ => rfl
      rcases u with spec | ⟨j, stage | _⟩
      · exact (habit n default).launch start spec
      · refine (habit n j).pollCode start stage fun c here running => ?_
        have told := (ordered.kept j c (by simp) here).told.work
        cases work : c.work with
        | running since wait =>
            simp only [work, Work.Told] at told
            exact overseen.letThrough told.1
        | _ => simp [work, Work.phase] at running
      · exact (habit n j).pollWatch start fun c here expired unclaimed =>
          overseen.letThrough_of_expired ordered (timely j) here expired unclaimed
  | @fire a atRest pending sooner =>
      refine (overseen.setNow (ordered.now_le_due pending)).congr (board_fire e a) fun m => ?_
      exact settings?_updateDesk _ _ m fun _ => rfl
  | clock atRest onward ahead => exact overseen.setNow onward

end Overseen

/-- At every moment the journal tells what became of every circuit, and for whom it was asked. -/
theorem ReachedPromptly.overseen (reached : e.ReachedPromptly) (n : Name) : e.Overseen n := by
  obtain ⟨defaults, items, hooks, run⟩ := reached
  induction run with
  | refl =>
      refine ⟨⟨by simp [build], by simp [build]⟩, fun _ => ⟨rfl, by simp [build]⟩, ?_, trivial⟩
      simp [settings?, build]
  | next before event ih =>
      have reached : ReachedPromptly _ := ⟨defaults, items, hooks, before⟩
      exact ih.promptly reached.ordered reached.timely event

end Engine

end Bulwark
