import Bulwark.Proofs.Outcomes

/-!
What a call reports, and when, turn by turn.

A call is followed with the instant at which it was issued and the time it has
(`Engine.Clocked`). Everything that the journal tells of its reports was told when
it should be (`Judged`): that it was not let through, when it was issued; how its
operation ended, when it ended and before the time was up; that the time was up,
just then; and how its fallback went, with the run duration of the report before.
And the call itself remembers the instants that it will report by (`Call.Dated`).

The lemmas go through a turn in the order of the code. For the call whose turn it
is they ask for what is known when the turn begins; of a turn of another call, and
of what callers do, they ask nothing.
-/

namespace Bulwark

def Work.since? : Work → Option Instant
  | .running since _ => some since
  | _ => none

def Rescue.took? : Rescue → Option Duration
  | .running _ took _ => some took
  | _ => .none

/-- The journal tells that a call went wrong, and for how long its operation had run by
then: that is what a report of its fallback carries. -/
def Spent (k : CallKey) (s : Instant) (journal : List Note) (took : Duration) : Prop :=
  ∃ t r, ⟨t, .recorded k.command (some k) r⟩ ∈ journal ∧
    (r.outcome = .failure ∧ took = s.elapsed t ∨
      (r.outcome = .timeout ∨ r.outcome = .rejected ∨ r.outcome = .shortCircuited) ∧ took = .zero)

/-- An outcome of a call that was issued at an instant may be told at another, with a run
duration, after what the journal has told until then. -/
inductive InTime (k : CallKey) (s : Instant) (D : Duration) (t : Instant) (earlier : List Note) :
    Outcome → Duration → Prop where
  | shortCircuited : t = s → (Tale.of k earlier).starts = 0 →
      InTime k s D t earlier .shortCircuited .zero
  | rejected : t = s → (Tale.of k earlier).starts = 0 → InTime k s D t earlier .rejected .zero
  /-- The operation has just succeeded, and the time was not up. -/
  | success : s.nanos ≤ t.nanos → t.nanos < (s.due D).nanos →
      ⟨t, .ended k .operation none⟩ ∈ earlier → InTime k s D t earlier .success (s.elapsed t)
  /-- The operation has just failed, and the time was not up. -/
  | failure (fault : Fault) : s.nanos ≤ t.nanos → t.nanos < (s.due D).nanos →
      ⟨t, .ended k .operation (some fault)⟩ ∈ earlier →
      InTime k s D t earlier .failure (s.elapsed t)
  /-- The time is up, and the operation goes on. -/
  | timeout : t = s.due D → (Tale.of k earlier).starts = 1 → (Tale.of k earlier).ends = [] →
      InTime k s D t earlier .timeout .zero
  | fallback {o : Outcome} {took : Duration} : o.isPrimary = false → Spent k s earlier took →
      InTime k s D t earlier o took

/-- What a note tells of a request of a call was told when it should be: the call asks when it
is issued, and reports in time. -/
structure Judged (k : CallKey) (s : Instant) (D : Duration) (x : Note) (earlier : List Note) :
    Prop where
  ask : ∀ n state answer, x.entry = .asked n (some k) state answer → x.written = s
  report : ∀ n r, x.entry = .recorded n (some k) r →
    n = k.command ∧ r.start = s ∧ InTime k s D x.written earlier r.outcome r.took

def Unheard (k : CallKey) (journal : List Note) : Prop :=
  ∀ x ∈ journal, x.entry.call? = some k → x.entry.circuit? = none

/-- Of an entry that is no request of the call there is nothing to judge. -/
theorem Judged.of_aside {k : CallKey} {s : Instant} {D : Duration} {x : Note} {earlier : List Note}
    (aside : x.entry.call? = some k → x.entry.circuit? = none) : Judged k s D x earlier where
  ask n state answer told := by simp [told, Entry.call?, Entry.circuit?] at aside
  report n r told := by simp [told, Entry.call?, Entry.circuit?] at aside

theorem Unheard.historic {k : CallKey} {s : Instant} {D : Duration} {journal : List Note}
    (unheard : Unheard k journal) : Historic (Judged k s D) journal :=
  .of_forall fun x among _ => .of_aside (unheard x among)

/-- What the journal tells of a call that was issued at an instant, and of its reports. -/
structure Board.Chronicled (k : CallKey) (s : Instant) (D : Duration) (b : Board) : Prop where
  past : s.nanos ≤ b.now.nanos
  issued : ∃ id rescuable, ⟨s, .issued k id rescuable⟩ ∈ b.journal
  judged : Historic (Judged k s D) b.journal

/-- A call that was issued at an instant remembers the instants that it will report by. -/
structure Call.Dated (k : CallKey) (s : Instant) (D : Duration) (b : Board) (c : Call) : Prop where
  start : c.start = s
  queued : c.work.phase = .queued → s = b.now ∧ c.watch ≠ .done
  since : ∀ t, c.work.since? = some t → t = s
  watched : c.watch = .queued → s = b.now
  armed : ∀ due, c.watch = .armed due → due = s.due D
  unexpired : c.watch ≠ .expired
  early : c.claimed = false → b.now.nanos < (s.due D).nanos
  took : ∀ took, c.rescue.took? = some took → Spent k s b.journal took

def Engine.limit (e : Engine) (n : Name) : Duration :=
  ((e.settings? n).getD (e.policy.settings n)).timeout

/-- A command keeps the time it gives to its calls, and is in use if it was. -/
structure Engine.SameTerms (n : Name) (e e' : Engine) : Prop where
  limit : e'.limit n = e.limit n
  desk : (e'.desks.get? n).isSome = (e.desks.get? n).isSome

/-- A call that is issued at an instant, if it is made in this turn, keeps to its times. -/
structure Engine.Clocked (k : CallKey) (s : Instant) (D : Duration) (e : Engine) : Prop where
  limit : e.limit k.command = D
  equipped : (e.desks.get? k.command).isSome →
    (e.board.circuits.get? k.command).isSome ∧ 0 < D.nanos
  unmade : e.call? k = none → s = e.now ∧ Unheard k e.board.journal
  told : (e.call? k).isSome → e.board.Chronicled k s D
  dated : ∀ c, e.call? k = some c → c.Dated k s D e.board

/-! ### What does not matter to the times of a call -/

section

variable {k : CallKey} {s : Instant} {D : Duration} {b b' : Board} {c c' : Call}

/-- What was spent stays so as the journal grows. -/
theorem Spent.mono {journal journal' : List Note} {took : Duration} (spent : Spent k s journal took)
    (grown : journal <:+ journal') : Spent k s journal' took := by
  obtain ⟨t, r, member, cost⟩ := spent
  exact ⟨t, r, grown.subset member, cost⟩

namespace Call

/-- What is known of the times of a call depends on a few of its parts only. -/
theorem Dated.congr (dated : c.Dated k s D b) (start : c'.start = c.start)
    (phase : c'.work.phase = c.work.phase) (since : c'.work.since? = c.work.since?)
    (watch : c'.watch = c.watch) (claimed : c'.claimed = c.claimed)
    (took : c'.rescue.took? = c.rescue.took?) : c'.Dated k s D b := by
  constructor
  case start => rw [start]; exact dated.start
  case queued => rw [phase, watch]; exact dated.queued
  case since => rw [since]; exact dated.since
  case watched => rw [watch]; exact dated.watched
  case armed => rw [watch]; exact dated.armed
  case unexpired => rw [watch]; exact dated.unexpired
  case early => rw [claimed]; exact dated.early
  case took => rw [took]; exact dated.took

/-- What is known of the times of a call stays known as the journal grows. -/
theorem Dated.onward (dated : c.Dated k s D b) (now : b'.now = b.now)
    (grown : b.journal <:+ b'.journal) : c.Dated k s D b' where
  start := dated.start
  queued := by rw [now]; exact dated.queued
  since := dated.since
  watched := by rw [now]; exact dated.watched
  armed := dated.armed
  unexpired := dated.unexpired
  early := by rw [now]; exact dated.early
  took took running := (dated.took took running).mono grown

variable (c) (stage : Stage) (wait : Wait)

@[simp] theorem start_setWait : (c.setWait stage wait).start = c.start := by
  unfold setWait; split <;> split <;> rfl

@[simp] theorem since?_setWait : (c.setWait stage wait).work.since? = c.work.since? := by
  unfold setWait
  split
  · split
    · next found => simp [found, Work.since?]
    · rfl
  · split <;> rfl

@[simp] theorem took?_setWait : (c.setWait stage wait).rescue.took? = c.rescue.took? := by
  unfold setWait
  split
  · split <;> rfl
  · split
    · next found => simp [found, Rescue.took?]
    · rfl

variable {c}

theorem Dated.setWait (dated : c.Dated k s D b) : (c.setWait stage wait).Dated k s D b :=
  dated.congr (by simp) (by simp) (by simp) (by simp) (by simp) (by simp)

end Call

/-- A note that tells of no request of the call. -/
theorem Board.Chronicled.note (told : b.Chronicled k s D) {x : Entry}
    (aside : x.call? = some k → x.circuit? = none) : (b.note x).Chronicled k s D where
  past := told.past
  issued := by
    obtain ⟨id, rescuable, member⟩ := told.issued
    exact ⟨id, rescuable, List.mem_cons_of_mem _ member⟩
  judged := ⟨.of_aside aside, told.judged⟩

/-- A call that was not heard of stays so while no note names it. -/
theorem Unheard.append {journal new : List Note} (unheard : Unheard k journal)
    (quiet : ∀ x ∈ new, x.entry.call? = none) : Unheard k (new ++ journal) := by
  intro x member own
  rcases List.mem_append.mp member with late | early
  · simp [quiet x late] at own
  · exact unheard x early own

/-- Notes that name no call are judged well by any judge of calls. -/
theorem Historic.append_quiet {journal new : List Note}
    (judged : Historic (Judged k s D) journal) (quiet : ∀ x ∈ new, x.entry.call? = none) :
    Historic (Judged k s D) (new ++ journal) := by
  induction new with
  | nil => exact judged
  | cons x rest ih =>
      refine ⟨.of_aside ?_, ih fun y among => quiet y (List.mem_cons_of_mem _ among)⟩
      simp [quiet x List.mem_cons_self]

/-- What a board tells of the times of a call it still does after what names no call. -/
theorem Board.Chronicled.quiet (told : b.Chronicled k s D) (quiet : Board.Quiet b b') :
    b'.Chronicled k s D := by
  obtain ⟨new, grown, silent⟩ := quiet.journal
  constructor
  case past => rw [quiet.now]; exact told.past
  case issued =>
    obtain ⟨id, rescuable, member⟩ := told.issued
    exact ⟨id, rescuable, grown ▸ List.mem_append_right _ member⟩
  case judged =>
    rw [grown]
    exact told.judged.append_quiet silent

end

namespace Engine

/-! ### The terms of a command -/

namespace SameTerms

variable {n : Name} {e e' e'' : Engine}

theorem trans (first : SameTerms n e e') (second : SameTerms n e' e'') : SameTerms n e e'' :=
  ⟨second.limit.trans first.limit, second.desk.trans first.desk⟩

theorem of_settings (settings : e'.settings? n = e.settings? n) (policy : e'.policy = e.policy) :
    SameTerms n e e' where
  limit := by simp only [Engine.limit, settings, policy]
  desk := by simpa [settings?] using congrArg Option.isSome settings

theorem of_desks (desks : e'.desks = e.desks) (policy : e'.policy = e.policy) :
    SameTerms n e e' := of_settings (by simp only [settings?, desks]) policy

theorem updateDesk (e : Engine) (m n : Name) {f : Desk → Desk}
    (settings : ∀ d, (f d).settings = d.settings) : SameTerms n e (e.updateDesk m f) :=
  of_settings (settings?_updateDesk e m n settings) (policy_updateDesk ..)

theorem updateCall (e : Engine) (n : Name) (j : CallKey) (f : Call → Call) :
    SameTerms n e (e.updateCall j f) := updateDesk e j.command n fun _ => rfl

theorem claim (e : Engine) (n : Name) (j : CallKey) : SameTerms n e (e.claim j).1 := by
  unfold Engine.claim
  split
  · exact ⟨rfl, rfl⟩
  · split
    · exact ⟨rfl, rfl⟩
    · exact updateCall ..

/-- The terms of a command are the same after a place is vacated. -/
theorem vacate (e : Engine) (n : Name) (j : CallKey) : SameTerms n e (e.vacate j) := by
  unfold Engine.vacate
  split
  · exact ⟨rfl, rfl⟩
  · dsimp only
    split
    · exact (updateCall ..).trans (updateDesk _ _ _ fun _ => rfl)
    · exact updateCall ..

end SameTerms

namespace Clocked

variable {k j : CallKey} {s : Instant} {D : Duration} {e e' : Engine} {n : Name}

/-! ### Small changes -/

/-- What is told of nobody, beside calls that stay as they are. -/
theorem beside (clocked : e.Clocked k s D) (quiet : Board.Quiet e.board e'.board)
    (calls : e'.call? k = e.call? k) (limit : e'.limit k.command = e.limit k.command)
    (equipped : (e'.desks.get? k.command).isSome →
      (e'.board.circuits.get? k.command).isSome ∧ 0 < D.nanos) : e'.Clocked k s D := by
  obtain ⟨new, grown, silent⟩ := quiet.journal
  constructor
  case limit => rw [limit]; exact clocked.limit
  case equipped => exact equipped
  case unmade =>
    intro none_
    obtain ⟨now, unheard⟩ := clocked.unmade (calls ▸ none_)
    refine ⟨now.trans quiet.now.symm, ?_⟩
    rw [grown]
    exact unheard.append silent
  case told =>
    intro made
    exact (clocked.told (calls ▸ made)).quiet quiet
  case dated =>
    intro c here
    exact (clocked.dated c (calls ▸ here)).onward quiet.now ⟨new, grown.symm⟩

/-- Besides, no command is created. -/
theorem quiet (clocked : e.Clocked k s D) (quiet : Board.Quiet e.board e'.board)
    (calls : e'.call? k = e.call? k) (terms : SameTerms k.command e e') : e'.Clocked k s D := by
  refine clocked.beside quiet calls terms.limit fun used => ?_
  obtain ⟨present, positive⟩ := clocked.equipped (terms.desk ▸ used)
  exact ⟨quiet.circuits _ present, positive⟩

/-- The queue, the handles and the tickets do not matter. -/
theorem congr (clocked : e.Clocked k s D) (desks : e'.desks = e.desks)
    (policy : e'.policy = e.policy) (board : e'.board = e.board) : e'.Clocked k s D := by
  refine clocked.quiet ?_ (call?_congr desks k) (.of_desks desks policy)
  rw [board]
  exact .refl

/-- A note that is not about the call keeps the engine clocked for it. -/
theorem note (clocked : e.Clocked k s D) {x : Entry}
    (aside : x.call? = some k → x.circuit? = none) : (e.note x).Clocked k s D where
  limit := clocked.limit
  equipped := clocked.equipped
  unmade none_ := by
    obtain ⟨now, unheard⟩ := clocked.unmade none_
    refine ⟨now, fun y member own => ?_⟩
    rcases List.mem_cons.mp member with rfl | old
    · exact aside own
    · exact unheard y old own
  told made := (clocked.told made).note aside
  dated c here := (clocked.dated c here).onward rfl (List.suffix_cons _ _)

theorem remark (clocked : e.Clocked k s D) (n : Name) (m : Remark) :
    (e.remark n m).Clocked k s D := clocked.note (by simp [Entry.call?])

theorem mark (clocked : e.Clocked k s D) (j : CallKey) (stage : Stage) (m : Mark) :
    (e.mark j stage m).Clocked k s D := by
  rcases e.mark_eq_self_or_note j stage m with same | ⟨id, noted⟩
  · rwa [same]
  · rw [noted]
    exact clocked.note fun _ => rfl

theorem enqueue (clocked : e.Clocked k s D) (u : Turn) : (e.enqueue u).Clocked k s D :=
  clocked.congr rfl rfl rfl

theorem retake (clocked : e.Clocked k s D) (tickets : Roster Name) :
    ({ e with tickets := tickets } : Engine).Clocked k s D := clocked.congr rfl rfl rfl

/-- A change of a desk that leaves its settings and its calls alone. -/
theorem updateDesk (clocked : e.Clocked k s D) {f : Desk → Desk}
    (settings : ∀ d, (f d).settings = d.settings) (calls : ∀ d, (f d).calls = d.calls) :
    (e.updateDesk n f).Clocked k s D := by
  refine clocked.quiet ?_ (call?_updateDesk_of_calls e n calls k) (.updateDesk e n _ settings)
  rw [board_updateDesk]
  exact .refl

/-- A change of a call that keeps the call to its times. -/
theorem updateCall (clocked : e.Clocked k s D) {f : Call → Call}
    (keeps : j = k → ∀ c, e.call? k = some c → c.Dated k s D e.board → (f c).Dated k s D e.board) :
    (e.updateCall j f).Clocked k s D := by
  have here : ∀ c', (e.updateCall j f).call? k = some c' →
      ∃ c, e.call? k = some c ∧ c'.Dated k s D e.board := by
    intro c' found
    by_cases same : k = j
    · subst same
      rw [call?_updateCall_self] at found
      obtain ⟨c, known, rfl⟩ := Option.map_eq_some_iff.mp found
      exact ⟨c, known, keeps rfl c known (clocked.dated c known)⟩
    · rw [call?_updateCall_of_ne e same] at found
      exact ⟨c', found, clocked.dated c' found⟩
  have gone : (e.updateCall j f).call? k = none → e.call? k = none := by
    intro none_
    rw [call?_updateCall] at none_
    split at none_
    · simpa using none_
    · exact none_
  have terms := SameTerms.updateCall e k.command j f
  constructor
  case limit => rw [terms.limit]; exact clocked.limit
  case equipped => rw [terms.desk, board_updateCall]; exact clocked.equipped
  case unmade =>
    intro none_
    rw [board_updateCall, now_updateCall]
    exact clocked.unmade (gone none_)
  case told =>
    intro made
    obtain ⟨c', found⟩ := Option.isSome_iff_exists.mp made
    obtain ⟨c, known, _⟩ := here c' found
    rw [board_updateCall]
    exact clocked.told (by rw [known]; rfl)
  case dated =>
    intro c' found
    obtain ⟨c, _, dated⟩ := here c' found
    rw [board_updateCall]
    exact dated

theorem wake (clocked : e.Clocked k s D) (j : CallKey) (stage : Stage) (next : Script) :
    (e.wake j stage next).Clocked k s D :=
  (clocked.updateCall fun _ _ _ dated => dated.setWait _ _).enqueue _

/-- A verdict keeps an engine clocked for a call. -/
theorem deliver (clocked : e.Clocked k s D) (j : CallKey) (verdict : Verdict) :
    (e.deliver j verdict).Clocked k s D := by
  unfold Engine.deliver
  split
  · exact clocked
  · have told : ((e.updateCall j fun c => { c with verdict := some verdict }).note
        (.resolved j verdict)).Clocked k s D :=
      (clocked.updateCall (j := j) (f := fun c => { c with verdict := some verdict })
        fun _ c _ dated => dated.congr rfl rfl rfl rfl rfl rfl).note
        (x := .resolved j verdict) fun _ => rfl
    dsimp only
    split
    · exact told
    · exact told.wake ..

theorem instruct (clocked : e.Clocked k s D) (id : String) (next : Script) :
    (e.instruct id next).1.Clocked k s D := by
  unfold Engine.instruct
  split
  · exact clocked
  · exact clocked.wake ..

theorem clearManual (clocked : e.Clocked k s D) (j : CallKey) :
    (e.clearManual j).Clocked k s D := by
  unfold Engine.clearManual
  split
  · exact clocked
  · exact clocked.instruct ..

/-! ### Requests -/

/-- A request of the call itself is told when it should be. -/
theorem request (clocked : e.Clocked k s D) {x : Entry} (own : x.call? = some j)
    (made : j = k → (e.call? k).isSome)
    (due : j = k → Judged k s D ⟨e.now, x⟩ e.board.journal) {board : Board}
    (now : board.now = e.now) (journal : board.journal = ⟨e.now, x⟩ :: e.board.journal)
    (circuits : ∀ n, (e.board.circuits.get? n).isSome → (board.circuits.get? n).isSome) :
    ({ e with board := board } : Engine).Clocked k s D := by
  have grown : e.board.journal <:+ board.journal := journal ▸ List.suffix_cons _ _
  constructor
  case limit => exact clocked.limit
  case equipped =>
    intro used
    obtain ⟨present, positive⟩ := clocked.equipped used
    exact ⟨circuits _ present, positive⟩
  case unmade =>
    intro none_
    obtain ⟨start, unheard⟩ := clocked.unmade none_
    refine ⟨start.trans now.symm, fun y member mine => ?_⟩
    rcases List.mem_cons.mp (journal ▸ member) with rfl | old
    · have some_ := made (Option.some.inj (own.symm.trans mine))
      rw [show e.call? k = none from none_] at some_
      cases some_
    · exact unheard y old mine
  case told =>
    intro some_
    have told := clocked.told some_
    constructor
    case past => exact now.symm ▸ told.past
    case issued =>
      obtain ⟨id, rescuable, member⟩ := told.issued
      exact ⟨id, rescuable, grown.subset member⟩
    case judged =>
      rw [journal]
      -- The earlier notes were judged before, so only the new one is left.
      refine ⟨?_, told.judged⟩
      by_cases self : j = k
      · exact due self
      · exact .of_aside fun same => absurd (Option.some.inj (own.symm.trans same)) self
  case dated =>
    intro c known
    exact (clocked.dated c known).onward now grown

/-- A report of the call itself is told when it should be. -/
theorem report (clocked : e.Clocked k s D) {o : Outcome} {took : Duration}
    (due : j = k → InTime k s D e.now e.board.journal o took) :
    (e.report j o took).Clocked k s D := by
  unfold Engine.report
  split
  · exact clocked
  · next c here =>
      cases found : e.board.circuits.get? j.command with
      | none => exact clocked.congr rfl rfl (by simp [Board.report, found])
      | some circuit =>
          let r : Report := ⟨o, c.start, took⟩
          have made : j = k → (e.call? k).isSome := by
            rintro rfl
            rw [here]
            rfl
          have judged : j = k → Judged k s D ⟨e.now, .recorded j.command (some j) r⟩
              e.board.journal := by
            rintro rfl
            constructor
            case ask => simp
            case report =>
              rintro n t ⟨⟩
              exact ⟨rfl, (clocked.dated c here).start, due rfl⟩
          have recorded : ({ e with board := e.board.absorb j.command (some j) r circuit } :
              Engine).Clocked k s D :=
            clocked.request rfl made judged rfl rfl fun n present =>
              Board.Trail.circuits_putCircuit (b := e.board.note _) _ _ present
          exact recorded.quiet (Board.report_quiet 3 (some j) r found) rfl ⟨rfl, rfl⟩

/-- What a report that the call went wrong is worth to the fallback. -/
theorem spent (clocked : e.Clocked k s D) (made : (e.call? k).isSome) {o : Outcome}
    {took : Duration}
    (cost : o = .failure ∧ took = s.elapsed e.now ∨
      (o = .timeout ∨ o = .rejected ∨ o = .shortCircuited) ∧ took = .zero) :
    Spent k s (e.report k o took).board.journal took := by
  obtain ⟨c, here⟩ := Option.isSome_iff_exists.mp made
  obtain ⟨desk, used, _⟩ := desk_of_call? here
  obtain ⟨circuit, found⟩ := Option.isSome_iff_exists.mp (clocked.equipped (by rw [used]; rfl)).1
  refine ⟨e.now, ⟨o, c.start, took⟩, ?_, cost⟩
  have told : Board.Quiet (e.board.absorb k.command (some k) ⟨o, c.start, took⟩ circuit)
      (e.report k o took).board := by
    simp only [Engine.report, here]
    exact Board.report_quiet 3 (some k) _ found
  obtain ⟨new, grown, _⟩ := told.journal
  rw [grown]
  exact List.mem_append_right _ List.mem_cons_self

/-- The call itself asks when it is issued. -/
theorem ask (clocked : e.Clocked k s D) (made : j = k → (e.call? k).isSome)
    (now : j = k → e.now = s) : (e.ask j).1.Clocked k s D := by
  cases found : e.board.circuits.get? j.command with
  | none => exact clocked.congr rfl rfl (by simp [Engine.ask, Board.allow, found])
  | some circuit =>
      let x := Entry.asked j.command (some j) circuit.state (circuit.allow e.now).answer
      have judged : j = k → Judged k s D ⟨e.now, x⟩ e.board.journal := by
        intro self
        constructor
        case ask => exact fun _ _ _ _ => now self
        case report => simp [x]
      have asked : ({ e with board := e.board.note x } : Engine).Clocked k s D :=
        clocked.request rfl made judged rfl rfl fun _ present => present
      have rest := Board.allow_quiet 3 (some j) found
      exact asked.quiet rest rfl ⟨rfl, rfl⟩

/-! ### Commands and calls -/

/-- The limit of every command, in use or not, is the same after a new command is made. -/
theorem limit_create (e : Engine) (n m : Name) : (e.create n).1.limit m = e.limit m := by
  unfold Engine.create
  split
  · rfl
  · next absent =>
      dsimp only
      split
      · rfl
      · by_cases same : n = m
        · subst same
          simp [Engine.limit, settings?, Engine.remark, Engine.note, absent]
        · simp [Engine.limit, settings?, Engine.remark, Engine.note, Roster.get?_put_of_ne _ _ same]

/-- A new command keeps an engine clocked for a call. -/
theorem create (clocked : e.Clocked k s D) (n : Name) : (e.create n).1.Clocked k s D := by
  have quiet : Board.Quiet e.board (e.create n).1.board := by
    unfold Engine.create
    split
    · exact .refl
    · dsimp only
      split
      · exact .refl
      · exact (Board.Trail.equip n _ .refl).note rfl (by simp)
  refine clocked.beside quiet (call?_create e n k) (limit_create e n _) ?_
  have limit := clocked.limit
  intro used
  unfold Engine.create at used ⊢
  split
  · next found =>
      simp only [found] at used
      exact clocked.equipped used
  · next absent =>
      simp only [absent] at used
      dsimp only at used ⊢
      split
      · next found =>
          simp only [found] at used
          exact clocked.equipped used
      · next sound =>
          have usable := (Settings.defect?_eq_none_iff _).mp sound
          by_cases same : n = k.command
          · subst same
            -- The command had no settings of its own, so its limit was that of the policy.
            simp only [Engine.limit, settings?, absent, Option.map_none, Option.getD_none] at limit
            exact ⟨by simp [Engine.remark, Engine.note, Board.note, Board.putCircuit],
              limit ▸ usable.timeout⟩
          · simp only [sound, desks_remark, Roster.get?_put_of_ne _ _ same] at used
            obtain ⟨present, positive⟩ := clocked.equipped used
            refine ⟨?_, positive⟩
            simpa [Engine.remark, Engine.note, Board.note, Board.putCircuit,
              Roster.get?_put_of_ne _ _ same] using present

/-- A call that is made has all its time. -/
theorem dated_make {spec : CallSpec Script} (positive : 0 < D.nanos) {b : Board} (now : s = b.now) :
    (Call.make spec s).Dated k s D b where
  start := rfl
  queued _ := ⟨now, by simp [Call.make]⟩
  since t running := by simp [Call.make, Work.since?] at running
  watched _ := now
  armed due armed := by simp [Call.make] at armed
  unexpired := by simp [Call.make]
  early _ := by
    have later := s.later_le_due D
    simp only [Instant.later] at later
    rw [← now]
    omega
  took cost running := by
    cases found : spec.fallback <;> simp [Call.make, found, Rescue.took?] at running

/-- The call is made now, and nothing is told of it yet but that. -/
theorem issued (clocked : e.Clocked k s D) (absent : e.call? k = none) {spec : CallSpec Script}
    (here : e'.call? k = some (.make spec e.now)) (board : e'.board = e.board)
    (terms : SameTerms k.command e e') (used : (e'.desks.get? k.command).isSome) (id : String)
    (rescuable : Bool) : (e'.note (.issued k id rescuable)).Clocked k s D := by
  obtain ⟨start, unheard⟩ := clocked.unmade absent
  have now : e'.now = s := (congrArg Board.now board).trans start.symm
  have equipped := clocked.equipped (terms.desk ▸ used)
  constructor
  case limit => exact terms.limit.trans clocked.limit
  case equipped =>
    intro _
    rw [← board] at equipped
    exact equipped
  case unmade =>
    intro none_
    exact absurd (here.symm.trans none_) (by simp)
  case told =>
    intro _
    refine ⟨Int.le_of_eq (congrArg Instant.nanos now.symm), ⟨id, rescuable, ?_⟩, ?_, ?_⟩
    · rw [← now]
      exact List.mem_cons_self
    · exact .of_aside fun _ => rfl
    · rw [board]
      exact unheard.historic
  case dated =>
    intro c known
    obtain rfl := Option.some.inj (here.symm.trans known)
    rw [← start]
    exact dated_make equipped.2 now.symm

/-- Another execution keeps an engine clocked for a call. -/
theorem execute (clocked : e.Clocked k s D) (spec : CallSpec Script) :
    (e.execute spec).1.Clocked k s D := by
  cases made : e.execute spec with
  | mk after answer =>
      cases answer with
      | error error =>
          obtain rfl := execute_of_error made
          exact clocked
      | ok i =>
          obtain ⟨base, desk, rfl, used, key, rfl⟩ := execute_of_ok made
          have now : (e.create spec.command).1.now = e.now := (Grows.create e spec.command).now
          have created := clocked.create spec.command
          generalize (e.create spec.command).1 = base at used now created
          refine Clocked.enqueue (Clocked.enqueue ?_ _) _
          let c := Call.make spec e.now
          let filed := base.updateDesk spec.command fun desk =>
            { desk with calls := desk.calls ++ [c] }
          have call : ∀ j, filed.call? j = if j = i then some c else base.call? j := by
            intro j
            rw [key]
            exact call?_updateDesk_append used c j
          have board : filed.board = base.board := board_updateDesk ..
          have terms : SameTerms k.command base filed := .updateDesk _ _ _ fun _ => rfl
          by_cases self : k = i
          · have absent : base.call? k = none := by
              rw [self, key, call?_of_desk used]
              simp
            have here : filed.call? k = some (.make spec base.now) := by
              rw [call, if_pos self, now]
            have used : (filed.desks.get? k.command).isSome := by
              rw [terms.desk, self, key, used]
              rfl
            rw [← self]
            exact created.issued absent here board terms used ..
          · -- Another call is made.
            have filed : filed.Clocked k s D := by
              refine created.quiet ?_ (by rw [call, if_neg self]) terms
              rw [board]
              exact .refl
            exact filed.note fun _ => rfl

end Clocked

end Engine

end Bulwark
