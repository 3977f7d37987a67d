import Bulwark.Proofs.Lookup
import Bulwark.Proofs.Trail

/-!
What the journal tells of one call.

The journal mixes the entries of all calls. The tale of a call collects what
concerns that call: whether it was made with a fallback, how often its operation
was started, how its operation ended, and, in order, the beats of its
resolution: what it reported, when its fallback started and ended, and when its
verdict was delivered.

* `Tale.of_quiet`: what happens without mention of a call adds nothing.
* `Tale.beats_of_earlier`: at any earlier point of the journal a tale had told a
  first part of its beats.
* `Engine.tale_report`: a report of a call adds one beat to the tale of that
  call, whatever the hooks do.
-/

namespace Bulwark

/-- A step in the resolution of a call. -/
inductive Beat where
  | reported (r : Report)
  /-- The fallback was started, and was handed an error. -/
  | rescue (cause : CallError)
  | rescueEnded (fault : Option Fault)
  | delivered (verdict : Verdict)
  deriving DecidableEq, Repr

def Beat.outcome? : Beat → Option Outcome
  | .reported r => some r.outcome
  | _ => none

/-- What the journal tells of a call. -/
structure Tale where
  /-- The call was made with a fallback. -/
  rescuable : Bool := false
  /-- How often the operation was started. -/
  starts : Nat := 0
  /-- How the operation ended, each time it did. -/
  ends : List (Option Fault) := []
  beats : List Beat := []
  deriving DecidableEq, Repr

namespace Tale

def add (t : Tale) : Entry → Tale
  | .issued _ _ rescuable => { t with rescuable := rescuable }
  | .operation _ _ .started => { t with starts := t.starts + 1 }
  | .ended _ .operation fault => { t with ends := t.ends ++ [fault] }
  | .recorded _ _ r => { t with beats := t.beats ++ [.reported r] }
  | .fallback _ _ cause => { t with beats := t.beats ++ [.rescue cause] }
  | .ended _ .fallback fault => { t with beats := t.beats ++ [.rescueEnded fault] }
  | .resolved _ verdict => { t with beats := t.beats ++ [.delivered verdict] }
  | _ => t

/-- The tale of a call in a journal, which stands newest first. -/
def of (k : CallKey) : List Note → Tale
  | [] => {}
  | n :: earlier =>
    if n.entry.call? = some k then (of k earlier).add n.entry else of k earlier

def events (t : Tale) : List Outcome := t.beats.filterMap Beat.outcome?

/-- What others do is no part of the tale of a call. -/
theorem of_append {k : CallKey} {new : List Note}
    (silent : ∀ n ∈ new, n.entry.call? ≠ some k) (earlier : List Note) :
    of k (new ++ earlier) = of k earlier := by
  induction new with
  | nil => rfl
  | cons n rest ih =>
      have later := ih fun m member => silent m (List.mem_cons_of_mem _ member)
      simp only [List.cons_append, of, if_neg (silent n List.mem_cons_self), later]

theorem of_quiet {b b' : Board} (quiet : b.Quiet b') (k : CallKey) :
    of k b'.journal = of k b.journal := by
  obtain ⟨new, grown, silent⟩ := quiet.journal
  rw [grown]
  exact of_append (fun n member => by simp [silent n member]) _

/-- An entry leaves the beats as they are or adds one. -/
theorem beats_add (t : Tale) (x : Entry) :
    (t.add x).beats = t.beats ∨ ∃ beat, (t.add x).beats = t.beats ++ [beat] := by
  unfold add
  split
  case h_4 | h_5 | h_6 | h_7 => exact .inr ⟨_, rfl⟩
  all_goals exact .inl rfl

/-- A tale only gets longer. -/
theorem beats_of_append (k : CallKey) (new earlier : List Note) :
    (of k earlier).beats <+: (of k (new ++ earlier)).beats := by
  induction new with
  | nil => exact List.prefix_rfl
  | cons n rest ih =>
      simp only [List.cons_append, of]
      split
      · rcases beats_add (of k (rest ++ earlier)) n.entry with same | ⟨beat, grown⟩
        · rwa [same]
        · rw [grown]
          exact ih.trans (List.prefix_append _ _)
      · exact ih

/-- At an earlier point, a first part of the beats had been told. -/
theorem beats_of_earlier {earlier journal : List Note} (past : earlier <:+ journal)
    (k : CallKey) : (of k earlier).beats <+: (of k journal).beats := by
  obtain ⟨new, rfl⟩ := past
  exact beats_of_append k new earlier

theorem events_of_earlier {earlier journal : List Note} (past : earlier <:+ journal)
    (k : CallKey) : (of k earlier).events <+: (of k journal).events :=
  (beats_of_earlier past k).filterMap _

theorem starts_add (t : Tale) (x : Entry) : t.starts ≤ (t.add x).starts := by
  unfold add
  split
  case h_2 => exact Nat.le_succ _
  all_goals exact Nat.le_refl _

/-- At an earlier point, the operation had been started no more often. -/
theorem starts_of_earlier {earlier journal : List Note} (past : earlier <:+ journal)
    (k : CallKey) : (of k earlier).starts ≤ (of k journal).starts := by
  obtain ⟨new, rfl⟩ := past
  induction new with
  | nil => exact Nat.le_refl _
  | cons n rest ih =>
      simp only [List.cons_append, of]
      split
      · exact Nat.le_trans ih (starts_add _ _)
      · exact ih

end Tale

namespace Engine

def tale (e : Engine) (k : CallKey) : Tale := .of k e.board.journal

variable (e : Engine)

theorem tale_note (x : Entry) (k : CallKey) :
    (e.note x).tale k = if x.call? = some k then (e.tale k).add x else e.tale k := rfl

@[simp] theorem tale_note_self {x : Entry} {k : CallKey} (about : x.call? = some k) :
    (e.note x).tale k = (e.tale k).add x := by
  simp [tale_note, about]

theorem tale_note_of_ne {x : Entry} {k : CallKey} (other : x.call? ≠ some k) :
    (e.note x).tale k = e.tale k := by
  simp [tale_note, other]

@[simp] theorem tale_remark (n : Name) (r : Remark) (k : CallKey) :
    (e.remark n r).tale k = e.tale k := rfl

@[simp] theorem tale_enqueue (t : Turn) (k : CallKey) : (e.enqueue t).tale k = e.tale k := rfl

@[simp] theorem tale_setNow (t : Instant) (k : CallKey) : (e.setNow t).tale k = e.tale k := rfl

@[simp] theorem tale_updateDesk (n : Name) (f : Desk → Desk) (k : CallKey) :
    (e.updateDesk n f).tale k = e.tale k := by
  simp [tale]

@[simp] theorem tale_updateCall (j : CallKey) (f : Call → Call) (k : CallKey) :
    (e.updateCall j f).tale k = e.tale k := by
  simp [tale]

/-- The end of an operation that a caller sees is no more than a mark. -/
theorem tale_mark {m : Mark} (past : m ≠ .started) (j : CallKey) (stage : Stage) (k : CallKey) :
    (e.mark j stage m).tale k = e.tale k := by
  rcases e.mark_eq_self_or_note j stage m with same | ⟨id, noted⟩
  · rw [same]
  · rw [noted, tale_note]
    split
    · cases m <;> first | contradiction | rfl
    · rfl

variable {e}

/-- A circuit that is asked for a call leaves no trace in any tale. -/
@[simp] theorem tale_ask (j k : CallKey) : (e.ask j).1.tale k = e.tale k := by
  simp only [ask, tale]
  cases found : e.board.circuits.get? j.command with
  | none => simp [Board.allow, found]
  | some c =>
      refine (Tale.of_quiet (Board.allow_quiet 3 (some j) found) k).trans ?_
      simp only [Board.note, Tale.of]
      split <;> rfl

/-- A report of a call adds a beat to its tale and nothing to any other. -/
theorem tale_report {k : CallKey} {c : Call} (known : e.call? k = some c)
    (equipped : (e.board.circuits.get? k.command).isSome) (o : Outcome) (took : Duration)
    (j : CallKey) :
    (e.report k o took).tale j =
      if j = k then
        { e.tale k with beats := (e.tale k).beats ++ [.reported ⟨o, c.start, took⟩] }
      else e.tale j := by
  obtain ⟨circuit, found⟩ := Option.isSome_iff_exists.mp equipped
  simp only [report, known, tale]
  refine (Tale.of_quiet (Board.report_quiet 3 (some k) _ found) j).trans ?_
  simp only [Board.absorb, Board.note, Board.putCircuit, Tale.of, Entry.call?, Option.some.injEq]
  by_cases same : j = k
  · subst same; simp [Tale.add]
  · simp [same, Ne.symm same]

@[simp] theorem now_ask (k : CallKey) : (e.ask k).1.now = e.now := by
  simp only [ask, now]
  cases found : e.board.circuits.get? k.command with
  | none => simp [Board.allow, found]
  | some c => exact (Board.allow_quiet 3 (some k) found).now

@[simp] theorem now_report (k : CallKey) (o : Outcome) (took : Duration) :
    (e.report k o took).now = e.now := by
  unfold report
  split
  · rfl
  · simp only [now]
    cases found : e.board.circuits.get? k.command with
    | none => simp [Board.report, found]
    | some c => exact (Board.report_quiet 3 (some k) _ found).now

end Engine

end Bulwark
