import Bulwark.Proofs.OnTime
import Bulwark.Proofs.Overseen

/-!
Who decides a half-open circuit.

Unless somebody reports for no call or forces the circuit, a half-open circuit is
decided by a call that it has let through and that had not reported before. That is
not always the probe: the outcome of a call that was let through before the circuit
opened counts as well, if the call is still under way when the probe is
(`Engine.probesDecide_of_straggler`).

It is a probe if no such call can be under way any more: if all calls that were let
through before the circuit last opened have reported, or if calls run out of time
before the circuit lets a probe through (`Engine.ReachedPromptly.probesDecide`).
-/

namespace Bulwark

/-- Somebody reported to the circuit of a command for no call, or forced it. -/
def Entry.isDirect (n : Name) : Entry → Bool
  | .recorded m none _ => decide (m = n)
  | .remark m (.told (.shifted (.forcedOpen _))) => decide (m = n)
  | .remark m (.told (.shifted .forcedClosed)) => decide (m = n)
  | _ => false

namespace Board

def Heard (n : Name) (k : CallKey) (journal : List Note) : Prop :=
  ∃ t r, ⟨t, .recorded n (some k) r⟩ ∈ journal

/-- A call was let through as a probe since the circuit of a command last opened. -/
def Probed (n : Name) (k : CallKey) (journal : List Note) : Prop :=
  ∃ x ∈ sinceOpened n journal, x.entry.isProbe n = true ∧ x.entry.call? = some k

instance (n : Name) (k : CallKey) (journal : List Note) : Decidable (Probed n k journal) :=
  inferInstanceAs (Decidable (∃ x ∈ sinceOpened n journal, _ ∧ _))

/-- Every call that was let through before the circuit of a command last opened has reported. -/
def Settled (n : Name) (journal : List Note) : Prop :=
  ∀ x ∈ beforeOpened n journal, ∀ k, x.entry.admits n = true → x.entry.call? = some k →
    Heard n k journal

end Board

open Board (stateTold openedTold? Heard Probed Settled)

/-- The report of a call brought a half-open circuit to a decision, given what the journal told
before the report. -/
structure Decides (n : Name) (s : Settings) (k : CallKey) (r : Report) (shift : Shift)
    (earlier : List Note) : Prop where
  own : k.command = n
  outcome : shift = .recovered ∧ r.outcome = .success ∨
    shift = .relapsed r.outcome ∧ (r.outcome = .failure ∨ r.outcome = .timeout)
  entered : LetThrough k earlier
  first : ¬ Heard n k earlier
  /-- If nobody who was let through before the circuit opened is under way, it is a probe. -/
  settled : Settled n earlier → Probed n k earlier
  /-- So it is where calls run out of time before the circuit lets a probe through. -/
  patient : s.timeout.nanos + 1000000 ≤ s.sleepWindow.nanos → Probed n k earlier

/-- The journal tells how a circuit stands, and who decided it whenever it was half-open. -/
structure Engine.ProbesDecide (n : Name) (s : Settings) (e : Engine) : Prop where
  told : (e.board.circuits.get? n).map (·.state) = some (stateTold n e.board.journal)
  decided : ∀ later t shift earlier,
    e.board.journal = later ++ ⟨t, .remark n (.told (.shifted shift))⟩ :: earlier →
    stateTold n earlier = .halfOpen →
    ∃ k r rest, earlier = ⟨t, .recorded n (some k) r⟩ :: rest ∧ Decides n s k r shift rest

/-- What a call reports after it has reported comes later in its tale. -/
theorem Tale.later_of_heard {k : CallKey} {n : Name} {t : Instant} {r : Report}
    {earlier journal : List Note} (heard : Heard n k earlier)
    (known : ⟨t, .recorded n (some k) r⟩ :: earlier <:+ journal) :
    .reported r ∈ (of k journal).beats.tail := by
  obtain ⟨t', r', member⟩ := heard
  have before : .reported r' ∈ (of k earlier).beats := reported_of_told member
  have grown : (of k (⟨t, .recorded n (some k) r⟩ :: earlier)).beats =
      (of k earlier).beats ++ [.reported r] := by simp [of, Entry.call?, add]
  have told := beats_of_earlier known k
  rw [grown] at told
  obtain ⟨more, whole⟩ := told
  rw [← whole]
  cases beats : (of k earlier).beats with
  | nil => simp [beats] at before
  | cons beat rest => simp

namespace Circuit

variable {n : Name} {sleep : Duration} {t : Instant} {earlier : List Note} {shift : Shift}

/-- Unless it was forced, a half-open circuit was decided by the outcome reported last. -/
theorem Shifting.decision (shifting : Shifting n sleep t earlier shift)
    (half : stateTold n earlier = .halfOpen)
    (unforced : (Entry.remark n (.told (.shifted shift))).isDirect n = false) :
    ∃ caller r rest opened, earlier = ⟨t, .recorded n caller r⟩ :: rest ∧
      stateTold n rest = .halfOpen ∧ openedTold? n rest = some opened ∧
      (opened.later sleep).nanos ≤ t.nanos ∧
      (shift = .recovered ∧ r.outcome = .success ∨
        shift = .relapsed r.outcome ∧ (r.outcome = .failure ∨ r.outcome = .timeout)) := by
  cases shifting with
  | tripped closed => simp [closed] at half
  | probing opened => simp [opened] at half
  | forcedOpen before => simp [Entry.isDirect] at unforced
  | forcedClosed => simp [Entry.isDirect] at unforced
  | decided last still opened slept cause =>
      refine ⟨_, _, _, _, last, still, opened, slept, cause.imp_right fun ⟨relapsed, wrong⟩ => ?_⟩
      refine ⟨relapsed, ?_⟩
      generalize Report.outcome _ = o at wrong
      cases o <;> simp [Outcome.isExecutionError] at wrong ⊢

end Circuit

namespace Engine

variable {n : Name} {k : CallKey} {s : Instant} {D : Duration} {e : Engine} {desk : Desk}

/-- A call asks its circuit when it is issued. -/
theorem asked_at (told : e.board.Chronicled k s D) {x : Note} {state : State} {answer : Bool}
    (among : x ∈ e.board.journal) (asked : x.entry = .asked n (some k) state answer) :
    x.written = s := by
  obtain ⟨later, earlier, whole⟩ := List.append_of_mem among
  have judged := (whole ▸ told.judged : Historic (Judged k s D) (later ++ x :: earlier)).judged
  exact judged.ask n state answer asked

/-- A call reports a decisive outcome by the time that is up. -/
theorem decisive_by {c : Call} (kept : e.Kept .ahead k c) (told : e.board.Chronicled k s D)
    (order : e.board.Chronological) {t : Instant} {r : Report} (tells : e.Tells k t r)
    (decides : r.outcome.decides = true) : t.nanos ≤ (s.due D).nanos := by
  cases outcome : r.outcome with
  | success => exact Int.le_of_lt (ended_of_tells told tells (.inl outcome)).2.1
  | failure => exact Int.le_of_lt (ended_of_tells told tells (.inr outcome)).2.1
  | timeout =>
      obtain ⟨due, _⟩ := timedOut_of_tells kept told order tells outcome
      exact due ▸ Int.le_refl _
  | _ => simp [outcome, Outcome.decides, Outcome.isExecutionError] at decides

/-- Who has reported was made. -/
theorem Orderly.exists_of_reported (orderly : e.Orderly) {t : Instant} {r : Report}
    (told : ⟨t, .recorded n (some k) r⟩ ∈ e.board.journal) : ∃ c, e.call? k = some c := by
  cases here : e.call? k with
  | some c => exact ⟨c, rfl⟩
  | none =>
      have reported : .reported r ∈ (e.tale k).beats := Tale.reported_of_told told
      simp [orderly.blank k here] at reported

/-- Whom a half-open circuit has let through was a probe, or was let through before the circuit
opened. -/
theorem Overseen.probed_or_before (overseen : e.Overseen k.command)
    (used : e.desks.get? k.command = some desk) {journal : List Note}
    (past : journal <:+ e.board.journal) (half : stateTold k.command journal = .halfOpen)
    (entered : LetThrough k journal) : Probed k.command k journal ∨ ∃ t state,
      ⟨t, .asked k.command (some k) state true⟩ ∈ Board.beforeOpened k.command journal := by
  obtain ⟨_, _, deciding⟩ := overseen.deciding desk.settings (by simp [settings?, used])
  obtain ⟨t, state, asked⟩ := entered
  rw [← Board.sinceOpened_append_beforeOpened k.command journal] at asked
  rcases List.mem_append.mp asked with since | before
  · have unclosed := Circuit.unclosed_of_asked (deciding.probing.judged.earlier past)
      (deciding.warranted.earlier past) half since rfl
    exact .inl ⟨_, since, Entry.isProbe_iff.mpr ⟨_, _, unclosed, rfl⟩, rfl⟩
  · exact .inr ⟨t, state, before⟩

/-- A report that decided a half-open circuit came from a call that the circuit had let through,
and from a probe unless calls from before it opened may have been under way. -/
theorem ReachedPromptly.decides (reached : e.ReachedPromptly)
    (used : e.desks.get? n = some desk) {t opened : Instant} {r : Report} {shift : Shift}
    {rest : List Note} (known : ⟨t, .recorded n (some k) r⟩ :: rest <:+ e.board.journal)
    (half : stateTold n rest = .halfOpen) (opening : openedTold? n rest = some opened)
    (slept : (opened.later desk.settings.sleepWindow).nanos ≤ t.nanos)
    (outcome : shift = .recovered ∧ r.outcome = .success ∨
      shift = .relapsed r.outcome ∧ (r.outcome = .failure ∨ r.outcome = .timeout)) :
    Decides n desk.settings k r shift rest := by
  have overseen := reached.overseen n
  have order := reached.chronological
  have grown : rest <:+ e.board.journal := (List.suffix_cons _ _).trans known
  have tells : ⟨t, .recorded n (some k) r⟩ ∈ e.board.journal := known.subset List.mem_cons_self
  obtain ⟨c, here⟩ := reached.ordered.orderly.exists_of_reported tells
  have kept := reached.ordered.kept k c (by simp) here
  have decides : r.outcome.decides = true := by
    rcases outcome with ⟨_, same⟩ | ⟨_, same | same⟩ <;> rw [same] <;> rfl
  have entitled : (Entry.recorded n (some k) r).Entitled rest :=
    (overseen.entitled.earlier known).1
  obtain ⟨rfl, entered⟩ := entitled.report n k r rfl
  have first : ¬ Heard k.command k rest := by
    intro heard
    have late := kept.resolution.fallback_of_later (Tale.later_of_heard heard known)
    rcases outcome with ⟨_, same⟩ | ⟨_, same | same⟩ <;> simp [same, Outcome.isPrimary] at late
  have timing := overseen.probed_or_before used grown half (entered decides)
  refine ⟨rfl, outcome, entered decides, first, fun settled => ?_, fun patient => ?_⟩
  · refine timing.resolve_right ?_
    rintro ⟨t', state, before⟩
    exact first (settled _ before k (Entry.admits_iff.mpr ⟨_, _, rfl⟩) rfl)
  · -- Its time was up before the circuit let anybody through again.
    refine timing.resolve_right ?_
    rintro ⟨t', state, before⟩
    obtain ⟨told, _⟩ := (reached.timely k).within here used
    have asked := (List.dropWhile_sublist _).subset before
    have issued : t' = c.start := asked_at told (grown.subset asked) rfl
    have early : t'.nanos ≤ opened.nanos :=
      Board.written_le_of_mem_beforeOpened (order.sorted.sublist grown.sublist) opening before
    rw [issued] at early
    have late := decisive_by kept told order tells decides
    have up := Instant.due_lt c.start desk.settings.timeout
    simp only [Instant.later] at slept up
    omega

/-- Where everything happens at its time, and unless somebody reports for no call or forces the
circuit, the calls that a circuit let through decide it, and only probes if no others can be
under way. -/
theorem ReachedPromptly.probesDecide (reached : e.ReachedPromptly)
    (used : e.desks.get? n = some desk)
    (undirected : ∀ x ∈ e.board.journal, x.entry.isDirect n = false) :
    e.ProbesDecide n desk.settings := by
  have overseen := reached.overseen n
  obtain ⟨c, found, deciding⟩ := overseen.deciding desk.settings (by simp [settings?, used])
  constructor
  case told => simp [found, deciding.probing.state]
  case decided =>
    intro later t shift earlier whole half
    have warranted := (whole ▸ deciding.warranted :
      Historic (Circuit.Warranted n _) (later ++ _ :: earlier)).judged
    have shifting := warranted shift (by simp [Entry.shift?])
    have unforced := undirected ⟨t, .remark n (.told (.shifted shift))⟩ (by simp [whole])
    obtain ⟨caller, r, rest, opened, rfl, still, opening, slept, outcome⟩ :=
      shifting.decision half unforced
    have known : ⟨t, .recorded n caller r⟩ :: rest <:+ e.board.journal :=
      ⟨later ++ [⟨t, .remark n (.told (.shifted shift))⟩], by simp [whole]⟩
    cases caller with
    | none =>
        have direct := undirected ⟨t, .recorded n none r⟩ (known.subset List.mem_cons_self)
        simp [Entry.isDirect] at direct
    | some k => exact ⟨k, r, rest, rfl, reached.decides used known still opening slept outcome⟩

/-- A call that was let through before the circuit opened goes on while others fail, and ends
while the probe is under way: the circuit recovers, although the probe has not reported. -/
theorem probesDecide_of_straggler :
    let terms : Overrides :=
      { timeout := some (.ofMillis 5000), volumeThreshold := some 2,
        sleepWindow := some (.ofMillis 50) }
    let e := (build {} [("svc", terms)] {}).run [
      .call ⟨"old", "svc", .manual, none, .detached⟩,
      .call ⟨"one", "svc", .fail (.plain ⟨"", []⟩), none, .detached⟩,
      .call ⟨"two", "svc", .fail (.plain ⟨"", []⟩), none, .detached⟩,
      .call ⟨"away", "svc", .succeed, none, .detached⟩,
      .advance (.ofMillis 50),
      .call ⟨"probe", "svc", .manual, none, .detached⟩,
      .finish "old" .succeed]
    let rest := e.board.journal.drop 3
    e.ReachedPromptly ∧ (∀ x ∈ e.board.journal, x.entry.isDirect "svc" = false) ∧
      (∃ s, e.settings? "svc" = some s ∧ e.ProbesDecide "svc" s) ∧
      (e.board.journal[1]?).map (·.entry) = some (.remark "svc" (.told (.shifted .recovered))) ∧
      (e.board.journal[2]?).map (·.entry) =
        some (.recorded "svc" (some ⟨"svc", 0⟩) ⟨.success, .origin, .ofMillis 50⟩) ∧
      stateTold "svc" rest = .halfOpen ∧ Probed "svc" ⟨"svc", 4⟩ rest ∧
      ¬ Probed "svc" ⟨"svc", 0⟩ rest := by
  intro terms e rest
  have reached : e.ReachedPromptly := reachedPromptly_run {} _ {} (by decide +kernel)
  have undirected : ∀ x ∈ e.board.journal, x.entry.isDirect "svc" = false := by decide +kernel
  have made : (e.desks.get? "svc").isSome = true := by decide +kernel
  obtain ⟨desk, used⟩ := Option.isSome_iff_exists.mp made
  refine ⟨reached, undirected, ⟨desk.settings, ?_, reached.probesDecide used undirected⟩, ?_⟩
  · simp only [settings?, used, Option.map_some]
  · decide +kernel

end Engine

end Bulwark
