import Bulwark.Proofs.Echoes
import Bulwark.Proofs.Trips

/-!
How a circuit that opened closes again.

Unless it is forced closed, a circuit that opened closes on a success that was reported
while it was half-open, and half-open it became because a request was let through after
its sleep window had passed. Reopenings only start the wait again, so this holds of every
opening before, however much happened in between.

* `Circuit.recovering`: the journal tells of the probe (`Board.ProbedSince`) as long as the
  circuit is half-open, and whenever it recovered.
* `Board.recoveryEarned`: an outage lasts a sleep window at least, and ends with a probe
  and a success.
-/

namespace Bulwark

def Custom.unforcing : Custom where
  request r := r ≠ .forceClosed
  label _ _ := True
  mute _ := True

namespace Board

abbrev InOrder (journal : List Note) : Prop :=
  journal.Pairwise fun x y => y.written.nanos ≤ x.written.nanos

/-- A request was let through since the circuit of a command last opened, a sleep window
or more after it did. -/
def ProbedSince (n : Name) (sleep : Duration) (journal : List Note) : Prop :=
  ∃ t, openedTold? n journal = some t ∧ ∃ x ∈ sinceOpened n journal, x.entry.admits n = true ∧
    (t.later sleep).nanos ≤ x.written.nanos

section ProbedSince

variable {n : Name} {sleep : Duration} {journal between earlier : List Note} {x opening : Note}

theorem sinceOpened_of_unopened (unopened : x.entry.opens n = false) :
    sinceOpened n (x :: journal) = x :: sinceOpened n journal := by
  simp [sinceOpened, unopened]

/-- A probe since the circuit last opened stays one until it opens again. -/
theorem ProbedSince.later (probed : ProbedSince n sleep journal)
    (unopened : x.entry.opens n = false) : ProbedSince n sleep (x :: journal) := by
  obtain ⟨t, opened, probe, since, admits, late⟩ := probed
  refine ⟨t, (openedTold?_of_unopened unopened).trans opened, probe, ?_, admits, late⟩
  rw [sinceOpened_of_unopened unopened]
  exact List.mem_cons_of_mem _ since

/-- What is told since the circuit last opened is told after any opening. -/
theorem mem_of_mem_sinceOpened (opens : opening.entry.opens n = true)
    (since : x ∈ sinceOpened n (between ++ opening :: earlier)) : x ∈ between := by
  induction between with
  | nil => simp [sinceOpened, opens] at since
  | cons y rest ih =>
      cases unopened : y.entry.opens n with
      | true => simp [sinceOpened, unopened] at since
      | false =>
          rw [List.cons_append, sinceOpened_of_unopened unopened] at since
          rcases List.mem_cons.mp since with rfl | since
          · exact List.mem_cons_self
          · exact List.mem_cons_of_mem _ (ih since)

/-- The last opening is no earlier than any other. -/
theorem opening_le_openedTold
    (sorted : InOrder (between ++ opening :: earlier))
    (opens : opening.entry.opens n = true) {t : Instant}
    (opened : openedTold? n (between ++ opening :: earlier) = some t) :
    opening.written.nanos ≤ t.nanos := by
  obtain ⟨last, found, rfl⟩ := Option.map_eq_some_iff.mp opened
  have first : (opening :: earlier).find? (·.entry.opens n) = some opening :=
    List.find?_cons_of_pos opens
  rw [List.find?_append, first] at found
  cases reopened : between.find? (·.entry.opens n) with
  | none =>
      rw [reopened] at found
      obtain rfl := Option.some.inj found
      exact Int.le_refl _
  | some again =>
      rw [reopened] at found
      obtain rfl := Option.some.inj found
      have among := List.mem_of_find?_eq_some reopened
      exact (List.pairwise_append.mp sorted).2.2 again among opening List.mem_cons_self

/-- A probe that came after the last opening came a sleep window after any opening. -/
theorem ProbedSince.apart (probed : ProbedSince n sleep (between ++ opening :: earlier))
    (sorted : InOrder (between ++ opening :: earlier))
    (opens : opening.entry.opens n = true) :
    ∃ x ∈ between, x.entry.admits n = true ∧
      (opening.written.later sleep).nanos ≤ x.written.nanos := by
  obtain ⟨t, opened, x, since, admits, late⟩ := probed
  have before := opening_le_openedTold sorted opens opened
  refine ⟨x, mem_of_mem_sinceOpened opens since, admits, ?_⟩
  simp only [Instant.later] at late ⊢
  omega

/-- If nobody asks for it, nothing tells that the circuit was forced closed. -/
theorem Echoes.unforced {custom : Custom} {due : Option Shift} {open_ : List Report}
    (echoes : Echoes n custom [] due open_ journal) (unasked : ¬ custom.request .forceClosed) :
    ∀ x ∈ journal, x.entry.shift? n ≠ some .forcedClosed := by
  induction echoes with
  | nil => simp
  | asked _ ih | rearmed _ ih | action _ _ ih | recorded _ _ ih | reported _ _ ih
  | entered _ _ ih =>
      exact List.forall_mem_cons.mpr ⟨by simp [Entry.shift?], ih⟩
  | shifted _ _ forced ih =>
      refine List.forall_mem_cons.mpr ⟨fun told => ?_, ih⟩
      simp only [Entry.shift?, if_true, Option.some.injEq] at told
      exact unasked (forced told)
  | unreported _ _ ih | unentered _ _ ih => exact ih

end ProbedSince

end Board

namespace Circuit

open Board (stateTold openedTold? sinceOpened InOrder ProbedSince)

variable {n : Name} {sleep : Duration} {c : Circuit} {now : Instant} {d : Deed}
  {journal : List Note}

/-- A circuit that is half-open has let a probe through, and so it had whenever it
recovered. -/
structure Recovering (n : Name) (sleep : Duration) (c : Circuit) (now : Instant)
    (journal : List Note) : Prop where
  deciding : Deciding n sleep c now journal
  sorted : InOrder journal
  probed : c.state = .halfOpen → ProbedSince n sleep journal
  recovered : Historic
    (fun x earlier => x.entry.shift? n = some .recovered → ProbedSince n sleep earlier) journal

/-- What is told of a deed itself keeps the probe told. -/
theorem probed_own (probed : ProbedSince n sleep journal) (d : Deed) :
    ProbedSince n sleep ((d.writes? n c now).toList.map (Note.mk now) ++ journal) := by
  cases told : d.writes? n c now with
  | none => exact probed
  | some x => exact probed.later (opens_of_writes? told)

section Recovering

variable (recovering : Recovering n sleep c now journal)

include recovering

theorem Recovering.sorted_entries (entries : List Entry) :
    InOrder (entries.map (Note.mk now) ++ journal) := by
  have past := recovering.deciding.probing.past
  induction entries with
  | nil => exact recovering.sorted
  | cons x rest ih =>
      refine List.pairwise_cons.mpr ⟨fun y among => ?_, ih⟩
      exact recovering.deciding.probing.past_entries rest y among

/-- A deed tells of a recovery only if a request was let through since the circuit opened. -/
theorem Recovering.recovered_entries (d : Deed) :
    Historic (fun x earlier => x.entry.shift? n = some .recovered → ProbedSince n sleep earlier)
      ((d.entries n c now).map (Note.mk now) ++ journal) := by
  have own : Historic
      (fun x earlier => x.entry.shift? n = some .recovered → ProbedSince n sleep earlier)
      ((d.writes? n c now).toList.map (Note.mk now) ++ journal) := by
    cases told : d.writes? n c now with
    | none => exact recovering.recovered
    | some x =>
        refine ⟨fun changed => ?_, recovering.recovered⟩
        rw [shift?_of_writes? told] at changed
        cases changed
  rw [Deed.entries, List.map_append, List.append_assoc]
  rcases news : (c.undergo now d).news with _ | ⟨shift⟩ | _
  · exact own
  · refine ⟨fun changed => ?_, own⟩
    obtain rfl : shift = .recovered := by simpa [Entry.shift?] using changed
    -- Only a circuit that is half-open recovers.
    rcases change_cases news with ⟨_, _, _, other⟩ | ⟨_, other⟩ | (⟨_, _, other⟩ | ⟨_, _, other⟩) |
      ⟨half, _⟩
    case inr.inr.inr => exact probed_own (recovering.probed half) d
    all_goals cases other
  · exact ⟨fun changed => by simp [Entry.shift?] at changed, own⟩

/-- The request that makes a circuit half-open, or keeps it so, is the probe. -/
theorem Recovering.probed_ask (caller : Option CallKey) (unclosed : c.state ≠ .closed)
    (answer : (c.allow now).answer = true) :
    ProbedSince n sleep (⟨now, .asked n caller c.state true⟩ :: journal) := by
  cases state : c.state with
  | closed => exact absurd state unclosed
  | opened =>
      rw [answer_of_unclosed unclosed] at answer
      have rested := (isRested_iff recovering.deciding.probing).mp answer
      have opened := recovering.deciding.opened state
      refine ⟨c.since, (Board.openedTold?_of_unopened rfl).trans opened, ?_⟩
      refine ⟨⟨now, .asked n caller .opened true⟩, ?_, Entry.admits_iff.mpr ⟨_, _, rfl⟩, rested⟩
      rw [Board.sinceOpened_of_unopened rfl]
      exact List.mem_cons_self
  | halfOpen => exact (recovering.probed state).later rfl

/-- A circuit that is half-open after a deed has let a request through since it opened. -/
theorem Recovering.probed_undergo (d : Deed) (half : (c.undergo now d).circuit.state = .halfOpen) :
    ProbedSince n sleep ((d.entries n c now).map (Note.mk now) ++ journal) := by
  rw [Deed.entries, List.map_append, List.append_assoc]
  cases c.turn now d with
  | rest state since silent _ =>
      rw [state] at half
      rw [silent]
      exact probed_own (recovering.probed half) d
  | shift shift settled state _ _ _ => exact absurd (state.symm.trans half) settled
  | probe caller asks unclosed answer _ _ news =>
      subst asks
      have asked := recovering.probed_ask caller unclosed answer
      rw [Deed.writes?, answer]
      simp only [undergo, news]
      split
      · exact asked.later (by simp [Entry.opens, Entry.shift?, Shift.target])
      · exact asked.later rfl

/-- Whatever is done to a circuit, the journal tells of the probe. -/
theorem Recovering.undergo (d : Deed) :
    Recovering n sleep (c.undergo now d).circuit now
      ((d.entries n c now).map (Note.mk now) ++ journal) where
  deciding := recovering.deciding.undergo d
  sorted := recovering.sorted_entries (d.entries n c now)
  probed := recovering.probed_undergo d
  recovered := recovering.recovered_entries d

theorem Recovering.aside {x : Entry} (aside : x.circuit? ≠ some n) :
    Recovering n sleep c now (⟨now, x⟩ :: journal) where
  deciding := recovering.deciding.aside aside
  sorted := recovering.sorted_entries [x]
  probed half := (recovering.probed half).later (by simp [Entry.opens, Entry.shift?_of_aside aside])
  recovered := by
    refine ⟨fun changed => ?_, recovering.recovered⟩
    rw [Entry.shift?_of_aside aside] at changed
    cases changed

end Recovering

/-- Whatever happens, the journal tells how a circuit recovered. -/
theorem recovering (n : Name) (sleep : Duration) : Invariant n (Recovering n sleep) where
  aside _ _ _ _ aside recovering := recovering.aside aside
  deed _ _ _ d recovering := recovering.undergo d
  pass _ _ _ d recovering :=
    { recovering with deciding := (deciding n sleep).pass _ _ _ d recovering.deciding }

theorem recovering_make (n : Name) (s : Settings) (now : Instant) :
    Recovering n s.sleepWindow (make s now) now [] where
  deciding := deciding_make n s now (by simp) (by simp)
  sorted := .nil
  probed half := by cases half
  recovered := trivial

end Circuit

namespace Board

/-- An outage takes a sleep window, a probe and a success to end. -/
structure RecoveryEarned (n : Name) (sleep : Duration) (hooks : Hooks) (moves : List Move)
    (b : Board) : Prop where
  /-- The journal tells how the circuit stands. -/
  told : ∃ c, b.circuits.get? n = some c ∧ c.state = stateTold n b.journal
  /-- Between an opening and a later closing that is not forced a sleep window passed or
  more, and then a request was let through. -/
  cooled : ∀ later between earlier opening closing,
    b.journal = later ++ closing :: (between ++ opening :: earlier) →
      opening.entry.opens n = true → closing.entry.closes n = true →
      closing.entry.shift? n ≠ some .forcedClosed →
        (sleep.nanos : Int) ≤ closing.written.nanos - opening.written.nanos ∧
        ∃ probe ∈ between, probe.entry.admits n = true ∧
          (sleep.nanos : Int) ≤ probe.written.nanos - opening.written.nanos ∧
          probe.written.nanos ≤ closing.written.nanos
  /-- A closing that is not forced comes at the report of a success to the half-open
  circuit, at the same instant. -/
  caused : ∀ later earlier closing, b.journal = later ++ closing :: earlier →
    closing.entry.closes n = true → closing.entry.shift? n ≠ some .forcedClosed →
      ∃ caller r rest, earlier = ⟨closing.written, .recorded n caller r⟩ :: rest ∧
        r.outcome = .success ∧ stateTold n rest = .halfOpen
  /-- No closing is forced if nobody asks for it. -/
  unforced : hooks.Keep .unforcing → (∀ m ∈ moves, m.Keeps .unforcing) →
    ∀ x ∈ b.journal, x.entry.shift? n ≠ some .forcedClosed

/-- A circuit that closes otherwise than by force has recovered. -/
theorem recovered_of_closes {n : Name} {x : Entry} (closes : x.closes n = true)
    (unforced : x.shift? n ≠ some .forcedClosed) : x.shift? n = some .recovered := by
  obtain ⟨shift, told, closed⟩ := Option.map_eq_some_iff.mp (of_decide_eq_true closes)
  cases shift with
  | recovered => exact told
  | forcedClosed => exact absurd told unforced
  | tripped | forcedOpen | probing | relapsed => cases closed

/-- Whatever is done to a circuit, and whatever hooks do in answer, it recovers by a
probe and a success after its sleep window. -/
theorem recoveryEarned (n : Name) (s : Settings) (hooks : Hooks) (start : Instant) (level : Nat)
    (moves : List Move) :
    ((fresh n s hooks start).runAt level moves).RecoveryEarned n s.sleepWindow hooks moves := by
  have before : Circuit.Invariant.On n (Circuit.Recovering n s.sleepWindow)
      (fresh n s hooks start) :=
    ⟨_, Roster.get?_put_self _ _ _, Circuit.recovering_make n s start⟩
  obtain ⟨c, found, recovering⟩ := (Circuit.recovering n s.sleepWindow).runAt before level moves
  constructor
  case told => exact ⟨c, found, recovering.deciding.probing.state⟩
  case cooled =>
    intro later between earlier opening closing split opens closes unforced
    have history := recovering.recovered
    have sorted := recovering.sorted
    rw [split] at history sorted
    obtain ⟨_, inner, _⟩ := List.pairwise_append.mp sorted
    obtain ⟨latest, inner⟩ := List.pairwise_cons.mp inner
    have probed := history.judged (recovered_of_closes closes unforced)
    -- The probe came a sleep window after the last opening, and this one is no later.
    obtain ⟨probe, among, admits, late⟩ := probed.apart inner opens
    have last := latest probe (List.mem_append_left _ among)
    simp only [Instant.later] at late
    exact ⟨by omega, probe, among, admits, by omega, last⟩
  case caused =>
    intro later earlier closing split closes unforced
    have warranted := recovering.deciding.warranted
    rw [split] at warranted
    have shifting := warranted.judged _ (recovered_of_closes closes unforced)
    cases shifting with
    | decided since half _ _ cause =>
        rcases cause with ⟨_, success⟩ | ⟨other, _⟩
        · exact ⟨_, _, _, since, success, half⟩
        · cases other
  case unforced =>
    intro keep keeps
    exact (echoes_runAt n s keep start level keeps).unforced fun asked => asked rfl

end Board

end Bulwark
