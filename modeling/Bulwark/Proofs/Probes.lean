import Bulwark.Proofs.Trail

/-!
How often a circuit that is not closed lets a request through.

The journal tells of every change of a circuit and of every request that asked it,
so the state of the circuit (`Board.stateTold`) and the time it has been resting
since (`Board.restingSince?`) can be read off the journal. The rest begins when the
circuit opens, and again whenever a probe is let through.

* `Circuit.turn`: what a deed can do to the state and the time of a circuit.
* `Circuit.probing`: both are what the journal tells, whatever is done to the circuit.
* `Board.admits_of_probing`: how a request is answered, and what the journal tells of it.
* `Board.probesSpaced`: a circuit that is not closed lets a request through just when
  its sleep window has passed since the rest began.
-/

namespace Bulwark

namespace Entry

def shift? (n : Name) : Entry → Option Shift
  | .remark m (.told (.shifted shift)) => if m = n then some shift else none
  | _ => none

/-- A request was let through by the circuit of a command. -/
def admits (n : Name) : Entry → Bool
  | .asked m _ _ answer => decide (m = n) && answer
  | _ => false

/-- A request was let through by the circuit of a command although that was not
closed. -/
def isProbe (n : Name) : Entry → Bool
  | .asked m _ state answer => decide (m = n ∧ state ≠ .closed) && answer
  | _ => false

/-- The circuit of a command opened, or let a probe through. -/
def startsRest (n : Name) (x : Entry) : Bool :=
  x.isProbe n || decide ((x.shift? n).map (·.target) = some .opened)

/-- A note admits for a command exactly when it tells of a question that was answered with yes. -/
theorem admits_iff {n : Name} {x : Entry} :
    x.admits n = true ↔ ∃ caller state, x = .asked n caller state true := by
  constructor
  · intro admitted
    cases x <;> simp only [admits, Bool.false_eq_true, Bool.and_eq_true, decide_eq_true_eq]
      at admitted
    obtain ⟨rfl, rfl⟩ := admitted
    exact ⟨_, _, rfl⟩
  · rintro ⟨caller, state, rfl⟩
    simp [admits]

theorem isProbe_iff {n : Name} {x : Entry} :
    x.isProbe n = true ↔ ∃ caller state, state ≠ .closed ∧ x = .asked n caller state true := by
  constructor
  · intro probe
    cases x <;> simp only [isProbe, Bool.false_eq_true, Bool.and_eq_true, decide_eq_true_eq]
      at probe
    obtain ⟨⟨rfl, unclosed⟩, rfl⟩ := probe
    exact ⟨_, _, unclosed, rfl⟩
  · rintro ⟨caller, state, unclosed, rfl⟩
    simp [isProbe, unclosed]

variable {n : Name} {x : Entry}

/-- What does not concern the circuit of a command does not change what is told of it. -/
theorem shift?_of_aside (aside : x.circuit? ≠ some n) : x.shift? n = none := by
  unfold shift?
  split
  · next m shift => exact if_neg fun same => aside (by rw [circuit?, same])
  · rfl

/-- A note about another circuit starts no rest. -/
theorem startsRest_of_aside (aside : x.circuit? ≠ some n) : x.startsRest n = false := by
  have unprobed : x.isProbe n = false := by
    refine eq_false_of_ne_true fun probe => ?_
    obtain ⟨_, _, _, rfl⟩ := isProbe_iff.mp probe
    exact aside rfl
  simp [startsRest, unprobed, shift?_of_aside aside]

end Entry

namespace Board

/-- The state of a circuit, as the last change in a journal tells it. -/
def stateTold (n : Name) (journal : List Note) : State :=
  ((journal.findSome? (·.entry.shift? n)).map (·.target)).getD .closed

/-- When a circuit last opened or let a probe through, as a journal tells it. -/
def restingSince? (n : Name) (journal : List Note) : Option Instant :=
  (journal.find? (·.entry.startsRest n)).map (·.written)

variable {n : Name} {now : Instant} {journal : List Note}

/-- A note that tells of no change leaves the state that the journal tells of. -/
theorem stateTold_of_unshifted {x : Note} (untold : x.entry.shift? n = none) :
    stateTold n (x :: journal) = stateTold n journal := by
  simp [stateTold, untold]

/-- The rest that is told of several entries of one instant. -/
theorem restingSince?_append (n : Name) (now : Instant) (entries : List Entry)
    (journal : List Note) :
    restingSince? n (entries.map (Note.mk now) ++ journal) =
      if entries.any (·.startsRest n) then some now else restingSince? n journal := by
  induction entries with
  | nil => rfl
  | cons x rest ih =>
      by_cases starts : x.startsRest n = true
      · simp [restingSince?, starts]
      · rw [List.any_cons, eq_false_of_ne_true starts, Bool.false_or, ← ih]
        simp [restingSince?, starts]

end Board

namespace Circuit

open Board (stateTold restingSince?)

variable {n : Name} {c : Circuit} {now : Instant} {d : Deed}

/-! ### What a deed does to the state -/

/-- What a deed can do to the state of a circuit and to the time it remembers. -/
inductive Turn (c : Circuit) (now : Instant) (d : Deed) : Prop where
  /-- Nothing, and no request was let through unless the circuit is closed. -/
  | rest : (c.undergo now d).circuit.state = c.state → (c.undergo now d).circuit.since = c.since →
      (c.undergo now d).news = none →
      (∀ caller, d = .ask caller → c.state ≠ .closed → (c.allow now).answer = false) → Turn c now d
  /-- The circuit opens or closes, and no request was let through. -/
  | shift (shift : Shift) : shift.target ≠ .halfOpen →
      (c.undergo now d).circuit.state = shift.target → (c.undergo now d).circuit.since = now →
      (c.undergo now d).news = some (.shifted shift) →
      (∀ caller, d = .ask caller → (c.allow now).answer = false) → Turn c now d
  /-- A probe is let through. -/
  | probe (caller : Option CallKey) : d = .ask caller → c.state ≠ .closed →
      (c.allow now).answer = true → (c.allow now).circuit.state = .halfOpen →
      (c.allow now).circuit.since = now →
      (c.allow now).news = (if c.state = .opened then some (.shifted .probing) else some .rearmed) →
      Turn c now d

def pruned (c : Circuit) (now : Instant) : Circuit := { c with window := c.window.prune now }

def trip (c : Circuit) (now : Instant) : Shift :=
  .tripped (c.window.tally now).errorPct (c.window.tally now).requests

/-- An ill circuit trips on examination. -/
theorem examine_of_unhealthy (ill : c.isUnhealthy (c.window.tally now) = true) :
    c.examine now =
      ⟨(c.pruned now).enter (c.trip now) now, true, some (.shifted (c.trip now))⟩ := by
  simp only [examine, ill, if_true]
  rfl

/-- A healthy circuit is only pruned by examination. -/
theorem examine_of_healthy (well : ¬ c.isUnhealthy (c.window.tally now) = true) :
    c.examine now = ⟨c.pruned now, false, none⟩ := by
  simp only [examine, well]
  rfl

/-- A question leaves the state alone, opens the circuit, or is let through as a probe. -/
theorem turn_ask (c : Circuit) (now : Instant) (caller : Option CallKey) :
    Turn c now (.ask caller) := by
  cases state : c.state with
  | closed =>
      have asked : c.allow now = { c.examine now with answer := !(c.examine now).answer } := by
        simp only [allow, state]
      by_cases ill : c.isUnhealthy (c.window.tally now) = true
      · rw [examine_of_unhealthy ill] at asked
        exact .shift (c.trip now) (by simp [trip, Shift.target]) (by rw [undergo, asked]; rfl)
          (by rw [undergo, asked]; rfl) (by rw [undergo, asked]) (fun _ _ => by rw [asked]; rfl)
      · rw [examine_of_healthy ill] at asked
        exact .rest (by rw [undergo, asked]; rfl) (by rw [undergo, asked]; rfl)
          (by rw [undergo, asked]) (fun _ _ unclosed => absurd state unclosed)
  | opened =>
      by_cases rested : c.isRested now = true
      · have asked : c.allow now = ⟨c.enter .probing now, true, some (.shifted .probing)⟩ := by
          simp only [allow, state, rested, if_true]
        exact .probe caller rfl (by simp [state]) (by rw [asked]) (by rw [asked]; rfl)
          (by rw [asked]; rfl) (by simp [asked, state])
      · have asked : c.allow now = ⟨c, false, none⟩ := by
          simp only [allow, state, rested, if_false, Bool.false_eq_true]
        exact .rest (by rw [undergo, asked]) (by rw [undergo, asked]) (by rw [undergo, asked])
          (fun _ _ _ => by rw [asked])
  | halfOpen =>
      by_cases rested : c.isRested now = true
      · have asked : c.allow now = ⟨{ c with since := now }, true, some .rearmed⟩ := by
          simp only [allow, state, rested, if_true]
        exact .probe caller rfl (by simp [state]) (by rw [asked]) (by rw [asked]; exact state)
          (by rw [asked]) (by simp [asked, state])
      · have asked : c.allow now = ⟨c, false, none⟩ := by
          simp only [allow, state, rested, if_false, Bool.false_eq_true]
        exact .rest (by rw [undergo, asked]) (by rw [undergo, asked]) (by rw [undergo, asked])
          (fun _ _ _ => by rw [asked])

/-- Nothing happens to the state at a deed that asks for nothing and tells no news. -/
theorem Turn.of_still (unasked : ∀ caller, d ≠ .ask caller)
    (state : (c.undergo now d).circuit.state = c.state)
    (since : (c.undergo now d).circuit.since = c.since) (silent : (c.undergo now d).news = none) :
    Turn c now d := .rest state since silent fun caller asks => absurd asks (unasked caller)

/-- The circuit opens or closes at a deed that asks for nothing. -/
theorem Turn.of_shift (shift : Shift) (unasked : ∀ caller, d ≠ .ask caller)
    (settled : shift.target ≠ .halfOpen) (state : (c.undergo now d).circuit.state = shift.target)
    (since : (c.undergo now d).circuit.since = now)
    (told : (c.undergo now d).news = some (.shifted shift)) : Turn c now d :=
  .shift shift settled state since told fun caller asks => absurd asks (unasked caller)

theorem turn_look (c : Circuit) (now : Instant) : Turn c now .look := by
  cases state : c.state with
  | closed =>
      have looked : c.undergo now .look = c.examine now := by simp only [undergo, isOpen, state]
      by_cases ill : c.isUnhealthy (c.window.tally now) = true
      · rw [examine_of_unhealthy ill] at looked
        exact .of_shift (c.trip now) (by simp) (by simp [trip, Shift.target]) (by rw [looked]; rfl)
          (by rw [looked]; rfl) (by rw [looked])
      · rw [examine_of_healthy ill] at looked
        exact .of_still (by simp) (by rw [looked]; rfl) (by rw [looked]; rfl) (by rw [looked])
  | opened | halfOpen =>
      have looked : c.undergo now .look = ⟨c, true, none⟩ := by
        simp only [undergo, isOpen, state]
      exact .of_still (by simp) (by rw [looked]) (by rw [looked]) (by rw [looked])

theorem turn_forceOpen (c : Circuit) (now : Instant) : Turn c now .forceOpen := by
  cases state : c.state with
  | opened =>
      have same : c.undergo now .forceOpen = ⟨c, false, none⟩ := by
        simp only [undergo, forceOpen, state]
      exact .of_still (by simp) (by rw [same]) (by rw [same]) (by rw [same])
  | closed | halfOpen =>
      exact .of_shift (.forcedOpen c.state) (by simp) (by simp [Shift.target])
        (by simp [undergo, forceOpen, state, enter, Shift.target])
        (by simp [undergo, forceOpen, state, enter]) (by simp [undergo, forceOpen, state])

theorem turn_forceClosed (c : Circuit) (now : Instant) : Turn c now .forceClosed := by
  cases state : c.state with
  | closed =>
      have same : c.undergo now .forceClosed = ⟨c, false, none⟩ := by
        simp only [undergo, forceClosed, state]
      exact .of_still (by simp) (by rw [same]) (by rw [same]) (by rw [same])
  | opened | halfOpen =>
      exact .of_shift .forcedClosed (by simp) (by decide)
        (by simp [undergo, forceClosed, state, enter])
        (by simp [undergo, forceClosed, state, enter]) (by simp [undergo, forceClosed, state])

/-- A report moves a half-open circuit only: success closes it, an execution error opens it. -/
theorem turn_absorb (c : Circuit) (now : Instant) (caller : Option CallKey) (r : Report) :
    Turn c now (.absorb caller r) := by
  cases state : c.state with
  | closed | opened =>
      exact .of_still (by simp) (by simp [undergo, absorb, state])
        (by simp [undergo, absorb, state]) (by simp [undergo, absorb, state])
  | halfOpen =>
      by_cases success : r.outcome = .success
      · exact .of_shift .recovered (by simp) (by decide)
          (by simp [undergo, absorb, state, success, enter])
          (by simp [undergo, absorb, state, success, enter])
          (by simp [undergo, absorb, state, success])
      · by_cases failure : r.outcome.isExecutionError = true
        · exact .of_shift (.relapsed r.outcome) (by simp) (by simp [Shift.target])
            (by simp [undergo, absorb, state, success, failure, enter])
            (by simp [undergo, absorb, state, success, failure, enter])
            (by simp [undergo, absorb, state, success, failure])
        · exact .of_still (by simp) (by simp [undergo, absorb, state, success, failure])
            (by simp [undergo, absorb, state, success, failure])
            (by simp [undergo, absorb, state, success, failure])

/-- Whatever is done to a circuit, this becomes of its state. -/
theorem turn (c : Circuit) (now : Instant) (d : Deed) : Turn c now d := by
  cases d with
  | ask caller => exact c.turn_ask now caller
  | look => exact c.turn_look now
  | read => exact .of_still (by simp) rfl rfl rfl
  | forceOpen => exact c.turn_forceOpen now
  | forceClosed => exact c.turn_forceClosed now
  | absorb caller r => exact c.turn_absorb now caller r

/-- A circuit that is not closed lets a request through just when it has rested. -/
theorem answer_of_unclosed (unclosed : c.state ≠ .closed) (now : Instant) :
    (c.allow now).answer = c.isRested now := by
  cases state : c.state with
  | closed => exact absurd state unclosed
  | opened | halfOpen =>
      simp only [allow, state]
      by_cases rested : c.isRested now = true
      · rw [if_pos rested, rested]
      · rw [if_neg rested, eq_false_of_ne_true rested]

def terms (c : Circuit) : Nat × Nat × Duration :=
  (c.errorThresholdPct, c.volumeThreshold, c.sleepWindow)

/-- Examination leaves the terms of a circuit alone. -/
theorem terms_examine (c : Circuit) (now : Instant) :
    (c.examine now).circuit.terms = c.terms := by
  by_cases ill : c.isUnhealthy (c.window.tally now) = true
  · rw [examine_of_unhealthy ill]
    rfl
  · rw [examine_of_healthy ill]
    rfl

/-- No deed changes what a circuit was made with. -/
theorem terms_undergo (c : Circuit) (now : Instant) (d : Deed) :
    (c.undergo now d).circuit.terms = c.terms := by
  cases d with
  | ask caller =>
      simp only [undergo, allow]
      split
      · exact c.terms_examine now
      · split <;> rfl
      · split <;> rfl
  | look =>
      simp only [undergo, isOpen]
      split
      · exact c.terms_examine now
      · rfl
      · rfl
  | read => rfl
  | forceOpen =>
      simp only [undergo, forceOpen]
      split <;> rfl
  | forceClosed =>
      simp only [undergo, forceClosed]
      split <;> rfl
  | absorb caller r =>
      simp only [undergo, absorb]
      repeat' split
      all_goals rfl

/-! ### What the journal tells of a deed -/

/-- The deed itself is not told as a change. -/
theorem shift?_of_writes? {x : Entry} (own : x ∈ d.writes? n c now) : x.shift? n = none := by
  cases d with
  | ask caller => obtain rfl := Option.some.inj own; rfl
  | absorb caller r => obtain rfl := Option.some.inj own; rfl
  | look | read | forceOpen | forceClosed => simp [Deed.writes?] at own

/-- What a deed itself writes tells of no change, since changes are told by what follows. -/
theorem stateTold_own (n : Name) (c : Circuit) (now : Instant) (d : Deed) (journal : List Note) :
    stateTold n ((d.writes? n c now).toList.map (Note.mk now) ++ journal) =
      stateTold n journal := by
  cases told : d.writes? n c now with
  | none => rfl
  | some x => exact Board.stateTold_of_unshifted (shift?_of_writes? told)

/-- After a deed the journal tells the state that its news tell, if any. -/
theorem stateTold_entries (n : Name) (c : Circuit) (now : Instant) (d : Deed)
    (journal : List Note) :
    stateTold n ((d.entries n c now).map (Note.mk now) ++ journal) =
      match (c.undergo now d).news with
      | some (.shifted shift) => shift.target
      | _ => stateTold n journal := by
  have own := stateTold_own n c now d journal
  rw [Deed.entries, List.map_append, List.append_assoc]
  rcases (c.undergo now d).news with _ | ⟨shift⟩ | _
  · exact own
  · simp [herald, stateTold, Entry.shift?]
  · exact (Board.stateTold_of_unshifted rfl).trans own

/-- Whatever is done to a circuit, the journal tells its state if it did before. -/
theorem state_undergo {journal : List Note} (told : c.state = stateTold n journal) (now : Instant)
    (d : Deed) :
    (c.undergo now d).circuit.state =
      stateTold n ((d.entries n c now).map (Note.mk now) ++ journal) := by
  rw [stateTold_entries]
  cases c.turn now d with
  | rest state since silent refused =>
      rw [silent, state]
      exact told
  | shift shift settled state since news refused => rw [news, state]
  | probe caller asks unclosed answer state since news =>
      subst asks
      simp only [Circuit.undergo, news, state]
      by_cases opened : c.state = .opened
      · rw [if_pos opened]
        rfl
      · rw [if_neg opened, ← told]
        cases half : c.state with
        | closed => exact absurd half unclosed
        | opened => exact absurd half opened
        | halfOpen => rfl

/-- A request that is let through is asked for by the deed. -/
theorem ask_of_admits {x : Entry} (told : x ∈ d.entries n c now) (admits : x.admits n = true) :
    (∃ caller, d = .ask caller) ∧ (c.allow now).answer = true := by
  obtain ⟨caller, state, rfl⟩ := Entry.admits_iff.mp admits
  rcases List.mem_append.mp told with news | own
  · simp [herald] at news
  · cases d with
    | ask asker =>
        have same := Option.some.inj (Option.mem_toList.mp own)
        simp only [Entry.asked.injEq] at same
        exact ⟨⟨asker, rfl⟩, same.2.2.2⟩
    | absorb | look | read | forceOpen | forceClosed => simp [Deed.writes?] at own

/-- A rest starts at a deed that opens the circuit or lets a probe through. -/
theorem any_startsRest_iff : (d.entries n c now).any (·.startsRest n) = true ↔
    (∃ shift, (c.undergo now d).news = some (.shifted shift) ∧ shift.target = .opened) ∨
      (∃ caller, d = .ask caller) ∧ c.state ≠ .closed ∧ (c.allow now).answer = true := by
  rw [Deed.entries, List.any_append, Bool.or_eq_true]
  refine or_congr ?news ?own
  case news =>
    rcases (c.undergo now d).news with _ | ⟨shift⟩ | _ <;>
      simp [herald, Entry.startsRest, Entry.isProbe, Entry.shift?]
  case own =>
    cases d <;> simp [Deed.writes?, Entry.startsRest, Entry.isProbe, Entry.shift?]

/-! ### The journal knows -/

/-- What a journal tells of a request is right: how the circuit stood, and that the
request was let through just when the sleep window had passed. -/
structure Judged (n : Name) (sleep : Duration) (x : Note) (earlier : List Note) : Prop where
  state : ∀ caller state answer, x.entry = .asked n caller state answer →
    state = stateTold n earlier
  answer : ∀ caller state answer, x.entry = .asked n caller state answer → state ≠ .closed →
    ∃ since, restingSince? n earlier = some since ∧
      (answer = true ↔ (since.later sleep).nanos ≤ x.written.nanos)
  spaced : x.entry.isProbe n = true → ∀ y ∈ earlier, y.entry.admits n = true →
    (y.written.later sleep).nanos ≤ x.written.nanos

/-- The state of a circuit and the time it remembers are what the journal tells. -/
structure Probing (n : Name) (sleep : Duration) (c : Circuit) (now : Instant)
    (journal : List Note) : Prop where
  fixed : c.sleepWindow = sleep
  state : c.state = stateTold n journal
  since : c.state ≠ .closed → restingSince? n journal = some c.since
  reached : c.since.nanos ≤ now.nanos
  past : ∀ x ∈ journal, x.written.nanos ≤ now.nanos
  admitted : c.state ≠ .closed → ∀ x ∈ journal, x.entry.admits n = true →
    x.written.nanos ≤ c.since.nanos
  judged : Historic (Judged n sleep) journal

/-- Of an entry that is no request there is nothing to judge. -/
theorem Judged.of_unasked {sleep : Duration} {x : Note} {earlier : List Note}
    (unasked : ∀ caller state answer, x.entry ≠ .asked n caller state answer) :
    Judged n sleep x earlier where
  state caller state answer asked := absurd asked (unasked caller state answer)
  answer caller state answer asked := absurd asked (unasked caller state answer)
  spaced probe := by
    obtain ⟨caller, state, _, asked⟩ := Entry.isProbe_iff.mp probe
    exact absurd asked (unasked caller state true)

section Probing

variable {sleep : Duration} {journal : List Note}

/-- A circuit is rested exactly when its sleep window is over. -/
theorem isRested_iff (probing : Probing n sleep c now journal) :
    c.isRested now = true ↔ (c.since.later sleep).nanos ≤ now.nanos := by
  have reached := probing.reached
  simp only [isRested, decide_eq_true_eq, probing.fixed, Instant.elapsed, Instant.later]
  omega

/-- A request is told as it was answered. -/
theorem Probing.judged_ask (probing : Probing n sleep c now journal) (caller : Option CallKey) :
    Judged n sleep ⟨now, .asked n caller c.state (c.allow now).answer⟩ journal := by
  constructor
  case state =>
    rintro _ _ _ ⟨⟩
    exact probing.state
  case answer =>
    rintro _ _ _ ⟨⟩ unclosed
    refine ⟨c.since, probing.since unclosed, ?_⟩
    rw [answer_of_unclosed unclosed]
    exact isRested_iff probing
  case spaced =>
    intro probe y told admits
    obtain ⟨_, _, unclosed, same⟩ := Entry.isProbe_iff.mp probe
    simp only [Entry.asked.injEq] at same
    obtain ⟨_, _, rfl, answer⟩ := same
    rw [answer_of_unclosed unclosed] at answer
    have rested := (isRested_iff probing).mp answer
    have before := probing.admitted unclosed y told admits
    simp only [Instant.later] at rested ⊢
    omega

/-- All the notes of a deed are judged well, given that those before it are. -/
theorem Probing.judged_entries (probing : Probing n sleep c now journal) (d : Deed) :
    Historic (Judged n sleep) ((d.entries n c now).map (Note.mk now) ++ journal) := by
  have own : Historic (Judged n sleep)
      ((d.writes? n c now).toList.map (Note.mk now) ++ journal) := by
    cases d with
    | ask caller => exact ⟨probing.judged_ask caller, probing.judged⟩
    | absorb caller r => exact ⟨.of_unasked (by simp), probing.judged⟩
    | look | read | forceOpen | forceClosed => exact probing.judged
  rw [Deed.entries, List.map_append, List.append_assoc]
  cases (c.undergo now d).news with
  | none => exact own
  | some news => exact ⟨.of_unasked (by simp), own⟩

theorem Probing.past_entries (probing : Probing n sleep c now journal) (entries : List Entry) :
    ∀ x ∈ entries.map (Note.mk now) ++ journal, x.written.nanos ≤ now.nanos := by
  intro x told
  rcases List.mem_append.mp told with new | old
  · obtain ⟨_, _, rfl⟩ := List.mem_map.mp new
    exact Int.le_refl _
  · exact probing.past x old

/-- Whatever is done to a circuit, the journal tells how it stands. -/
theorem Probing.undergo (probing : Probing n sleep c now journal) (d : Deed) :
    Probing n sleep (c.undergo now d).circuit now
      ((d.entries n c now).map (Note.mk now) ++ journal) := by
  have told := state_undergo probing.state now d
  have rest := Board.restingSince?_append n now (d.entries n c now) journal
  have past := probing.past_entries (d.entries n c now)
  have judged := probing.judged_entries d
  have fixed := (congrArg (·.2.2) (c.terms_undergo now d)).trans probing.fixed
  cases c.turn now d with
  | rest state since silent refused =>
      -- Without news and without a probe nothing starts a rest.
      have quiet : c.state ≠ .closed → (d.entries n c now).any (·.startsRest n) = false := by
        intro unclosed
        refine eq_false_of_ne_true fun starts => ?_
        rcases any_startsRest_iff.mp starts with ⟨shift, news, _⟩ | ⟨⟨caller, asks⟩, _, answer⟩
        · rw [silent] at news
          cases news
        · rw [refused caller asks unclosed] at answer
          cases answer
      refine ⟨fixed, told, ?_, ?_, past, ?_, judged⟩
      · intro unclosed
        rw [state] at unclosed
        rw [rest, quiet unclosed, since]
        exact probing.since unclosed
      · rw [since]
        exact probing.reached
      · intro unclosed x among admits
        rw [state] at unclosed
        rcases List.mem_append.mp among with new | old
        · obtain ⟨y, mention, rfl⟩ := List.mem_map.mp new
          obtain ⟨⟨caller, asks⟩, answer⟩ := ask_of_admits mention admits
          rw [refused caller asks unclosed] at answer
          cases answer
        · rw [since]
          exact probing.admitted unclosed x old admits
  | shift shift settled state since news refused =>
      -- A circuit turns half-open for a probe only, so this one closed or opened.
      refine ⟨fixed, told, ?_, ?_, past, ?_, judged⟩
      · intro unclosed
        have opens : shift.target = .opened := by
          rw [state] at unclosed
          cases target : shift.target with
          | closed => exact absurd target unclosed
          | opened => rfl
          | halfOpen => exact absurd target settled
        rw [rest, if_pos (any_startsRest_iff.mpr (.inl ⟨shift, news, opens⟩)), since]
      · exact Int.le_of_eq (congrArg Instant.nanos since)
      · intro _ x among _
        rw [since]
        exact past x among
  | probe caller asks unclosed answer state since news =>
      -- The probe is told at this instant, and the rest starts anew.
      have starts : (d.entries n c now).any (·.startsRest n) = true :=
        any_startsRest_iff.mpr (.inr ⟨⟨caller, asks⟩, unclosed, answer⟩)
      subst asks
      refine ⟨fixed, told, ?_, ?_, past, ?_, judged⟩
      · intro _
        rw [rest, if_pos starts]
        exact congrArg some since.symm
      · exact Int.le_of_eq (congrArg Instant.nanos since)
      · intro _ x among _
        have written := past x among
        rwa [← since] at written

/-- What is not about the circuit changes nothing of what the journal tells of it. -/
theorem Probing.aside (probing : Probing n sleep c now journal) {x : Entry}
    (aside : x.circuit? ≠ some n) : Probing n sleep c now (⟨now, x⟩ :: journal) := by
  have unasked : ∀ caller state answer, x ≠ .asked n caller state answer := by
    rintro caller state answer rfl
    exact aside rfl
  constructor
  case fixed => exact probing.fixed
  case state =>
    rw [Board.stateTold_of_unshifted (Entry.shift?_of_aside aside)]
    exact probing.state
  case since =>
    intro unclosed
    have same := Board.restingSince?_append n now [x] journal
    simp only [List.any_cons, Entry.startsRest_of_aside aside] at same
    exact same.trans (probing.since unclosed)
  case reached => exact probing.reached
  case past => exact probing.past_entries [x]
  case admitted =>
    intro unclosed y among admits
    rcases List.mem_cons.mp among with rfl | old
    · obtain ⟨caller, state, asked⟩ := Entry.admits_iff.mp admits
      exact absurd asked (unasked caller state true)
    · exact probing.admitted unclosed y old admits
  case judged => exact ⟨.of_unasked unasked, probing.judged⟩

/-- The account that a journal gives of a circuit does not age. -/
theorem Probing.pass (probing : Probing n sleep c now journal) (d : Duration) :
    Probing n sleep c (now.later d) journal := by
  have onward : now.nanos ≤ (now.later d).nanos := by
    simp only [Instant.later]
    omega
  exact { probing with
    reached := Int.le_trans probing.reached onward
    past := fun x told => Int.le_trans (probing.past x told) onward }

end Probing

/-- Whatever happens, the journal tells how a circuit stands. -/
theorem probing (n : Name) (sleep : Duration) : Invariant n (Probing n sleep) where
  aside _ _ _ _ aside probing := probing.aside aside
  deed _ _ _ d probing := probing.undergo d
  pass _ _ _ d probing := probing.pass d

/-- A new circuit of which nothing has been told. -/
theorem probing_make (n : Name) (s : Settings) (now : Instant) {journal : List Note}
    (past : ∀ x ∈ journal, x.written.nanos ≤ now.nanos)
    (untold : ∀ x ∈ journal, x.entry.circuit? ≠ some n) :
    Probing n s.sleepWindow (make s now) now journal where
  fixed := rfl
  state := by
    have unshifted : journal.findSome? (·.entry.shift? n) = none :=
      List.findSome?_eq_none_iff.mpr fun x among => Entry.shift?_of_aside (untold x among)
    simp [stateTold, unshifted, make]
  since unclosed := absurd rfl unclosed
  reached := Int.le_refl _
  past := past
  admitted unclosed := absurd rfl unclosed
  judged := by
    refine .of_forall fun x among earlier => .of_unasked ?_
    rintro caller state answer asked
    exact untold x among (by rw [asked]; rfl)

end Circuit

namespace Board

/-- A board on which one command has a new circuit, under hooks that are set. -/
def fresh (n : Name) (s : Settings) (hooks : Hooks) (now : Instant) : Board :=
  ({ now, hooks } : Board).putCircuit n (.make s now)

/-- A request of a circuit that is not closed is answered by the time that has passed
since the rest began, whatever hooks do, and it is told as it was answered. -/
structure Admits (n : Name) (sleep : Duration) (b : Board) : Prop where
  answer : ∀ level caller, ∃ since, restingSince? n b.journal = some since ∧
    (allow (ring level) caller n b).2 = decide ((sleep.nanos : Int) ≤ b.now.nanos - since.nanos)
  told : ∀ level caller, ∃ later, (allow (ring level) caller n b).1.journal =
    later ++ ⟨b.now, .asked n caller (stateTold n b.journal) (allow (ring level) caller n b).2⟩ ::
      b.journal
  served : ∀ level, (serve (ring level) n .allow b).2 = .yes (allow (ring level) none n b).2

/-- The journal tells of a circuit as it stands, so it tells how a request is answered. -/
theorem admits_of_probing {n : Name} {sleep : Duration} {b : Board} {c : Circuit}
    (found : b.circuits.get? n = some c)
    (probing : Circuit.Probing n sleep c b.now b.journal)
    (unclosed : stateTold n b.journal ≠ .closed) : b.Admits n sleep := by
  rw [← probing.state] at unclosed
  constructor
  case answer =>
    intro level caller
    refine ⟨c.since, probing.since unclosed, ?_⟩
    rw [allow_eq_follow _ caller found]
    -- The circuit reads the time from its own clock, the journal as a difference.
    refine (Circuit.answer_of_unclosed unclosed b.now).trans (Bool.eq_iff_iff.mpr ?_)
    rw [Circuit.isRested_iff probing, decide_eq_true_eq]
    simp only [Instant.later]
    omega
  case told =>
    intro level caller
    obtain ⟨later, told, _⟩ := allow_told level caller found
    rw [probing.state] at told
    exact ⟨later, told⟩
  case served =>
    intro level
    simp only [serve, found]

/-- Probes are admitted by the sleep window alone. -/
structure ProbesSpaced (n : Name) (sleep : Duration) (b : Board) : Prop where
  /-- The journal tells how the circuit stands. -/
  told : ∃ c, b.circuits.get? n = some c ∧ c.state = stateTold n b.journal
  /-- While the circuit is not closed, whoever asks is let through just when the sleep window
  has passed since the rest began: after the run, or in the middle of a request, where hooks
  may have done any deeds. -/
  replied : ∀ kind during, Course kind b during → stateTold n during.journal ≠ .closed →
    during.Admits n sleep
  /-- The journal told so whenever a request asked. -/
  asked : ∀ later earlier t caller state answer,
    b.journal = later ++ ⟨t, .asked n caller state answer⟩ :: earlier →
      state = stateTold n earlier
  /-- While the circuit was not closed, a request was let through just when the sleep
  window had passed since it last opened or let a probe through. -/
  answered : ∀ later earlier t caller state answer,
    b.journal = later ++ ⟨t, .asked n caller state answer⟩ :: earlier → state ≠ .closed →
      ∃ since, restingSince? n earlier = some since ∧
        (answer = true ↔ (sleep.nanos : Int) ≤ t.nanos - since.nanos)
  /-- A probe comes a sleep window after any other request that was let through. -/
  spaced : ∀ later earlier x y, b.journal = later ++ x :: earlier → y ∈ earlier →
    x.entry.isProbe n = true → y.entry.admits n = true →
      (sleep.nanos : Int) ≤ x.written.nanos - y.written.nanos
  /-- A circuit that is not closed lets the next request through after a further sleep
  window. -/
  unstuck : ∀ level d, stateTold n b.journal ≠ .closed → sleep.nanos ≤ d.nanos →
    ((b.advance d).moveAt level (.request n .allow)).2 = .yes true

/-- Whatever is done to a circuit, and whatever hooks do in answer, it admits probes by
its sleep window alone. -/
theorem probesSpaced (n : Name) (s : Settings) (hooks : Hooks) (start : Instant) (level : Nat)
    (moves : List Move) :
    ((fresh n s hooks start).runAt level moves).ProbesSpaced n s.sleepWindow := by
  have before : Circuit.Invariant.On n (Circuit.Probing n s.sleepWindow) (fresh n s hooks start) :=
    ⟨_, Roster.get?_put_self _ _ _, Circuit.probing_make n s start (by simp [fresh, putCircuit])
      (by simp [fresh, putCircuit])⟩
  obtain ⟨c, found, probing⟩ := (Circuit.probing n s.sleepWindow).runAt before level moves
  generalize (fresh n s hooks start).runAt level moves = b at found probing
  constructor
  case told => exact ⟨c, found, probing.state⟩
  case replied =>
    intro kind during course unclosed
    obtain ⟨d, known, still⟩ := (Circuit.probing n s.sleepWindow).course course ⟨c, found, probing⟩
    exact admits_of_probing known still unclosed
  case asked =>
    intro later earlier t caller state answer split
    have judged := probing.judged
    rw [split] at judged
    exact judged.judged.state caller state answer rfl
  case answered =>
    intro later earlier t caller state answer split unclosed
    have judged := probing.judged
    rw [split] at judged
    obtain ⟨since, resting, just⟩ := judged.judged.answer caller state answer rfl unclosed
    refine ⟨since, resting, just.trans ?_⟩
    simp only [Instant.later]
    omega
  case spaced =>
    intro later earlier x y split among probe admits
    have judged := probing.judged
    rw [split] at judged
    have apart := judged.judged.spaced probe y among admits
    simp only [Instant.later] at apart
    omega
  case unstuck =>
    intro inner d unclosed enough
    rw [← probing.state] at unclosed
    -- Time alone ends the rest, however often probes went unanswered before.
    have rested : c.isRested (b.now.later d) = true := by
      have reached := probing.reached
      simp only [Circuit.isRested, decide_eq_true_eq, probing.fixed, Instant.elapsed,
        Instant.later]
      omega
    have answer := (Circuit.answer_of_unclosed unclosed (b.now.later d)).trans rested
    have known : (b.advance d).circuits.get? n = some c := found
    simp only [moveAt, serve, known, allow]
    exact congrArg Reply.yes answer

end Board

end Bulwark
