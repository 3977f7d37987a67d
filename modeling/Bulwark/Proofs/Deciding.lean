import Bulwark.Proofs.Probes

/-!
What decides a half-open circuit.

The journal tells of a change of a circuit right after what brought it about, so it
can be read off the journal what decided a half-open circuit: a report of a success,
a failure or a timeout (`Circuit.Shifting`). That report comes no sooner than a sleep
window after the circuit last opened, since it was half-open by then.

* `Circuit.deciding`: this is so, whatever is done to the circuit.
* `Circuit.stateTold_of_closed`: a circuit that is closed stays closed until it opens.
* `Circuit.unclosed_of_asked`: so, while a circuit is half-open, whatever it let through
  since it opened was a probe.
-/

namespace Bulwark

def Entry.opens (n : Name) (x : Entry) : Bool :=
  decide ((x.shift? n).map (·.target) = some .opened)

namespace Board

/-- When the circuit of a command last opened, as a journal tells it. -/
def openedTold? (n : Name) (journal : List Note) : Option Instant :=
  (journal.find? (·.entry.opens n)).map (·.written)

/-- What a journal tells since the circuit of a command last opened. -/
def sinceOpened (n : Name) (journal : List Note) : List Note :=
  journal.takeWhile fun x => !x.entry.opens n

def beforeOpened (n : Name) (journal : List Note) : List Note :=
  journal.dropWhile fun x => !x.entry.opens n

variable {n : Name} {journal : List Note} {x : Note}

theorem openedTold?_of_unopened (unopened : x.entry.opens n = false) :
    openedTold? n (x :: journal) = openedTold? n journal := by
  simp [openedTold?, unopened]

theorem sinceOpened_append_beforeOpened (n : Name) (journal : List Note) :
    sinceOpened n journal ++ beforeOpened n journal = journal := List.takeWhile_append_dropWhile

/-- Since the circuit last opened no note tells of its opening. -/
theorem unopened_of_mem_sinceOpened (among : x ∈ sinceOpened n journal) :
    x.entry.opens n = false := by
  have unopened := List.all_eq_true.mp List.all_takeWhile x among
  simpa using unopened

/-- What was told before the circuit last opened was not written later. -/
theorem written_le_of_mem_beforeOpened
    (sorted : journal.Pairwise fun x y => y.written.nanos ≤ x.written.nanos) {t : Instant}
    (opened : openedTold? n journal = some t) (among : x ∈ beforeOpened n journal) :
    x.written.nanos ≤ t.nanos := by
  induction journal with
  | nil => cases among
  | cons y rest ih =>
      obtain ⟨later, sorted⟩ := List.pairwise_cons.mp sorted
      by_cases opens : y.entry.opens n = true
      · obtain rfl : y.written = t := by simpa [openedTold?, opens] using opened
        have old : x ∈ y :: rest := (List.dropWhile_sublist _).subset among
        rcases List.mem_cons.mp old with rfl | old
        · exact Int.le_refl _
        · exact later x old
      · have unopened := eq_false_of_ne_true opens
        rw [openedTold?_of_unopened unopened] at opened
        simp only [beforeOpened, List.dropWhile_cons, unopened, Bool.not_false, if_true] at among
        exact ih sorted opened among

end Board

namespace Circuit

open Board (stateTold openedTold?)

variable {n : Name} {sleep : Duration} {c : Circuit} {now : Instant} {d : Deed}
  {journal : List Note} {shift : Shift}

/-- What brings a change of a circuit about, as a journal tells it. -/
inductive Shifting (n : Name) (sleep : Duration) (t : Instant) (earlier : List Note) :
    Shift → Prop where
  | tripped {errorPct requests : Nat} : stateTold n earlier = .closed →
      Shifting n sleep t earlier (.tripped errorPct requests)
  | probing : stateTold n earlier = .opened → Shifting n sleep t earlier .probing
  | forcedOpen (before : State) : Shifting n sleep t earlier (.forcedOpen before)
  | forcedClosed : Shifting n sleep t earlier .forcedClosed
  /-- A half-open circuit was decided by the outcome that has just been reported, a sleep window
  or more after it opened. -/
  | decided {caller : Option CallKey} {r : Report} {rest : List Note} {opened : Instant}
      {shift : Shift} : earlier = ⟨t, .recorded n caller r⟩ :: rest → stateTold n rest = .halfOpen →
      openedTold? n rest = some opened → (opened.later sleep).nanos ≤ t.nanos →
      shift = .recovered ∧ r.outcome = .success ∨
        shift = .relapsed r.outcome ∧ r.outcome.isExecutionError = true →
      Shifting n sleep t earlier shift

/-- What a note tells of a change was brought about as the notes before it tell. -/
def Warranted (n : Name) (sleep : Duration) (x : Note) (earlier : List Note) : Prop :=
  ∀ shift, x.entry.shift? n = some shift → Shifting n sleep x.written earlier shift

/-- A circuit knows when it opened, and the journal tells what changed it. -/
structure Deciding (n : Name) (sleep : Duration) (c : Circuit) (now : Instant)
    (journal : List Note) : Prop where
  probing : Probing n sleep c now journal
  opened : c.state = .opened → openedTold? n journal = some c.since
  halfOpen : c.state = .halfOpen →
    ∃ t, openedTold? n journal = some t ∧ (t.later sleep).nanos ≤ c.since.nanos
  warranted : Historic (Warranted n sleep) journal

/-! ### Changes -/

/-- What a deed changed in a circuit. -/
theorem change_cases (news : (c.undergo now d).news = some (.shifted shift)) :
    (c.state = .closed ∧ ∃ errorPct requests, shift = .tripped errorPct requests) ∨
      (c.state = .opened ∧ shift = .probing) ∨
      (d = .forceOpen ∧ c.state ≠ .opened ∧ shift = .forcedOpen c.state ∨
        d = .forceClosed ∧ c.state ≠ .closed ∧ shift = .forcedClosed) ∨
      c.state = .halfOpen ∧ ∃ caller r, d = .absorb caller r ∧
        (shift = .recovered ∧ r.outcome = .success ∨
          shift = .relapsed r.outcome ∧ r.outcome.isExecutionError = true) := by
  -- Asking and looking examine a closed circuit, which can only trip.
  have examined : ∀ {answer : Bool}, ({ c.examine now with answer } : Step).news =
      some (.shifted shift) → ∃ errorPct requests, shift = .tripped errorPct requests := by
    intro answer told
    by_cases ill : c.isUnhealthy (c.window.tally now) = true
    · rw [examine_of_unhealthy ill] at told
      exact ⟨_, _, (News.shifted.inj (Option.some.inj told)).symm⟩
    · rw [examine_of_healthy ill] at told
      cases told
  cases d with
  | ask caller =>
      cases state : c.state with
      | closed =>
          simp only [undergo, allow, state] at news
          exact .inl ⟨rfl, examined news⟩
      | opened =>
          simp only [undergo, allow, state] at news
          split at news
          · exact .inr (.inl ⟨rfl, (News.shifted.inj (Option.some.inj news)).symm⟩)
          · cases news
      | halfOpen =>
          simp only [undergo, allow, state] at news
          split at news <;> simp at news
  | look =>
      cases state : c.state with
      | closed =>
          simp only [undergo, isOpen, state] at news
          exact .inl ⟨rfl, examined news⟩
      | opened | halfOpen => simp [undergo, isOpen, state] at news
  | read => simp [undergo] at news
  | forceOpen =>
      refine .inr (.inr (.inl (.inl ?_)))
      cases state : c.state with
      | opened => simp [undergo, forceOpen, state] at news
      | closed | halfOpen =>
          simp only [undergo, forceOpen, state, Option.some.injEq, News.shifted.injEq] at news
          exact ⟨rfl, by simp, news.symm⟩
  | forceClosed =>
      refine .inr (.inr (.inl (.inr ?_)))
      cases state : c.state with
      | closed => simp [undergo, forceClosed, state] at news
      | opened | halfOpen =>
          simp only [undergo, forceClosed, state, Option.some.injEq, News.shifted.injEq] at news
          exact ⟨rfl, by simp, news.symm⟩
  | absorb caller r =>
      cases state : c.state with
      | closed | opened => simp [undergo, absorb, state] at news
      | halfOpen =>
          refine .inr (.inr (.inr ⟨rfl, caller, r, rfl, ?_⟩))
          simp only [undergo, absorb, state] at news
          split at news
          · next success => exact .inl ⟨(News.shifted.inj (Option.some.inj news)).symm, success⟩
          · split at news
            · next wrong => exact .inr ⟨(News.shifted.inj (Option.some.inj news)).symm, wrong⟩
            · cases news

/-! ### What the journal tells of a deed -/

/-- What is told of a deed itself, without its news. -/
theorem opens_of_writes? {x : Entry} (own : x ∈ d.writes? n c now) : x.opens n = false := by
  simp [Entry.opens, shift?_of_writes? own]

/-- What a deed itself writes tells of no opening. -/
theorem openedTold?_own (n : Name) (c : Circuit) (now : Instant) (d : Deed) (journal : List Note) :
    openedTold? n ((d.writes? n c now).toList.map (Note.mk now) ++ journal) =
      openedTold? n journal := by
  cases told : d.writes? n c now with
  | none => rfl
  | some x => exact Board.openedTold?_of_unopened (opens_of_writes? told)

/-- After a deed the journal tells that the circuit opened now, if it did. -/
theorem openedTold?_entries (n : Name) (c : Circuit) (now : Instant) (d : Deed)
    (journal : List Note) :
    openedTold? n ((d.entries n c now).map (Note.mk now) ++ journal) =
      match (c.undergo now d).news with
      | some (.shifted shift) => if shift.target = .opened then some now else openedTold? n journal
      | _ => openedTold? n journal := by
  have own := openedTold?_own n c now d journal
  rw [Deed.entries, List.map_append, List.append_assoc]
  rcases (c.undergo now d).news with _ | ⟨shift⟩ | _
  · exact own
  · by_cases opens : shift.target = .opened
    · simp [herald, openedTold?, Entry.opens, Entry.shift?, opens]
    · simp only [if_neg opens]
      exact (Board.openedTold?_of_unopened (by simp [Entry.opens, Entry.shift?, opens])).trans own
  · exact (Board.openedTold?_of_unopened rfl).trans own

section Deciding

variable (deciding : Deciding n sleep c now journal)

include deciding

/-- What a deed changes is brought about as the journal tells. -/
theorem Deciding.shifting (news : (c.undergo now d).news = some (.shifted shift)) :
    Shifting n sleep now ((d.writes? n c now).toList.map (Note.mk now) ++ journal) shift := by
  have state := deciding.probing.state
  have own := stateTold_own n c now d journal
  rcases change_cases news with ⟨closed, errorPct, requests, rfl⟩ | ⟨opened, rfl⟩ |
    (⟨_, _, rfl⟩ | ⟨_, _, rfl⟩) | ⟨half, caller, r, rfl, cause⟩
  · exact .tripped (own.trans (state.symm.trans closed))
  · exact .probing (own.trans (state.symm.trans opened))
  · exact .forcedOpen c.state
  · exact .forcedClosed
  · obtain ⟨opened, told, slept⟩ := deciding.halfOpen half
    have reached := deciding.probing.reached
    exact .decided rfl (state.symm.trans half) told (Int.le_trans slept reached) cause

/-- All the notes of a deed are warranted, given that those before it are. -/
theorem Deciding.warranted_entries (d : Deed) :
    Historic (Warranted n sleep) ((d.entries n c now).map (Note.mk now) ++ journal) := by
  have own : Historic (Warranted n sleep)
      ((d.writes? n c now).toList.map (Note.mk now) ++ journal) := by
    cases told : d.writes? n c now with
    | none => exact deciding.warranted
    | some x =>
        refine ⟨fun shift changed => ?_, deciding.warranted⟩
        rw [shift?_of_writes? told] at changed
        cases changed
  rw [Deed.entries, List.map_append, List.append_assoc]
  rcases news : (c.undergo now d).news with _ | ⟨shift⟩ | _
  · exact own
  · refine ⟨fun other changed => ?_, own⟩
    obtain rfl : shift = other := by simpa [Entry.shift?] using changed
    exact deciding.shifting news
  · exact ⟨fun other changed => by simp [Entry.shift?] at changed, own⟩

/-- Whatever is done to a circuit, the journal tells what decided it. -/
theorem Deciding.undergo (d : Deed) :
    Deciding n sleep (c.undergo now d).circuit now
      ((d.entries n c now).map (Note.mk now) ++ journal) := by
  have told := openedTold?_entries n c now d journal
  refine ⟨deciding.probing.undergo d, ?_, ?_, deciding.warranted_entries d⟩
  case refine_1 =>
    cases c.turn now d with
    | rest state since silent _ =>
        rw [told, silent, state, since]
        exact deciding.opened
    | shift shift _ state since news _ =>
        rw [told, news, state, since]
        intro opens
        simp only [if_pos opens]
    | probe caller asks _ _ state _ _ =>
        subst asks
        intro opens
        rw [Circuit.undergo, state] at opens
        cases opens
  case refine_2 =>
    cases c.turn now d with
    | rest state since silent _ =>
        rw [told, silent, state, since]
        exact deciding.halfOpen
    | shift shift settled state _ _ _ =>
        intro half
        exact absurd (state.symm.trans half) settled
    | probe caller asks unclosed answer state since news =>
        subst asks
        intro _
        rw [answer_of_unclosed unclosed] at answer
        have rested := (isRested_iff deciding.probing).mp answer
        have reached := deciding.probing.reached
        rw [told]
        simp only [Circuit.undergo, news, since]
        -- The circuit has slept since it opened, or since an earlier probe.
        cases before : c.state with
        | closed => exact absurd before unclosed
        | opened => exact ⟨c.since, by simp [Shift.target, deciding.opened before], rested⟩
        | halfOpen =>
            obtain ⟨opened, known, slept⟩ := deciding.halfOpen before
            exact ⟨opened, by simp [known], Int.le_trans slept reached⟩

/-- A note about another circuit decides nothing. -/
theorem Deciding.aside {x : Entry} (aside : x.circuit? ≠ some n) :
    Deciding n sleep c now (⟨now, x⟩ :: journal) := by
  have untold := Entry.shift?_of_aside aside
  have unopened : x.opens n = false := by simp [Entry.opens, untold]
  refine ⟨deciding.probing.aside aside, ?_, ?_, fun shift changed => ?_, deciding.warranted⟩
  · rw [Board.openedTold?_of_unopened unopened]
    exact deciding.opened
  · rw [Board.openedTold?_of_unopened unopened]
    exact deciding.halfOpen
  · rw [untold] at changed
    cases changed

end Deciding

/-- Whatever happens, the journal tells what decided a circuit. -/
theorem deciding (n : Name) (sleep : Duration) : Invariant n (Deciding n sleep) where
  aside _ _ _ _ aside deciding := deciding.aside aside
  deed _ _ _ d deciding := deciding.undergo d
  pass _ _ _ d deciding :=
    ⟨deciding.probing.pass d, deciding.opened, deciding.halfOpen, deciding.warranted⟩

/-- A new circuit has nothing told of it. -/
theorem deciding_make (n : Name) (s : Settings) (now : Instant) {journal : List Note}
    (past : ∀ x ∈ journal, x.written.nanos ≤ now.nanos)
    (untold : ∀ x ∈ journal, x.entry.circuit? ≠ some n) :
    Deciding n s.sleepWindow (make s now) now journal where
  probing := probing_make n s now past untold
  opened := by simp [make]
  halfOpen := by simp [make]
  warranted := by
    refine .of_forall fun x among earlier shift changed => ?_
    rw [Entry.shift?_of_aside (untold x among)] at changed
    cases changed

/-! ### Since the circuit opened -/

/-- A circuit that is closed stays closed until it opens. -/
theorem stateTold_of_closed {since earlier : List Note}
    (warranted : Historic (Warranted n sleep) (since ++ earlier))
    (unopened : ∀ x ∈ since, x.entry.opens n = false) (closed : stateTold n earlier = .closed) :
    stateTold n (since ++ earlier) = .closed := by
  induction since with
  | nil => exact closed
  | cons x rest ih =>
      have before := ih warranted.2 fun y among => unopened y (List.mem_cons_of_mem _ among)
      have still := unopened x List.mem_cons_self
      cases changed : x.entry.shift? n with
      | none => exact (Board.stateTold_of_unshifted changed).trans before
      | some shift =>
          have target : stateTold n (x :: rest ++ earlier) = shift.target := by
            simp [stateTold, changed]
          rw [target]
          cases shift with
          | recovered | forcedClosed => rfl
          | probing =>
              cases warranted.1 _ changed with
              | probing opened =>
                  have contrary : State.opened = .closed := opened.symm.trans before
                  cases contrary
              | decided _ _ _ _ decides => simp at decides
          | tripped | forcedOpen | relapsed =>
              simp [Entry.opens, changed, Shift.target] at still

/-- A half-open circuit was not closed whenever it was asked since it last opened. -/
theorem unclosed_of_asked (judged : Historic (Judged n sleep) journal)
    (warranted : Historic (Warranted n sleep) journal) (half : stateTold n journal = .halfOpen)
    {x : Note} {caller : Option CallKey} {state : State} {answer : Bool}
    (among : x ∈ Board.sinceOpened n journal) (asked : x.entry = .asked n caller state answer) :
    state ≠ .closed := by
  rintro rfl
  obtain ⟨later, earlier, since⟩ := List.append_of_mem among
  have parts := Board.sinceOpened_append_beforeOpened n journal
  have unopened : ∀ y ∈ Board.sinceOpened n journal, y.entry.opens n = false :=
    fun y => Board.unopened_of_mem_sinceOpened
  rw [since] at parts unopened
  rw [← parts] at judged warranted half
  generalize Board.beforeOpened n journal = before at judged warranted half
  have split : later ++ x :: earlier ++ before = (later ++ [x]) ++ (earlier ++ before) := by simp
  rw [List.append_assoc] at judged
  rw [split] at warranted half
  have closed : stateTold n (earlier ++ before) = .closed :=
    (judged.judged.state caller .closed answer asked).symm
  have still := stateTold_of_closed warranted (fun y late => unopened y ?_) closed
  · have contrary : State.closed = .halfOpen := still.symm.trans half
    cases contrary
  · refine List.mem_append.mpr ((List.mem_append.mp late).imp_right fun self => ?_)
    exact List.mem_singleton.mp self ▸ List.mem_cons_self

end Circuit

end Bulwark
