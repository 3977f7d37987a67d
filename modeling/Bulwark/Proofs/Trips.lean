import Bulwark.Proofs.Memory
import Bulwark.Proofs.Probes

/-!
What makes a circuit trip.

The journal tells of every outcome that a circuit records, so the events that its
window may count can be read off the journal: those recorded since the circuit last
closed (`Board.sinceClosed`).

* `Circuit.window_undergo`: what a deed does to the window of a circuit.
* `Circuit.remembering`: the window holds the events that the journal tells since the
  circuit last closed, whatever is done to the circuit.
* `Board.tripsFounded`: a circuit that trips has seen enough requests since it last
  closed, enough of which went wrong, and all within the span of its window.
-/

namespace Bulwark

/-- An error rate in whole percent, rounded down, does not exceed the true one. -/
theorem Tally.rate_of_le_errorPct {t : Tally} {pct : Nat} (reached : pct ≤ t.errorPct) :
    pct * t.requests ≤ 100 * t.errors := by
  unfold errorPct at reached
  split at reached
  · next empty => simp [empty]
  · next some_ =>
      rw [Nat.le_div_iff_mul_le (Nat.pos_of_ne_zero some_)] at reached
      omega

def Entry.closes (n : Name) (x : Entry) : Bool :=
  decide ((x.shift? n).map (·.target) = some .closed)

def Note.event? (n : Name) (x : Note) : Option Event :=
  match x.entry with
  | .recorded m _ r => if m = n then some ⟨r.outcome, x.written⟩ else none
  | _ => none

namespace Board

/-- The events that a circuit recorded since it last closed, oldest first, as a journal
tells them. -/
def sinceClosed (n : Name) : List Note → List Event
  | [] => []
  | x :: earlier => if x.entry.closes n then [] else sinceClosed n earlier ++ (x.event? n).toList

/-- Events that call for opening the circuit of a command, which told how many there
were. -/
structure Founded (n : Name) (s : Settings) (t : Instant) (earlier : List Note) (requests : Nat)
    (events : List Event) : Prop where
  /-- They were recorded since the circuit last closed. -/
  recorded : events.Sublist (sinceClosed n earlier)
  primary : ∀ x ∈ events, x.outcome.isPrimary = true
  recent : ∀ x ∈ events, t.nanos - s.rollingWindow.nanos ≤ x.time.nanos ∧ x.time.nanos ≤ t.nanos
  told : requests = events.length
  volume : s.volumeThreshold ≤ events.length
  rate : s.errorThresholdPct * events.length ≤ 100 * events.countP (·.outcome ≠ .success)

section Told

variable {n : Name} {x : Note} {journal : List Note}

theorem sinceClosed_of_untold (open_ : x.entry.closes n = false) (unrecorded : x.event? n = none) :
    sinceClosed n (x :: journal) = sinceClosed n journal := by
  simp [sinceClosed, open_, unrecorded]

end Told

end Board

namespace Circuit

open Board (stateTold sinceClosed Founded)

variable {n : Name} {c : Circuit} {now : Instant}

/-! ### What a deed does to the window -/

def Deed.closes (c : Circuit) : Deed → Bool
  | .forceClosed => decide (c.state ≠ .closed)
  | .absorb _ r => decide (c.state = .halfOpen ∧ r.outcome = .success)
  | _ => false

/-- How a deed uses the window of a circuit before it may close the circuit. -/
def Deed.uses (c : Circuit) (now : Instant) : Deed → List Window.Access
  | .ask _ | .look => if c.state = .closed then [.read now] else []
  | .read => [.read now]
  | .forceOpen | .forceClosed => []
  | .absorb _ r => [.record r.outcome now]

def Deed.accesses (c : Circuit) (now : Instant) (d : Deed) : List Window.Access :=
  d.uses c now ++ if d.closes c then [.reset] else []

/-- Examination only prunes the window. -/
theorem window_examine (c : Circuit) (now : Instant) :
    (c.examine now).circuit.window = c.window.prune now := by
  by_cases ill : c.isUnhealthy (c.window.tally now) = true
  · rw [examine_of_unhealthy ill]
    rfl
  · rw [examine_of_healthy ill]
    rfl

/-- The window after a deed. -/
theorem window_undergo (c : Circuit) (now : Instant) (d : Deed) :
    (c.undergo now d).circuit.window = c.window.after (d.accesses c now) := by
  cases d with
  | ask caller =>
      cases state : c.state with
      | closed =>
          simp only [undergo, allow, state, Deed.accesses, Deed.uses, if_true]
          exact c.window_examine now
      | opened | halfOpen =>
          simp only [undergo, allow, state, Deed.accesses, Deed.uses]
          split <;> rfl
  | look =>
      cases state : c.state with
      | closed =>
          simp only [undergo, isOpen, state, Deed.accesses, Deed.uses, if_true]
          exact c.window_examine now
      | opened | halfOpen =>
          simp only [undergo, isOpen, state, Deed.accesses, Deed.uses]
          rfl
  | read => rfl
  | forceOpen =>
      simp only [undergo, forceOpen]
      split <;> rfl
  | forceClosed =>
      cases state : c.state <;>
        simp [undergo, forceClosed, state, Deed.accesses, Deed.uses, Deed.closes] <;> rfl
  | absorb caller r =>
      cases state : c.state with
      | closed | opened =>
          simp [undergo, absorb, state, Deed.accesses, Deed.uses, Deed.closes]
          rfl
      | halfOpen =>
          by_cases success : r.outcome = .success
          -- The success is recorded first and then dropped with all the rest.
          · simp [undergo, absorb, state, success, Deed.accesses, Deed.uses, Deed.closes]
            rfl
          · simp only [undergo, absorb, state, success, Deed.accesses, Deed.uses, Deed.closes,
              and_false, if_false, decide_false, Bool.false_eq_true]
            split <;> rfl

/-- A deed uses the window at its own instant only. -/
theorem instant_of_accesses {d : Deed} {t : Instant}
    (used : t ∈ (d.accesses c now).filterMap Window.Access.instant?) : t = now := by
  have timeless : ∀ closes : Bool,
      (if closes then [Window.Access.reset] else []).filterMap Window.Access.instant? = [] := by
    intro closes
    cases closes <;> rfl
  rw [Deed.accesses, List.filterMap_append, timeless, List.append_nil] at used
  cases d with
  | ask | look =>
      by_cases closed : c.state = .closed
      · simpa [Deed.uses, closed, Window.Access.instant?] using used
      · simp [Deed.uses, closed] at used
  | read | absorb => simpa [Deed.uses, Window.Access.instant?] using used
  | forceOpen | forceClosed => cases used

/-! ### What a deed does to the events since the circuit closed -/

/-- Reading the window may open the circuit. -/
theorem opens_of_examine {shift : Shift} (news : (c.examine now).news = some (.shifted shift)) :
    shift.target = .opened := by
  by_cases ill : c.isUnhealthy (c.window.tally now) = true
  · rw [examine_of_unhealthy ill] at news
    obtain rfl := News.shifted.inj (Option.some.inj news)
    rfl
  · rw [examine_of_healthy ill] at news
    cases news

/-- Asking does not close a circuit. -/
theorem unclosed_of_allow {shift : Shift} (news : (c.allow now).news = some (.shifted shift)) :
    shift.target ≠ .closed := by
  cases state : c.state with
  | closed =>
      simp only [allow, state] at news
      simp [opens_of_examine news]
  | opened =>
      simp only [allow, state] at news
      split at news
      · obtain rfl := News.shifted.inj (Option.some.inj news)
        decide
      · cases news
  | halfOpen =>
      simp only [allow, state] at news
      split at news <;> cases news

theorem unclosed_of_isOpen {shift : Shift} (news : (c.isOpen now).news = some (.shifted shift)) :
    shift.target ≠ .closed := by
  cases state : c.state with
  | closed =>
      simp only [isOpen, state] at news
      simp [opens_of_examine news]
  | opened | halfOpen =>
      simp only [isOpen, state] at news
      cases news

/-- The news of a deed tell that it closes the circuit. -/
theorem closes_iff (now : Instant) {d : Deed} : d.closes c = true ↔
    ∃ shift, (c.undergo now d).news = some (.shifted shift) ∧ shift.target = .closed := by
  cases d with
  | ask caller => simpa [Deed.closes, undergo] using fun shift => unclosed_of_allow
  | look => simpa [Deed.closes, undergo] using fun shift => unclosed_of_isOpen
  | read => simp [Deed.closes, undergo]
  | forceOpen =>
      cases state : c.state <;> simp [Deed.closes, undergo, forceOpen, state, Shift.target]
  | forceClosed =>
      cases state : c.state <;> simp [Deed.closes, undergo, forceClosed, state, Shift.target]
  | absorb caller r =>
      cases state : c.state with
      | closed | opened => simp [Deed.closes, undergo, absorb, state]
      | halfOpen =>
          by_cases success : r.outcome = .success
          · simp [Deed.closes, undergo, absorb, state, success, Shift.target]
          · by_cases failure : r.outcome.isExecutionError = true <;>
              simp [Deed.closes, undergo, absorb, state, success, failure, Shift.target]

/-- What is told of a deed itself are the events it puts into the window. -/
theorem sinceClosed_own (n : Name) (c : Circuit) (now : Instant) (d : Deed)
    (journal : List Note) :
    sinceClosed n ((d.writes? n c now).toList.map (Note.mk now) ++ journal) =
      (d.uses c now).foldl Window.Access.enter (sinceClosed n journal) := by
  cases d with
  | ask caller =>
      rw [Deed.uses]
      split <;> exact Board.sinceClosed_of_untold rfl rfl
  | look =>
      rw [Deed.uses]
      split <;> rfl
  | read | forceOpen | forceClosed => rfl
  | absorb caller r =>
      simp [Deed.writes?, Deed.uses, sinceClosed, Entry.closes, Entry.shift?, Note.event?,
        Window.Access.enter]

/-- The events since the circuit last closed are those in the log of its window. -/
theorem sinceClosed_entries (n : Name) (c : Circuit) (now : Instant) (d : Deed)
    (journal : List Note) :
    sinceClosed n ((d.entries n c now).map (Note.mk now) ++ journal) =
      (d.accesses c now).foldl Window.Access.enter (sinceClosed n journal) := by
  rw [Deed.entries, List.map_append, List.append_assoc, Deed.accesses, List.foldl_append,
    ← sinceClosed_own]
  by_cases closes : d.closes c = true
  · obtain ⟨shift, news, closed⟩ := (closes_iff now).mp closes
    rw [if_pos closes, news]
    simp [herald, sinceClosed, Entry.closes, Entry.shift?, closed, Window.Access.enter]
  · rw [if_neg closes]
    rw [closes_iff now] at closes
    generalize (c.undergo now d).news = news at closes ⊢
    rcases news with _ | ⟨shift⟩ | _
    · rfl
    · have stays : shift.target ≠ .closed := fun closed => closes ⟨shift, rfl, closed⟩
      simp [herald, sinceClosed, Entry.closes, Entry.shift?, Note.event?, stays]
    · exact Board.sinceClosed_of_untold rfl rfl

/-! ### The window remembers -/

/-- A circuit that reads its window in answer to a deed. -/
theorem news_of_closed {d : Deed} {shift : Shift} (closed : c.state = .closed)
    (news : (c.undergo now d).news = some (.shifted shift)) :
    shift = .forcedOpen .closed ∨
      shift = c.trip now ∧ c.isUnhealthy (c.window.tally now) = true := by
  have examined : (c.examine now).news = some (.shifted shift) →
      shift = c.trip now ∧ c.isUnhealthy (c.window.tally now) = true := by
    intro told
    by_cases ill : c.isUnhealthy (c.window.tally now) = true
    · rw [examine_of_unhealthy ill] at told
      exact ⟨(News.shifted.inj (Option.some.inj told)).symm, ill⟩
    · rw [examine_of_healthy ill] at told
      cases told
  cases d with
  | ask caller =>
      simp only [undergo, allow, closed] at news
      exact .inr (examined news)
  | look =>
      simp only [undergo, isOpen, closed] at news
      exact .inr (examined news)
  | read => cases news
  | forceOpen =>
      simp only [undergo, forceOpen, closed] at news
      exact .inl (News.shifted.inj (Option.some.inj news)).symm
  | forceClosed =>
      simp only [undergo, forceClosed, closed] at news
      cases news
  | absorb caller r =>
      simp only [undergo, absorb, closed] at news
      cases news

/-- Only a closed circuit trips. -/
theorem closed_of_tripped {d : Deed} {e p : Nat}
    (news : (c.undergo now d).news = some (.shifted (.tripped e p))) : c.state = .closed := by
  cases state : c.state with
  | closed => rfl
  | opened | halfOpen =>
      cases d <;>
        simp only [undergo, allow, isOpen, forceOpen, forceClosed, absorb, state] at news
      all_goals repeat' split at news
      all_goals simp at news

/-- What a journal tells of the changes of a closed circuit is right. -/
structure Grounded (n : Name) (s : Settings) (x : Note) (earlier : List Note) : Prop where
  tripped : ∀ e p, x.entry = .remark n (.told (.shifted (.tripped e p))) →
    stateTold n earlier = .closed ∧ ∃ events, Founded n s x.written earlier p events
  opened : ∀ shift, x.entry = .remark n (.told (.shifted shift)) →
    stateTold n earlier = .closed → shift = .forcedOpen .closed ∨ ∃ e p, shift = .tripped e p

/-- The window of a circuit holds what the journal tells since the circuit last closed. -/
structure Remembering (n : Name) (s : Settings) (c : Circuit) (now : Instant)
    (journal : List Note) : Prop where
  terms : c.terms = (s.errorThresholdPct, s.volumeThreshold, s.sleepWindow)
  state : c.state = stateTold n journal
  window : ∃ history, c.window = (Window.make s.rollingWindow s.windowBuckets).after history ∧
    Window.log history = sinceClosed n journal ∧ Window.Rising history ∧
    ∀ t ∈ history.filterMap Window.Access.instant?, t.nanos ≤ now.nanos
  grounded : Historic (Grounded n s) journal

section Remembering

variable {s : Settings} {journal : List Note}

/-- Of an entry that tells no change there is nothing to judge. -/
theorem Grounded.of_unshifted {x : Note} {earlier : List Note}
    (unshifted : x.entry.shift? n = none) : Grounded n s x earlier where
  tripped e p told := by simp [told, Entry.shift?] at unshifted
  opened shift told := by simp [told, Entry.shift?] at unshifted

/-- The primary events in the window of a circuit that trips call for it. -/
theorem Remembering.founded (remembering : Remembering n s c now journal)
    (ill : c.isUnhealthy (c.window.tally now) = true) {earlier : List Note}
    (same : sinceClosed n earlier = sinceClosed n journal) :
    ∃ events, Founded n s now earlier (c.window.tally now).requests events := by
  obtain ⟨history, window, logged, rising, past⟩ := remembering.window
  let w := Window.make s.rollingWindow s.windowBuckets
  have snapshot : c.window.tally now = .of (w.counted history now) := by
    rw [window]
    exact Window.tally_after rfl history now
  -- Time only rose, so what the snapshot counts is recent.
  have steady : Window.Rising (history ++ [.read now]) :=
    (Window.Rising.concat_iff rfl).mpr ⟨rising, past⟩
  obtain ⟨volume, rate⟩ := of_decide_eq_true ill
  have terms := remembering.terms
  simp only [Circuit.terms, Prod.mk.injEq] at terms
  rw [terms.2.1] at volume
  rw [terms.1] at rate
  have requests : (c.window.tally now).requests =
      ((w.counted history now).filter (·.outcome.isPrimary)).length := by
    rw [snapshot, Tally.requests_of, List.countP_eq_length_filter]
  have errors : (c.window.tally now).errors =
      ((w.counted history now).filter (·.outcome.isPrimary)).countP (·.outcome ≠ .success) := by
    rw [snapshot, Tally.errors_of, List.countP_filter]
    congr 1
    funext x
    cases x.outcome <;> rfl
  refine ⟨(w.counted history now).filter (·.outcome.isPrimary), ?_⟩
  constructor
  case recorded =>
    rw [same, ← logged]
    exact List.filter_sublist.trans (w.counted_suffix_log history now).sublist
  case primary => exact fun x member => (List.mem_filter.mp member).2
  case recent => exact fun x member => w.recent_of_rising steady (List.mem_filter.mp member).1
  case told => exact requests
  case volume => exact requests ▸ volume
  case rate =>
    rw [← requests, ← errors]
    exact Tally.rate_of_le_errorPct rate

/-- Nothing is recorded by a deed at which a closed circuit changes. -/
theorem sinceClosed_own_of_closed {d : Deed} {shift : Shift} (closed : c.state = .closed)
    (news : (c.undergo now d).news = some (.shifted shift)) :
    sinceClosed n ((d.writes? n c now).toList.map (Note.mk now) ++ journal) =
      sinceClosed n journal := by
  rw [sinceClosed_own]
  cases d with
  | ask | look =>
      rw [Deed.uses, if_pos closed]
      rfl
  | read | forceOpen | forceClosed => rfl
  | absorb caller r =>
      simp only [undergo, absorb, closed] at news
      cases news

/-- A circuit that trips at a deed had its grounds. -/
theorem Remembering.grounded_entries (remembering : Remembering n s c now journal) (d : Deed) :
    Historic (Grounded n s) ((d.entries n c now).map (Note.mk now) ++ journal) := by
  have own : Historic (Grounded n s)
      ((d.writes? n c now).toList.map (Note.mk now) ++ journal) := by
    cases told : d.writes? n c now with
    | none => exact remembering.grounded
    | some x => exact ⟨.of_unshifted (shift?_of_writes? told), remembering.grounded⟩
  have state := (stateTold_own n c now d journal).trans remembering.state.symm
  rw [Deed.entries, List.map_append, List.append_assoc]
  rcases news : (c.undergo now d).news with _ | ⟨shift⟩ | _
  · exact own
  · refine ⟨⟨?tripped, ?opened⟩, own⟩
    case tripped =>
      intro e p told
      obtain rfl : shift = .tripped e p := by simpa using told
      have closed := closed_of_tripped news
      refine ⟨state.trans closed, ?_⟩
      rcases news_of_closed closed news with forced | ⟨tripped, ill⟩
      · cases forced
      · obtain ⟨_, rfl⟩ := Shift.tripped.inj tripped
        exact remembering.founded ill (sinceClosed_own_of_closed closed news)
    case opened =>
      intro shift' told closed
      obtain rfl : shift = shift' := by simpa using told
      rcases news_of_closed (state.symm.trans closed) news with forced | ⟨tripped, _⟩
      · exact .inl forced
      · exact .inr ⟨_, _, tripped⟩
  · exact ⟨.of_unshifted rfl, own⟩

/-- Whatever is done to a circuit, its window holds what the journal tells. -/
theorem Remembering.undergo (remembering : Remembering n s c now journal) (d : Deed) :
    Remembering n s (c.undergo now d).circuit now
      ((d.entries n c now).map (Note.mk now) ++ journal) := by
  obtain ⟨history, window, logged, rising, past⟩ := remembering.window
  refine ⟨(c.terms_undergo now d).trans remembering.terms, ?state,
    ⟨history ++ d.accesses c now, ?window, ?logged, ?rising, ?past⟩,
    remembering.grounded_entries d⟩
  case state => exact state_undergo remembering.state now d
  case window =>
    rw [window_undergo, window, Window.after, Window.after, Window.after, List.foldl_append]
  case logged =>
    rw [sinceClosed_entries, ← logged, Window.log, Window.log, List.foldl_append]
  case rising => exact rising.append past fun t used => instant_of_accesses used
  case past =>
    intro t used
    rw [List.filterMap_append] at used
    rcases List.mem_append.mp used with before | last
    · exact past t before
    · exact Int.le_of_eq (congrArg Instant.nanos (instant_of_accesses last))

/-- What is not about the circuit changes nothing of what the journal tells of it. -/
theorem Remembering.aside (remembering : Remembering n s c now journal) {x : Entry}
    (aside : x.circuit? ≠ some n) : Remembering n s c now (⟨now, x⟩ :: journal) := by
  have unshifted := Entry.shift?_of_aside aside
  have unrecorded : Note.event? n ⟨now, x⟩ = none := by
    unfold Note.event?
    split
    · next m caller r told => exact if_neg fun same => aside (by simp_all [Entry.circuit?])
    · rfl
  have same : sinceClosed n (⟨now, x⟩ :: journal) = sinceClosed n journal :=
    Board.sinceClosed_of_untold (by simp [Entry.closes, unshifted]) unrecorded
  constructor
  case terms => exact remembering.terms
  case state =>
    rw [Board.stateTold_of_unshifted unshifted]
    exact remembering.state
  case window =>
    rw [same]
    exact remembering.window
  case grounded => exact ⟨.of_unshifted unshifted, remembering.grounded⟩

theorem Remembering.pass (remembering : Remembering n s c now journal) (d : Duration) :
    Remembering n s c (now.later d) journal := by
  obtain ⟨history, window, logged, rising, past⟩ := remembering.window
  refine { remembering with window := ⟨history, window, logged, rising, ?_⟩ }
  intro t used
  have before := past t used
  simp only [Instant.later]
  omega

end Remembering

/-- Whatever happens, the window of a circuit holds what the journal tells. -/
theorem remembering (n : Name) (s : Settings) : Invariant n (Remembering n s) where
  aside _ _ _ _ aside remembering := remembering.aside aside
  deed _ _ _ d remembering := remembering.undergo d
  pass _ _ _ d remembering := remembering.pass d

/-- A new circuit has recorded nothing. -/
theorem remembering_make (n : Name) (s : Settings) (now : Instant) :
    Remembering n s (make s now) now [] where
  terms := rfl
  state := rfl
  window := ⟨[], rfl, rfl, List.Pairwise.nil, by simp⟩
  grounded := trivial

end Circuit

namespace Board

/-- A circuit trips on recent requests since it last closed, and on nothing else. -/
structure TripsFounded (n : Name) (s : Settings) (b : Board) : Prop where
  /-- The journal tells how the circuit stands. -/
  told : ∃ c, b.circuits.get? n = some c ∧ c.state = stateTold n b.journal
  /-- Only a closed circuit trips, and it has seen enough requests since it last closed,
  enough of which went wrong. -/
  founded : ∀ later earlier t e requests,
    b.journal = later ++ ⟨t, .remark n (.told (.shifted (.tripped e requests)))⟩ :: earlier →
      stateTold n earlier = .closed ∧ ∃ events, Founded n s t earlier requests events
  /-- A closed circuit opens by tripping, unless it is forced. -/
  only : ∀ later earlier t shift,
    b.journal = later ++ ⟨t, .remark n (.told (.shifted shift))⟩ :: earlier →
      stateTold n earlier = .closed → shift = .forcedOpen .closed ∨ ∃ e p, shift = .tripped e p

/-- Whatever is done to a circuit, and whatever hooks do in answer, it trips on recent
requests since it last closed. -/
theorem tripsFounded (n : Name) (s : Settings) (hooks : Hooks) (start : Instant) (level : Nat)
    (moves : List Move) :
    ((fresh n s hooks start).runAt level moves).TripsFounded n s := by
  have before : Circuit.Invariant.On n (Circuit.Remembering n s) (fresh n s hooks start) :=
    ⟨_, Roster.get?_put_self _ _ _, Circuit.remembering_make n s start⟩
  obtain ⟨c, found, remembering⟩ := (Circuit.remembering n s).runAt before level moves
  generalize (fresh n s hooks start).runAt level moves = b at found remembering
  have grounded := remembering.grounded
  constructor
  case told => exact ⟨c, found, remembering.state⟩
  case founded =>
    intro later earlier t e requests split
    rw [split] at grounded
    exact grounded.judged.tripped e requests rfl
  case only =>
    intro later earlier t shift split closed
    rw [split] at grounded
    exact grounded.judged.opened shift rfl closed

end Board

end Bulwark
