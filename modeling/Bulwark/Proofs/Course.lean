import Bulwark.Board

/-!
What is done to circuits, deed by deed.

Whatever is asked of a board and whatever hooks do in answer, it comes down to
deeds: a circuit is asked, looked at, read, forced, or told an outcome, and the
journal tells of the deed and of its news at once (`Board.perform`). Between two
deeds there are only notes that are about no circuit, and hooks that are set
(`Board.Course`).

* `Board.serve_calm_of_ring`, `Board.allow_calm_of_ring`, `Board.report_calm_of_ring`:
  what a request does is such a course, if what hooks do is.
* `Board.ring_calm`: calling a hook, with all its actions and all the hooks these
  call in turn, is such a course.
* `Circuit.Invariant.runAt`: what each deed keeps of one circuit and the journal
  holds after every run of a board.
-/

namespace Bulwark

def Entry.call? : Entry → Option CallKey
  | .issued k _ _ | .operation k _ _ | .fallback k _ _ | .ended k _ _ | .resolved k _ => some k
  | .asked _ caller _ _ | .recorded _ caller _ => caller
  | .hook _ _ _ | .action _ _ _ | .remark _ _ => none

def Entry.circuit? : Entry → Option Name
  | .asked n _ _ _ | .recorded n _ _ | .remark n (.told _) => some n
  | _ => none

namespace Circuit

inductive Deed where
  /-- A request asks to be let through, perhaps for a call. -/
  | ask (caller : Option CallKey)
  /-- Somebody asks whether requests are kept from running. -/
  | look
  /-- Somebody reads the tally. -/
  | read
  | forceOpen
  | forceClosed
  /-- An outcome is reported, perhaps by a call. -/
  | absorb (caller : Option CallKey) (r : Report)

def undergo (c : Circuit) (now : Instant) : Deed → Step
  | .ask _ => c.allow now
  | .look => c.isOpen now
  | .read => ⟨{ c with window := c.window.prune now }, false, none⟩
  | .forceOpen => c.forceOpen now
  | .forceClosed => c.forceClosed now
  | .absorb _ r => c.absorb r.outcome now

/-- What the journal tells of a deed itself. -/
def Deed.writes? (n : Name) (c : Circuit) (now : Instant) : Deed → Option Entry
  | .ask caller => some (.asked n caller c.state (c.allow now).answer)
  | .absorb caller r => some (.recorded n caller r)
  | _ => none

def herald (n : Name) (news : Option News) : Option Entry := news.map fun x => .remark n (.told x)

/-- All that the journal tells of a deed, newest first. -/
def Deed.entries (n : Name) (c : Circuit) (now : Instant) (d : Deed) : List Entry :=
  (herald n (c.undergo now d).news).toList ++ (d.writes? n c now).toList

/-- What a deed tells is about the circuit that it is done to. -/
theorem Deed.circuit?_of_mem_entries {n : Name} {c : Circuit} {now : Instant} {d : Deed}
    {x : Entry} (told : x ∈ d.entries n c now) : x.circuit? = some n := by
  rcases List.mem_append.mp told with news | own
  · obtain ⟨y, _, rfl⟩ := Option.map_eq_some_iff.mp (Option.mem_toList.mp news)
    rfl
  · cases d with
    | ask caller => obtain rfl := Option.some.inj (Option.mem_toList.mp own); rfl
    | absorb caller r => obtain rfl := Option.some.inj (Option.mem_toList.mp own); rfl
    | look | read | forceOpen | forceClosed => simp [writes?] at own

end Circuit

namespace Board

/-- A deed is done to the circuit of a command, and the journal tells of it. -/
def perform (n : Name) (c : Circuit) (d : Circuit.Deed) (b : Board) : Board :=
  { b.putCircuit n (c.undergo b.now d).circuit with
    journal := (d.entries n c b.now).map (Note.mk b.now) ++ b.journal }

def hear (n : Name) (news : Option News) (b : Board) : Board :=
  { b with journal := (Circuit.herald n news).toList.map (Note.mk b.now) ++ b.journal }

/-- Calls the hook of a change that has been told. -/
def follow (ring : Ring) (n : Name) (news : Option News) (b : Board) : Board :=
  match news with
  | some (.shifted shift) => ring (.entered shift.target) n none b
  | _ => b

/-- What happens from one board to another, deed by deed, all entries being of a kind. -/
inductive Course (kind : Entry → Prop) (b : Board) : Board → Prop where
  | refl : Course kind b b
  | note {b' : Board} {x : Entry} : Course kind b b' → kind x → x.circuit? = none →
      Course kind b (b'.note x)
  | setHook {b' : Board} (occasion : Occasion) (hook : Hook) : Course kind b b' →
      Course kind b (b'.setHook occasion hook)
  | deed {b' : Board} {n : Name} {c : Circuit} {d : Circuit.Deed} : Course kind b b' →
      b'.circuits.get? n = some c → (∀ x ∈ d.entries n c b'.now, kind x) →
      Course kind b (b'.perform n c d)

/-- What happened is told without mention of any call. -/
abbrev Calm : Board → Board → Prop := Course fun x => x.call? = none

namespace Course

variable {kind wider : Entry → Prop} {b b' b'' : Board}

/-- Two courses, one after the other, make one. -/
theorem trans (first : Course kind b b') (second : Course kind b' b'') : Course kind b b'' := by
  induction second with
  | refl => exact first
  | note _ fits aside ih => exact ih.note fits aside
  | setHook occasion hook _ ih => exact ih.setHook occasion hook
  | deed _ found fits ih => exact ih.deed found fits

theorem mono (course : Course kind b b') (wide : ∀ x, kind x → wider x) : Course wider b b' := by
  induction course with
  | refl => exact .refl
  | note _ fits aside ih => exact ih.note (wide _ fits) aside
  | setHook occasion hook _ ih => exact ih.setHook occasion hook
  | deed _ found fits ih => exact ih.deed found fun x told => wide x (fits x told)

/-- No command gets a circuit. -/
theorem absent (course : Course kind b b') {n : Name} (none_ : b.circuits.get? n = none) :
    b'.circuits.get? n = none := by
  induction course with
  | refl => exact none_
  | note _ _ _ ih => exact ih
  | setHook _ _ _ ih => exact ih
  | deed _ found _ ih =>
      refine (Roster.get?_put_of_ne _ _ ?_).trans ih
      rintro rfl
      simp [ih] at found

end Course

section Requests

variable {ring : Ring} {n : Name} {b : Board} {c : Circuit}

/-! ### Requests as deeds -/

/-- Asking is noted, then the circuit takes its step, and then its news are told. -/
theorem perform_ask (n : Name) (c : Circuit) (caller : Option CallKey) (b : Board) :
    b.perform n c (.ask caller) =
      ((b.note (.asked n caller c.state (c.allow b.now).answer)).putCircuit n
        (c.allow b.now).circuit).hear n (c.allow b.now).news := by
  simp [perform, hear, note, putCircuit, Circuit.Deed.entries, Circuit.Deed.writes?,
    Circuit.undergo]

/-- A report is noted, then the circuit takes its step, and then its news are told. -/
theorem perform_absorb (n : Name) (c : Circuit) (caller : Option CallKey) (r : Report)
    (b : Board) :
    b.perform n c (.absorb caller r) =
      ((b.note (.recorded n caller r)).putCircuit n (c.absorb r.outcome b.now).circuit).hear n
        (c.absorb r.outcome b.now).news := by
  simp [perform, hear, note, putCircuit, Circuit.Deed.entries, Circuit.Deed.writes?,
    Circuit.undergo]

/-- Of any other deed nothing is noted but its news. -/
theorem perform_of_untold {d : Circuit.Deed} (untold : d.writes? n c b.now = none) :
    b.perform n c d =
      (b.putCircuit n (c.undergo b.now d).circuit).hear n (c.undergo b.now d).news := by
  simp [perform, hear, putCircuit, Circuit.Deed.entries, untold]

/-- Taking a step is telling its news and calling the hook. -/
theorem take_eq_follow (ring : Ring) (n : Name) (step : Circuit.Step) (b : Board) :
    take ring n step b =
      follow ring n step.news ((b.putCircuit n step.circuit).hear n step.news) := by
  obtain ⟨after, answer, news⟩ := step
  rcases news with _ | ⟨shift⟩ | _ <;> rfl

/-- A question is a deed on the circuit, followed by what the change that it makes calls for. -/
theorem allow_eq_follow (ring : Ring) (caller : Option CallKey)
    (found : b.circuits.get? n = some c) :
    allow ring caller n b =
      (follow ring n (c.allow b.now).news (b.perform n c (.ask caller)),
        (c.allow b.now).answer) := by
  simp only [allow, found, take_eq_follow, perform_ask]

/-- A report is a deed on the circuit, followed by its change and by the hook of reports. -/
theorem report_eq_follow (ring : Ring) (caller : Option CallKey) (r : Report)
    (found : b.circuits.get? n = some c) :
    report ring caller n r b =
      ring .reported n (some r)
        (follow ring n (c.absorb r.outcome b.now).news (b.perform n c (.absorb caller r))) := by
  simp only [report, found, take_eq_follow, perform_absorb]

/-! ### Requests, given that hooks are calm -/

section Calm

variable (calm : ∀ o n r b, Calm b (ring o n r b))
include calm

/-- What follows a change is calm. -/
theorem follow_calm (n : Name) (news : Option News) (b : Board) :
    Calm b (follow ring n news b) := by
  unfold follow
  split
  · exact calm _ _ _ _
  · exact .refl

/-- After the note of a question all is calm. -/
theorem allow_calm_of_ring (caller : Option CallKey) (found : b.circuits.get? n = some c) :
    Calm (b.perform n c (.ask caller)) (allow ring caller n b).1 := by
  rw [allow_eq_follow ring caller found]
  exact follow_calm calm _ _ _

/-- After the note of a report all is calm. -/
theorem report_calm_of_ring (caller : Option CallKey) (r : Report)
    (found : b.circuits.get? n = some c) :
    Calm (b.perform n c (.absorb caller r)) (report ring caller n r b) := by
  rw [report_eq_follow ring caller r found]
  exact (follow_calm calm _ _ _).trans (calm _ _ _ _)

omit calm in
/-- A deed of nobody's is told without mention of any call. -/
theorem perform_calm {d : Circuit.Deed} (found : b.circuits.get? n = some c)
    (nobody : ∀ x, d.writes? n c b.now = some x → x.call? = none) :
    Calm b (b.perform n c d) := by
  refine .deed .refl found ?_
  intro x told
  rcases List.mem_append.mp told with news | own
  · obtain ⟨y, _, rfl⟩ := Option.map_eq_some_iff.mp (Option.mem_toList.mp news)
    rfl
  · exact nobody x (Option.mem_toList.mp own)

/-- A step that writes nothing of its own is calm. -/
theorem take_calm (found : b.circuits.get? n = some c) {d : Circuit.Deed}
    (untold : d.writes? n c b.now = none) : Calm b (take ring n (c.undergo b.now d) b) := by
  rw [take_eq_follow, ← perform_of_untold untold]
  exact (perform_calm found (by simp [untold])).trans (follow_calm calm _ _ _)

theorem allow_none_calm (n : Name) (b : Board) : Calm b (allow ring none n b).1 := by
  cases found : b.circuits.get? n with
  | none => simp only [allow, found]; exact .refl
  | some c =>
      have asked : Calm b (b.perform n c (.ask none)) :=
        perform_calm found (by simp [Circuit.Deed.writes?, Entry.call?])
      exact asked.trans (allow_calm_of_ring calm none found)

theorem report_none_calm (n : Name) (r : Report) (b : Board) :
    Calm b (report ring none n r b) := by
  cases found : b.circuits.get? n with
  | none => simp only [report, found]; exact .refl
  | some c =>
      have told : Calm b (b.perform n c (.absorb none r)) :=
        perform_calm found (by simp [Circuit.Deed.writes?, Entry.call?])
      exact told.trans (report_calm_of_ring calm none r found)

theorem allowMany_calm (n : Name) (askers : Nat) (b : Board) :
    Calm b (allowMany ring n askers b).1 := by
  induction askers generalizing b with
  | zero => exact .refl
  | succ askers ih => exact (allow_none_calm calm n b).trans (ih _)

theorem reportMany_calm (n : Name) (r : Report) (times : Nat) (b : Board) :
    Calm b (reportMany ring n r times b) := by
  induction times generalizing b with
  | zero => exact .refl
  | succ times ih => exact (report_none_calm calm n r b).trans (ih _)

/-- To serve a request is calm. -/
theorem serve_calm_of_ring (n : Name) (request : Request) (b : Board) :
    Calm b (serve ring n request b).1 := by
  unfold serve
  split
  · exact .refl
  · next c found =>
      cases request with
      | allow => exact allow_none_calm calm n b
      | isOpen => exact take_calm calm found (d := .look) rfl
      | state => exact .refl
      | tally => exact perform_calm found (d := .read) (by simp [Circuit.Deed.writes?])
      | forceOpen => exact take_calm calm found (d := .forceOpen) rfl
      | forceClosed => exact take_calm calm found (d := .forceClosed) rfl
      | name => exact .refl
      | describe => exact .refl
      | report outcome times took start => exact reportMany_calm calm n _ times b
      | allowMany askers => exact allowMany_calm calm n askers b

/-- An action of a hook is calm. -/
theorem act_calm (n : Name) (b : Board) (action : Action) : Calm b (act ring n b action) := by
  cases action with
  | request text r => exact (serve_calm_of_ring calm n r b).note rfl rfl
  | set text occasion label actions => exact (Course.setHook _ _ .refl).note rfl rfl
  | unclear text => exact .note .refl rfl rfl

/-- The actions of a hook are calm, by induction on their list. -/
theorem foldl_act_calm (n : Name) (actions : List Action) (b : Board) :
    Calm b (actions.foldl (act ring n) b) := by
  induction actions generalizing b with
  | nil => exact .refl
  | cons action rest ih => exact (act_calm calm n b action).trans (ih _)

end Calm

end Requests

/-! ### Hooks, level by level -/

/-- Calling a hook is calm on every level: its actions call hooks of the level
below. -/
theorem ring_calm (level : Nat) (o : Occasion) (n : Name) (r : Option Report) (b : Board) :
    Calm b (ring level o n r b) := by
  induction level generalizing o n r b with
  | zero =>
      unfold ring
      split
      · exact .refl
      · exact .note .refl rfl rfl
  | succ below ih =>
      unfold ring
      split
      · exact .refl
      · next hook _ =>
          have noted : Calm b (b.note (.hook hook.label n r)) := .note .refl rfl rfl
          exact noted.trans (foldl_act_calm ih n _ _)

def moveAt (level : Nat) (b : Board) : Move → Board × Reply
  | .advance d => (b.advance d, .done)
  | .setHook occasion hook => (b.setHook occasion hook, .done)
  | .request n r => serve (ring level) n r b

def runAt (level : Nat) (b : Board) (moves : List Move) : Board :=
  moves.foldl (fun b m => (b.moveAt level m).1) b

theorem move_eq_moveAt (b : Board) (m : Move) : b.move m = b.moveAt 3 m := by cases m <;> rfl

theorem run_eq_runAt (b : Board) (moves : List Move) : b.run moves = b.runAt 3 moves := by
  simp only [run, runAt, move_eq_moveAt]

/-- A move is a course, but for the time that it may take. -/
theorem moveAt_calm (level : Nat) (b : Board) (m : Move) :
    (∃ d, m = .advance d) ∨ Calm b (b.moveAt level m).1 := by
  cases m with
  | advance d => exact .inl ⟨d, rfl⟩
  | setHook occasion hook => exact .inr (.setHook _ _ .refl)
  | request n r => exact .inr (serve_calm_of_ring (ring_calm level) n r b)

end Board

/-! ### Journals note by note -/

/-- Every note of a journal is well judged in view of the notes before it. -/
def Historic (judge : Note → List Note → Prop) : List Note → Prop
  | [] => True
  | x :: earlier => judge x earlier ∧ Historic judge earlier

/-- A judge that never objects finds any journal historic. -/
theorem Historic.of_forall {judge : Note → List Note → Prop} {journal : List Note}
    (just : ∀ x ∈ journal, ∀ earlier, judge x earlier) : Historic judge journal := by
  induction journal with
  | nil => trivial
  | cons x rest ih =>
      have before := ih fun y among => just y (List.mem_cons_of_mem _ among)
      exact ⟨just x List.mem_cons_self rest, before⟩

/-- The past of a historic journal is historic. -/
theorem Historic.earlier {judge : Note → List Note → Prop} {earlier journal : List Note}
    (historic : Historic judge journal) (past : earlier <:+ journal) : Historic judge earlier := by
  obtain ⟨later, rfl⟩ := past
  induction later with
  | nil => exact historic
  | cons y rest ih => exact ih historic.2

/-- Every note of a historic journal is judged well, in view of those before it. -/
theorem Historic.judged {judge : Note → List Note → Prop} {later earlier : List Note} {x : Note}
    (historic : Historic judge (later ++ x :: earlier)) : judge x earlier :=
  (historic.earlier (List.suffix_append _ _)).1

/-! ### One circuit over a run -/

/-- What is known of the circuit of a command, of the time and of the journal, and is
kept whatever happens. -/
structure Circuit.Invariant (n : Name) (holds : Circuit → Instant → List Note → Prop) : Prop where
  /-- A note that is not about the circuit. -/
  aside : ∀ c now journal x, x.circuit? ≠ some n → holds c now journal →
    holds c now (⟨now, x⟩ :: journal)
  deed : ∀ c now journal (d : Deed), holds c now journal →
    holds (c.undergo now d).circuit now ((d.entries n c now).map (Note.mk now) ++ journal)
  pass : ∀ c now journal (d : Duration), holds c now journal → holds c (now.later d) journal

namespace Circuit.Invariant

variable {n : Name} {holds : Circuit → Instant → List Note → Prop} {b b' : Board}

/-- The command has a circuit of which the invariant holds. -/
def On (n : Name) (holds : Circuit → Instant → List Note → Prop) (b : Board) : Prop :=
  ∃ c, b.circuits.get? n = some c ∧ holds c b.now b.journal

/-- Notes about other circuits leave what holds of a circuit. -/
theorem asides (invariant : Invariant n holds) {c : Circuit} {now : Instant} {entries : List Entry}
    {journal : List Note} (others : ∀ x ∈ entries, x.circuit? ≠ some n)
    (here : holds c now journal) : holds c now (entries.map (Note.mk now) ++ journal) := by
  induction entries with
  | nil => exact here
  | cons x rest ih =>
      exact invariant.aside _ _ _ _ (others x List.mem_cons_self)
        (ih fun y later => others y (List.mem_cons_of_mem _ later))

/-- What every note keeps up is kept up by a whole course. -/
theorem course (invariant : Invariant n holds) {kind : Entry → Prop}
    (course : Board.Course kind b b') (before : On n holds b) : On n holds b' := by
  induction course with
  | refl => exact before
  | note _ _ aside ih =>
      obtain ⟨c, found, here⟩ := ih
      exact ⟨c, found, invariant.aside _ _ _ _ (by simp [aside]) here⟩
  | setHook _ _ _ ih => exact ih
  | @deed b' m c d _ known _ ih =>
      obtain ⟨c', found, here⟩ := ih
      by_cases same : m = n
      · subst same
        obtain rfl := Option.some.inj (known.symm.trans found)
        exact ⟨_, Roster.get?_put_self _ _ _, invariant.deed _ _ _ _ here⟩
      · refine ⟨c', (Roster.get?_put_of_ne _ _ same).trans found, invariant.asides ?_ here⟩
        intro x told about
        rw [Deed.circuit?_of_mem_entries told] at about
        exact same (Option.some.inj about)

/-- After every run of a board the invariant holds. -/
theorem runAt (invariant : Invariant n holds) (before : On n holds b) (level : Nat)
    (moves : List Board.Move) : On n holds (b.runAt level moves) := by
  induction moves generalizing b with
  | nil => exact before
  | cons m rest ih =>
      refine ih ?_
      rcases b.moveAt_calm level m with ⟨d, rfl⟩ | calm
      · obtain ⟨c, found, here⟩ := before
        exact ⟨c, found, invariant.pass _ _ _ d here⟩
      · exact invariant.course calm before

end Circuit.Invariant

end Bulwark
