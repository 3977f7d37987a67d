import Bulwark.Proofs.Habit

/-!
Who writes into the journal.

In a turn of a call only that call is told of, apart from calls that are made
anew. And where a hook listens to reports, it is called for each report of a
call before anything else is told of that call (`Board.Speaks`). Every turn and
every step keeps to this (`Next.spoken`).

* `Says.tale`: a turn of one call changes nothing in the tale of another.
* `Next.own_turn`: nothing new is told of a call but in a turn of its own.
* `Leads.heeded`: from the moment on that a hook listens to reports, it hears
  every report of every call.
* `Leads.recorded`: a report of a call that the journal tells of was recorded in
  the window of its command when it was told.
-/

namespace Bulwark

/-- A call reports to no circuit but that of its command. -/
def Entry.Addressed (x : Entry) : Prop := ∀ n j r, x = .recorded n (some j) r → n = j.command

/-- In a part of the journal, newest first, each report of a call is followed by a
call of a hook with that report, before anything else is told of the call. -/
def Echoed (part : List Note) : Prop :=
  ∀ later at_ k r earlier, part = later ++ ⟨at_, .recorded k.command (some k) r⟩ :: earlier →
    ∃ after heard label between,
      later = after ++ ⟨heard, .hook label k.command (some r)⟩ :: between ∧
        ∀ n ∈ between, n.entry.call? ≠ some k

theorem echoed_of_unrecorded {part : List Note}
    (unrecorded : ∀ n ∈ part, ∀ m k r, n.entry ≠ .recorded m (some k) r) : Echoed part := by
  intro later at_ k r earlier split
  have member : (⟨at_, .recorded k.command (some k) r⟩ : Note) ∈ part := by simp [split]
  exact absurd rfl (unrecorded _ member _ _ _)

/-- Parts of a journal in which each report is echoed make one such part. -/
theorem Echoed.append {late early : List Note} (second : Echoed late) (first : Echoed early) :
    Echoed (late ++ early) := by
  intro later at_ k r earlier split
  rcases List.append_eq_append_iff.mp split with ⟨middle, rfl, rest⟩ | ⟨middle, here, rest⟩
  · obtain ⟨after, heard, label, between, rfl, silent⟩ := first middle at_ k r earlier rest
    exact ⟨late ++ after, heard, label, between, by simp, silent⟩
  · cases middle with
    | nil =>
        simp only [List.nil_append] at rest
        obtain ⟨after, heard, label, between, none_, _⟩ :=
          first [] at_ k r earlier (by simp [← rest])
        simp at none_
    | cons n middle =>
        obtain ⟨rfl, _⟩ := List.cons.inj rest
        exact second later at_ k r middle here

/-- A report of a call that a hook heard, with nothing else told of any call. -/
theorem echoed_report {late early : List Note} {k : CallKey} {r : Report} {label : String}
    (quiet : ∀ n ∈ late, n.entry.call? = none) (before : ∀ n ∈ early, n.entry.call? = none)
    (heard told : Instant) :
    Echoed (late ++ ⟨heard, .hook label k.command (some r)⟩ :: early ++
      [⟨told, .recorded k.command (some k) r⟩]) := by
  intro later at_ i s earlier split
  have silent : ∀ n ∈ late ++ ⟨heard, .hook label k.command (some r)⟩ :: early,
      n.entry.call? = none := by
    intro n member
    rcases List.mem_append.mp member with here | here
    · exact quiet n here
    · rcases List.mem_cons.mp here with rfl | here
      · rfl
      · exact before n here
  -- All other notes are of nobody, so the report is the oldest one.
  have last : later = late ++ ⟨heard, .hook label k.command (some r)⟩ :: early ∧
      (⟨at_, .recorded i.command (some i) s⟩ : Note) = ⟨told, .recorded k.command (some k) r⟩ := by
    rcases List.append_eq_append_iff.mp split with ⟨middle, rfl, rest⟩ | ⟨middle, here, rest⟩
    · cases middle with
      | nil => exact ⟨by simp, (List.cons.inj rest).1.symm⟩
      | cons n middle => simp at rest
    · cases middle with
      | nil => exact ⟨by simpa using here.symm, (List.cons.inj rest).1⟩
      | cons n middle =>
          obtain ⟨rfl, _⟩ := List.cons.inj rest
          have nobody := silent ⟨at_, .recorded i.command (some i) s⟩ (by rw [here]; simp)
          simp [Entry.call?] at nobody
  obtain ⟨rfl, same⟩ := last
  obtain ⟨rfl, ⟨_, rfl, rfl⟩⟩ : at_ = told ∧ i.command = k.command ∧ i = k ∧ s = r := by
    simpa using same
  exact ⟨late, heard, label, early, rfl, fun n member => by simp [before n member]⟩

namespace Board

/-- What happened between two boards is told of one call, of nobody, or of calls
that were made, and a hook that listens to reports heard them all. -/
structure Speaks (k : CallKey) (b b' : Board) : Prop where
  trail : Trail (fun x => x.Concerns k ∧ x.Addressed) b b'
  heard : (b.hooks.get? .reported).isSome → ∃ new, b'.journal = new ++ b.journal ∧ Echoed new

variable {k : CallKey} {b b' b'' : Board}

namespace Speaks

theorem refl (k : CallKey) (b : Board) : Speaks k b b :=
  ⟨.refl, fun _ => ⟨[], rfl, echoed_of_unrecorded (by simp)⟩⟩

theorem trans (first : Speaks k b b') (second : Speaks k b' b'') : Speaks k b b'' := by
  refine ⟨first.trail.trans second.trail, ?_⟩
  intro listens
  obtain ⟨early, grown, heard⟩ := first.heard listens
  obtain ⟨late, regrown, reheard⟩ := second.heard (first.trail.hooks _ listens)
  exact ⟨late ++ early, by rw [regrown, grown, List.append_assoc], reheard.append heard⟩

theorem note {x : Entry} (about : x.Concerns k)
    (unrecorded : ∀ n caller r, x ≠ .recorded n caller r) : Speaks k b (b.note x) := by
  have addressed : x.Addressed := fun n j r same => absurd same (unrecorded n (some j) r)
  refine ⟨.note .refl ⟨about, addressed⟩ unrecorded, fun _ => ⟨[⟨b.now, x⟩], rfl, ?_⟩⟩
  apply echoed_of_unrecorded
  simpa using fun n j r => unrecorded n (some j) r

/-- What names no call lets a call speak. -/
theorem of_quiet (quiet : Quiet b b') : Speaks k b b' := by
  constructor
  case trail =>
    apply quiet.mono
    intro x nobody
    refine ⟨.inl nobody, fun n j r same => ?_⟩
    simp [same, Entry.call?] at nobody
  case heard =>
    intro _
    obtain ⟨new, grown, silent⟩ := quiet.journal
    refine ⟨new, grown, echoed_of_unrecorded fun n member m j r same => ?_⟩
    have nobody := silent n member
    simp [same, Entry.call?] at nobody

end Speaks

/-- Where a hook listens to reports, a report of a call is followed by a call of that
hook. -/
theorem echoed_of_report (k : CallKey) (r : Report) {c : Circuit}
    (found : b.circuits.get? k.command = some c) (listens : (b.hooks.get? .reported).isSome) :
    ∃ new, (report bell (some k) k.command r b).journal = new ++ b.journal ∧ Echoed new := by
  simp only [report, found]
  have taken : Quiet (b.absorb k.command (some k) r c) (take bell k.command
      (c.absorb r.outcome b.now) (b.note (.recorded k.command (some k) r))) :=
    take_quiet (some k) r
  -- The news of the circuit have been told, and the hook of the report is next.
  generalize take bell k.command (c.absorb r.outcome b.now)
    (b.note (.recorded k.command (some k) r)) = told at taken
  obtain ⟨early, grown, silent⟩ := taken.journal
  obtain ⟨hook, set⟩ := Option.isSome_iff_exists.mp (taken.hooks _ listens)
  have called : bell .reported k.command (some r) told =
      hook.actions.foldl (act (ring 2) k.command)
        (told.note (.hook hook.label k.command (some r))) := by
    simp only [bell, ring, set]
  have acted := foldl_act_quiet 2 k.command hook.actions
    (told.note (.hook hook.label k.command (some r)))
  obtain ⟨late, last, resilent⟩ := acted.journal
  refine ⟨late ++ ⟨told.now, .hook hook.label k.command (some r)⟩ :: early ++
    [⟨b.now, .recorded k.command (some k) r⟩], ?_, ?_⟩
  · rw [called, last, Board.note, grown]
    simp [absorb, Board.note, putCircuit]
  · exact echoed_report resilent silent _ _

/-- A report of a call is told of that call, and then the hook that listens to
reports is called. -/
theorem speaks_report (k : CallKey) (r : Report) (b : Board) :
    Speaks k b (report bell (some k) k.command r b) := by
  cases found : b.circuits.get? k.command with
  | none => simpa only [report, found] using Speaks.refl k b
  | some c =>
      have own : (Entry.recorded k.command (some k) r).Addressed := by
        rintro n j s ⟨⟩
        rfl
      have told : Trail (fun x => x.Concerns k ∧ x.Addressed) b
          (b.absorb k.command (some k) r c) := .record .refl found ⟨.inr (.inl rfl), own⟩
      have rest := (Speaks.of_quiet (k := k) (report_quiet 3 (some k) r found)).trail
      exact ⟨told.trans rest, echoed_of_report k r found⟩

end Board

namespace Engine

/-- What happened between two engines is told of one call, of nobody, or of calls
that were made, and a hook that listens to reports heard them all. -/
def Says (k : CallKey) (e e' : Engine) : Prop := e.board.Speaks k e'.board

namespace Says

variable {k : CallKey} {e e' e'' : Engine}

theorem refl (k : CallKey) (e : Engine) : Says k e e := Board.Speaks.refl k e.board

theorem trans (first : Says k e e') (second : Says k e' e'') : Says k e e'' :=
  Board.Speaks.trans first second

theorem of_board (spoken : Says k e e') (same : e''.board = e'.board) : Says k e e'' := by
  unfold Says
  rw [same]
  exact spoken

theorem note (spoken : Says k e e') {x : Entry} (about : x.Concerns k)
    (unrecorded : ∀ n caller r, x ≠ .recorded n caller r) : Says k e (e'.note x) :=
  spoken.trans (Board.Speaks.note about unrecorded)

/-- A call that reports speaks for itself. -/
theorem report (spoken : Says k e e') (outcome : Outcome) (took : Duration) :
    Says k e (e'.report k outcome took) := by
  apply spoken.trans
  unfold Engine.report
  split
  · exact refl k e'
  · exact Board.speaks_report k _ _

theorem ask (spoken : Says k e e') : Says k e (e'.ask k).1 := by
  apply spoken.trans
  cases found : e'.board.circuits.get? k.command with
  | none => simpa only [Says, Engine.ask, Board.allow, found] using Board.Speaks.refl k e'.board
  | some c =>
      have asked := (refl k e').note (x := .asked k.command (some k) c.state
        (c.allow e'.now).answer) (.inr (.inl rfl)) (by simp)
      exact asked.trans (.of_quiet (Board.allow_quiet 3 (some k) found))

theorem create (spoken : Says k e e') (n : Name) : Says k e (e'.create n).1 := by
  apply spoken.trans
  unfold Engine.create
  split
  · exact refl k e'
  · dsimp only
    split
    · exact refl k e'
    · exact .of_quiet ((Board.Trail.equip n _ .refl).note rfl (by simp))

/-! ### Turns and steps -/

/-- Whatever a turn of a call does, it says so. -/
theorem habit (k : CallKey) (e : Engine) : Habit k (Says k e) fun _ => True where
  congr _ _ spoken same _ _ := spoken.of_board same
  note _ x spoken plain := by
    refine spoken.note plain.concerns fun n caller r told => ?_
    have aside := plain.aside
    simp [told, Entry.circuit?] at aside
  create _ n spoken := spoken.create n
  lasting := .always k
  embark _ _ spoken _ := ⟨spoken.note (.inr (.inl rfl)) (by simp), trivial⟩
  ask _ spoken := spoken.ask
  grant _ _ _ := trivial
  report _ o took spoken _ := spoken.report o took

theorem served (k : CallKey) (e : Engine) : Served (Says k e) where
  serve _ n request spoken := spoken.trans (.of_quiet (Board.serve_quiet n request _))
  setHook _ _ _ spoken := spoken.trans (.of_quiet (.setHook _ _ .refl))

theorem play (spoken : Says k e e') (stage : Stage) (s : Script) :
    Says k e (e'.play k stage s).1 := (habit k e).play spoken stage s

theorem playRescue (spoken : Says k e e') (cause : CallError) (took : Duration) (s : Script) :
    Says k e (e'.playRescue k cause took s) := (habit k e).playRescue spoken cause took s

theorem resolve (spoken : Says k e e') (cause : CallError) (took : Duration) :
    Says k e (e'.resolve k cause took) := (habit k e).resolve spoken cause took

theorem playOperation (spoken : Says k e e') (since : Instant) (s : Script) :
    Says k e (e'.playOperation k since s) := (habit k e).playOperation spoken trivial since s

theorem hold (spoken : Says k e e') (operation : Script) : Says k e (e'.hold k operation) :=
  (habit k e).hold spoken operation

theorem goOn (spoken : Says k e e') : Says k e (e'.goOn k) :=
  (habit k e).goOn spoken fun _ _ _ _ => trivial

theorem pollWatch (spoken : Says k e e') : Says k e (e'.pollWatch k) :=
  (habit k e).pollWatch spoken fun _ _ _ _ => trivial

theorem pollCode (spoken : Says k e e') (stage : Stage) : Says k e (e'.pollCode k stage) :=
  (habit k e).pollCode spoken stage fun _ _ _ => trivial

theorem launch (spoken : Says k e e') (spec : CallSpec Script) : Says k e (e'.launch spec) :=
  (habit k e).launch spoken spec

theorem begin (spoken : Says k e e') {s : Step} (still : ∀ d, s ≠ .advance d) :
    Says k e (e'.begin s).1 :=
  (habit k e).begin spoken (served k e) still fun _ _ => spoken.of_board rfl

/-- The tales of other calls go on as they were. -/
theorem tale {i : CallKey} (spoken : Says k e e') (other : i ≠ k) :
    (e'.tale i).beats = (e.tale i).beats ∧ (e'.tale i).starts = (e.tale i).starts ∧
      (e'.tale i).ends = (e.tale i).ends := by
  obtain ⟨new, grown, about⟩ := spoken.trail.journal
  simp only [Engine.tale, grown]
  clear grown
  induction new with
  | nil => exact ⟨rfl, rfl, rfl⟩
  | cons n rest ih =>
      have same := ih fun m member => about m (List.mem_cons_of_mem _ member)
      simp only [List.cons_append, Tale.of]
      split
      · next mine =>
          rcases (about n List.mem_cons_self).1 with nobody | self | ⟨j, id, rescuable, made⟩
          · simp [nobody] at mine
          · exact absurd (Option.some.inj (mine.symm.trans self)) other
          · rw [made]
            exact same
      · exact same

end Says

/-! ### Runs -/

variable {e e' : Engine}

/-- Each event is told of one call at most, but for calls that are made, or lets time
pass. -/
theorem Next.spoken (event : Next e e') : (∃ k, Says k e e') ∨ ∃ t, e' = e.setNow t := by
  cases event with
  | begin still => exact .inl ⟨default, (Says.refl default e).begin still⟩
  | take queued =>
      next before after u =>
      have start : ∀ k, Says k e { e with queue := before ++ after } := fun k => .refl k e
      rcases u with spec | ⟨k, stage | _⟩
      · exact .inl ⟨default, (start default).launch spec⟩
      · exact .inl ⟨k, (start k).pollCode stage⟩
      · exact .inl ⟨k, (start k).pollWatch⟩
  | hold queued here work unclaimed =>
      next before after k c operation =>
      have start : Says k e { e with queue := before ++ after } := .refl k e
      exact .inl ⟨k, start.hold operation⟩
  | goOn here work => exact .inl ⟨_, (Says.refl _ e).goOn⟩
  | ring here alarm past =>
      exact .inl ⟨default, (Says.refl default e).of_board (board_updateCall ..)⟩
  | clock t => exact .inr ⟨t, rfl⟩

/-- Nothing new is told of a call but in a turn of its own, or when its worker goes
on that was held up. -/
theorem Next.own_turn (event : Next e e') (k : CallKey) :
    ((e'.tale k).beats = (e.tale k).beats ∧ (e'.tale k).starts = (e.tale k).starts ∧
      (e'.tale k).ends = (e.tale k).ends) ∨
    (∃ before after p, e.queue = before ++ .poll k p :: after ∧
      e' = ({ e with queue := before ++ after } : Engine).take (.poll k p)) ∨
    ∃ c answer operation, e.call? k = some c ∧ c.work = .asked answer operation ∧
      e' = e.goOn k := by
  -- Some other call, which an event that is no call's turn may be said to tell of.
  obtain ⟨i, other⟩ : ∃ i : CallKey, k ≠ i :=
    ⟨⟨k.command, k.number + 1⟩, fun same => by simpa using congrArg CallKey.number same⟩
  cases event with
  | begin still => exact .inl (((Says.refl i e).begin still).tale other)
  | take queued =>
      next before after u =>
      have start : ∀ j, Says j e { e with queue := before ++ after } := fun j => .refl j e
      rcases u with spec | ⟨j, p⟩
      · exact .inl (((start i).launch spec).tale other)
      · by_cases self : k = j
        · subst self
          exact .inr (.inl ⟨before, after, p, queued, rfl⟩)
        · rcases p with stage | _
          · exact .inl (((start j).pollCode stage).tale self)
          · exact .inl ((start j).pollWatch.tale self)
  | hold queued known work unclaimed =>
      apply Or.inl
      simp only [Engine.hold, tale_updateCall, tale_ask]
      exact ⟨rfl, rfl, rfl⟩
  | goOn known work =>
      next j d answer operation =>
      by_cases self : k = j
      · subst self
        exact .inr (.inr ⟨d, answer, operation, known, work, rfl⟩)
      · exact .inl ((Says.refl j e).goOn.tale self)
  | ring known alarm past =>
      apply Or.inl
      rw [tale_enqueue, tale_updateCall]
      exact ⟨rfl, rfl, rfl⟩
  | clock t => exact .inl ⟨rfl, rfl, rfl⟩

/-- A hook that listens to reports hears every report of every call from then on. -/
theorem Leads.heeded (run : Leads e e') (listens : (e.board.hooks.get? .reported).isSome) :
    (e'.board.hooks.get? .reported).isSome ∧
      ∃ new, e'.board.journal = new ++ e.board.journal ∧ Echoed new := by
  induction run with
  | refl => exact ⟨listens, [], rfl, echoed_of_unrecorded (by simp)⟩
  | next _ event ih =>
      obtain ⟨kept, early, grown, heard⟩ := ih
      rcases event.spoken with ⟨k, spoken⟩ | ⟨t, rfl⟩
      · obtain ⟨late, regrown, resounds⟩ := spoken.heard kept
        refine ⟨spoken.trail.hooks _ kept, late ++ early, ?_, resounds.append heard⟩
        rw [regrown, grown, List.append_assoc]
      · exact ⟨kept, early, grown, heard⟩

/-- On the way from one engine to another, in the middle of an event, an outcome was
recorded, at an instant and with the journal as it then stood. -/
def Recorded (e e' : Engine) (n : Name) (caller : Option CallKey) (r : Report) (t : Instant)
    (earlier : List Note) : Prop :=
  ∃ m m', Leads e m ∧ Next m m' ∧ Leads m' e' ∧
    m.board.Recorded (fun _ => True) m'.board n caller r t earlier

section Recorded

variable {k : CallKey} {n : Name} {r : Report} {t : Instant} {earlier : List Note}

theorem Recorded.next {caller : Option CallKey} (recorded : Recorded e e' n caller r t earlier)
    {e'' : Engine} (event : Next e' e'') : Recorded e e'' n caller r t earlier := by
  obtain ⟨m, m', before, at_, after, told⟩ := recorded
  exact ⟨m, m', before, at_, after.next event, told⟩

/-- A report that the journal tells of was recorded in the window of the command of the
call, when it was told. -/
theorem Leads.recorded (run : Leads e e') (since : e.board.journal <:+ earlier)
    (told : ⟨t, .recorded n (some k) r⟩ :: earlier <:+ e'.board.journal) :
    n = k.command ∧ Recorded e e' n (some k) r t earlier := by
  induction run with
  | refl =>
      have longer := told.length_le
      have shorter := since.length_le
      simp only [List.length_cons] at longer
      omega
  | @next m m' before event ih =>
      rcases event.spoken with ⟨j, spoken⟩ | ⟨_, rfl⟩
      · obtain ⟨new, grown, _⟩ := spoken.trail.journal
        have older : m.board.journal <:+ m'.board.journal := ⟨new, grown.symm⟩
        -- The report was told either before the event or by it.
        have timing : ⟨t, .recorded n (some k) r⟩ :: earlier <:+ m.board.journal ∨
            m.board.journal <:+ earlier := by
          rcases List.suffix_or_suffix_of_suffix told older with known | fresh
          · exact .inl known
          · rcases List.suffix_cons_iff.mp fresh with all | since
            · exact .inl (all ▸ List.suffix_rfl)
            · exact .inr since
        rcases timing with known | since
        · obtain ⟨own, recorded⟩ := ih known
          exact ⟨own, recorded.next event⟩
        · obtain ⟨later, whole⟩ := told
          obtain ⟨⟨_, addressed⟩, recorded⟩ := spoken.trail.recorded whole.symm since
          exact ⟨addressed n k r rfl, m, m', before, event, .refl, recorded.mono (by simp)⟩
      · obtain ⟨own, recorded⟩ := ih told
        exact ⟨own, recorded.next event⟩

end Recorded

end Engine

end Bulwark
