import Bulwark.Proofs.Outcomes
import Bulwark.Proofs.Pledges

/-!
What polls of a handle show, one after another.

A handle holds nothing until its call is resolved. An error is put into it then, and a success
closes it with nothing in it. A poll takes the error out, so the polls that come after find a
handle that is closed and empty, and take that for a success. Whatever else happens meanwhile
(`Engine.Meanwhile`) has no part in it: nobody but its holder touches a handle, and the verdict
of a call never changes once it has been delivered.

* `Engine.Meanwhile.spares`: what others do leaves a handle alone.
* `Engine.Reached.outcome?_lasting`: a verdict that was delivered stays.
* `Engine.Reached.readable`: polls show nothing until the call is resolved, then its verdict
  once, and `ok` from then on.
* `Engine.Readable.polled_run`: so it is for the polls of a schedule.
-/

namespace Bulwark

structure Reading where
  outcome : Option Verdict
  answer : Answer
  deriving DecidableEq, Repr

def Step.polls (id : String) : Step → Bool
  | .poll other => other = id
  | _ => false

/-- A call has a verdict just when it was delivered. -/
theorem Resolution.delivered_iff {t : Tale} {claimed : Bool} {rescue : Rescue}
    {verdict : Option Verdict} (resolution : Resolution t claimed rescue verdict) (v : Verdict) :
    verdict = some v ↔ .delivered v ∈ t.beats := by
  cases resolution with
  | unclaimed _ blank => simp [blank]
  | succeeded _ _ _ beats => simp [beats, eq_comm]
  | denied _ _ beats => simp [beats, eq_comm]
  | rescuing _ _ beats => simp [beats]
  | rescued _ _ _ beats => simp [beats, eq_comm]
  | lost _ _ _ beats => simp [beats, eq_comm]

namespace Engine

def outcome? (e : Engine) (source : Source) : Option Verdict := e.verdict? { source := source }

def reading (e : Engine) (id : String) (source : Source) : Reading :=
  ⟨e.outcome? source, (e.begin (.poll id)).2⟩

/-- Something happens while the handle of a call is held: its holder does not poll it and keeps
it, and no task makes a call under the same id. -/
inductive Meanwhile (id : String) : Engine → Engine → Prop where
  /-- A caller does something, but not with this handle. -/
  | begin (e : Engine) {s : Step} : (∀ d, s ≠ .advance d) → s.handle? ≠ some id →
      Meanwhile id e (e.begin s).1
  /-- The holder waits for the verdict in vain. -/
  | wait {e : Engine} : (e.begin (.await id)).2 = .nothing →
      Meanwhile id e (e.begin (.await id)).1
  /-- A task takes its turn, but none that would put another handle under the id. -/
  | take {e : Engine} {before after : List Turn} {u : Turn} : e.queue = before ++ u :: after →
      (∀ spec, u = .launch spec → spec.id ≠ id) →
        Meanwhile id e (({ e with queue := before ++ after } : Engine).take u)
  | hold {e : Engine} {before after : List Turn} {k : CallKey} {c : Call} {operation : Script} :
      e.queue = before ++ .poll k (.code .operation) :: after → e.call? k = some c →
      c.work = .queued operation → c.claimed = false →
      Meanwhile id e (({ e with queue := before ++ after } : Engine).hold k operation)
  | goOn {e : Engine} {k : CallKey} {c : Call} {answer : Bool} {operation : Script} :
      e.call? k = some c → c.work = .asked answer operation → Meanwhile id e (e.goOn k)
  | ring {e : Engine} {k : CallKey} {c : Call} {due : Instant} {p : Part} :
      e.call? k = some c → (due, p) ∈ c.alarms → due.nanos ≤ e.now.nanos →
      Meanwhile id e ((e.updateCall k (·.ring p)).enqueue (.poll k p))
  | clock (e : Engine) (t : Instant) : Meanwhile id e (e.setNow t)

/-- A run during which a handle is held, with what was read by polling it, oldest first. -/
inductive Watched (id : String) (source : Source) (e : Engine) : List Reading → Engine → Prop where
  | start : Watched id source e [] e
  | meanwhile {seen : List Reading} {e' e'' : Engine} : Watched id source e seen e' →
      Meanwhile id e' e'' → Watched id source e seen e''
  | poll {seen : List Reading} {e' : Engine} : Watched id source e seen e' →
      Watched id source e (seen ++ [e'.reading id source]) (e'.begin (.poll id)).1

variable {e e' e'' : Engine} {id : String} {source : Source} {seen more : List Reading}

/-- What happens while nobody reads a handle is an event. -/
theorem Meanwhile.next (event : Meanwhile id e e') : Next e e' := by
  cases event with
  | begin still _ => exact .begin e still
  | wait _ => exact .begin e (by simp)
  | take queued _ => exact .take queued
  | hold queued here work unclaimed => exact .hold queued here work unclaimed
  | goOn here work => exact .goOn here work
  | ring here alarm past => exact .ring here alarm past
  | clock t => exact .clock e t

theorem Watched.trans (first : Watched id source e seen e')
    (second : Watched id source e' more e'') : Watched id source e (seen ++ more) e'' := by
  induction second with
  | start =>
      rw [List.append_nil]
      exact first
  | meanwhile _ event ih => exact ih.meanwhile event
  | poll _ ih =>
      rw [← List.append_assoc]
      exact ih.poll

/-- A run during which a handle is held is a run. -/
theorem Watched.leads (watched : Watched id source e seen e') : Leads e e' := by
  induction watched with
  | start => exact .refl
  | meanwhile _ event ih => exact ih.next event.next
  | poll _ ih => exact ih.next (.begin _ (by simp))

/-! ### Nobody else touches a handle -/

/-- A handle is left alone, and no further call is about to be made under its id. -/
structure Spares (id : String) (e e' : Engine) : Prop where
  handle : e'.handles.get? id = e.handles.get? id
  launches : ∀ spec, .launch spec ∈ e'.queue → .launch spec ∈ e.queue ∨ spec.id ≠ id

namespace Spares

theorem refl (id : String) (e : Engine) : Spares id e e := ⟨rfl, fun _ => .inl⟩

theorem trans (first : Spares id e e') (second : Spares id e' e'') : Spares id e e'' where
  handle := second.handle.trans first.handle
  launches spec waits := by
    rcases second.launches spec waits with here | apart
    · exact first.launches spec here
    · exact .inr apart

/-- What neither touches handles nor has calls made spares every handle. -/
theorem of_framed (twin : Twin (framing e.queue e.handles) e' e'') : Spares id e e' where
  handle := by
    have handles : e'.handles = e.handles := twin.handles
    rw [handles]
  launches spec waits := by
    obtain ⟨turns, queue, calm⟩ := twin.queue
    refine .inl ((List.mem_append.mp ?_).resolve_right (calm spec))
    rw [← queue]
    exact waits

theorem dequeue {before after : List Turn} {u : Turn} (queued : e.queue = before ++ u :: after) :
    Spares id e { e with queue := before ++ after } where
  handle := rfl
  launches spec waits := by
    rw [queued]
    refine .inl (List.mem_append.mpr ((List.mem_append.mp waits).imp_right ?_))
    exact List.mem_cons_of_mem _

theorem startCall (e : Engine) {spec : CallSpec Script} (apart : spec.id ≠ id) :
    Spares id e (e.startCall spec) := by
  obtain ⟨⟨turns, queue, own⟩, h, handles⟩ := e.exists_started spec
  refine ⟨?_, fun other waits => ?_⟩
  · rw [handles, Roster.get?_put_of_ne _ _ apart]
  · rw [queue] at waits
    rcases List.mem_append.mp waits with old | new
    · exact .inl old
    · exact .inr (own other new ▸ apart)

theorem startCalls (e : Engine) {specs : List (CallSpec Script)}
    (apart : ∀ spec ∈ specs, spec.id ≠ id) : Spares id e (specs.foldl Engine.startCall e) := by
  induction specs generalizing e with
  | nil => exact .refl id e
  | cons spec rest ih =>
      obtain ⟨first, later⟩ := List.forall_mem_cons.mp apart
      exact (startCall e first).trans (ih _ later)

/-- Looking at another handle spares this one. -/
theorem look (e : Engine) {s : Step} {other : String} (looks : s.handle? = some other)
    (apart : other ≠ id) : Spares id e (e.begin s).1 := by
  obtain ⟨x, same, touched⟩ := e.exists_touched looks
  rw [same]
  exact ⟨touched.others id apart, fun _ => .inl⟩

/-- Under the id of a handle that is held no call is made. -/
theorem begin (held : e.handles.has id = true) {s : Step} (still : ∀ d, s ≠ .advance d)
    (apart : s.handle? ≠ some id) : Spares id e (e.begin s).1 := by
  -- An id whose handle is held is given to no other call.
  have differ : ∀ {spec : CallSpec Script}, e.handles.has spec.id = false → spec.id ≠ id := by
    rintro spec fresh rfl
    rw [held] at fresh
    cases fresh
  cases s with
  | call spec =>
      simp only [Engine.begin]
      split
      · exact .refl id e
      · next fresh => exact startCall e (differ (by simpa using fresh))
  | calls specs =>
      simp only [Engine.begin]
      split
      · exact .refl id e
      · next fresh =>
          simp only [Bool.or_eq_true, List.any_eq_true, not_or, not_exists, not_and,
            Bool.not_eq_true] at fresh
          exact startCalls e fun spec member => differ (fresh.1 spec member)
  | advance d => exact absurd rfl (still d)
  | finish other next =>
      have told : Spares id e (e.instruct other next).1 :=
        of_framed (e.framed.instruct other fun _ _ _ => .refl _ _ next).1
      simp only [Engine.begin]
      revert told
      rcases e.instruct other next with ⟨after, _ | _⟩ <;> exact fun told => told
  | poll other | await other | drop other =>
      exact look e rfl fun same => apart (congrArg some same)
  | _ => exact of_framed (e.framed.begin_of_request rfl rfl (by simp) (by simp)).1

end Spares

theorem handles_updateCall (e : Engine) (k : CallKey) (f : Call → Call) :
    (e.updateCall k f).handles = e.handles := by
  unfold updateCall updateDesk
  split <;> rfl

/-- Who waits in vain changes nothing. -/
theorem begin_await_of_nothing (vain : (e.begin (.await id)).2 = .nothing) :
    (e.begin (.await id)).1 = e := by
  revert vain
  simp only [begin, awaitHandle]
  repeat' split
  all_goals simp

/-- Whatever happens while a handle is held spares it. -/
theorem Meanwhile.spares (event : Meanwhile id e e') (held : e.handles.has id = true) :
    Spares id e e' := by
  cases event with
  | begin still apart => exact .begin held still apart
  | wait vain =>
      rw [begin_await_of_nothing vain]
      exact .refl id e
  | @take before after u queued apart =>
      refine (Spares.dequeue queued).trans ?_
      generalize ({ e with queue := before ++ after } : Engine) = m
      cases u with
      | poll k p => exact .of_framed (m.framed.poll k p)
      | launch spec =>
          obtain ⟨⟨turns, queue, calm⟩, h, handles⟩ := m.exists_launched spec
          refine ⟨(congrArg (Roster.get? · id) handles).trans
            (Roster.get?_put_of_ne _ _ (apart spec rfl)), fun other waits => .inl ?_⟩
          have added : .launch other ∈ m.queue ++ turns := queue ▸ waits
          exact (List.mem_append.mp added).resolve_right (calm other)
  | @hold before after k _ operation queued _ _ _ =>
      refine (Spares.dequeue queued).trans ⟨?_, fun spec waits => .inl ?_⟩
      · rw [Engine.hold, handles_updateCall]
        rfl
      · rwa [Engine.hold, queue_updateCall] at waits
  | @goOn k c answer operation here work =>
      have same : e.goOn k = e.enter k answer operation := by simp only [Engine.goOn, here, work]
      rw [same]
      exact .of_framed (e.framed.enter k answer (.refl _ _ operation))
  | @ring k _ _ p _ _ _ =>
      refine ⟨congrArg (Roster.get? · id) (handles_updateCall e k (·.ring p)), fun spec waits => ?_⟩
      have added : .launch spec ∈ e.queue ++ [.poll k p] := by
        rw [queue_enqueue, queue_updateCall] at waits
        exact waits
      exact .inl ((List.mem_append.mp added).resolve_right (by simp))
  | clock t => exact ⟨rfl, fun _ => .inl⟩

/-! ### A verdict that was delivered stays -/

/-- The journal only grows. -/
theorem Next.journal (event : Next e e') : e.board.journal <:+ e'.board.journal := by
  rcases event.spoken with ⟨k, spoken⟩ | ⟨t, rfl⟩
  · obtain ⟨new, grown, _⟩ := spoken.trail.journal
    exact ⟨new, grown.symm⟩
  · exact List.suffix_rfl

/-- The verdict of a call is the one that the journal says was delivered. -/
theorem Reached.delivered_iff (reached : e.Reached) (k : CallKey) (v : Verdict) :
    e.outcome? (.call k) = some v ↔ .delivered v ∈ (e.tale k).beats := by
  have ordered := reached.ordered
  cases here : e.call? k with
  | none => simp [outcome?, verdict?, here, ordered.orderly.blank k here]
  | some c =>
      have known : e.outcome? (.call k) = c.verdict := by simp [outcome?, verdict?, here]
      rw [known]
      exact (ordered.kept k c (by simp) here).resolution.delivered_iff v

/-- The outcome of a call lasts. -/
theorem Reached.outcome?_lasting (reached : e.Reached) (event : Next e e') {v : Verdict}
    (known : e.outcome? source = some v) : e'.outcome? source = some v := by
  cases source with
  | pending => cases known
  | failed error => exact known
  | call k =>
      have after : e'.Reached := reached.leads (.single event)
      have grown := Tale.beats_of_earlier event.journal k
      exact (after.delivered_iff k v).mpr
        (grown.subset ((reached.delivered_iff k v).mp known))

/-! ### One poll after another -/

/-- What polls of a handle show: nothing, or nothing up to some poll, which showed the verdict,
and `ok` after that. -/
inductive Showed : Option Verdict → List Reading → Prop where
  | waiting (n : Nat) : Showed none (.replicate n ⟨none, .nothing⟩)
  | told (n : Nat) (v : Verdict) (m : Nat) : Showed (some v)
      (.replicate n ⟨none, .nothing⟩ ++
        ⟨some v, .verdict v⟩ :: .replicate m ⟨some v, .verdict .ok⟩)

/-- A handle that is held by the caller of a call, and the verdict that polls took out of it. -/
structure Held (e : Engine) (id : String) (source : Source) (taken : Option Verdict) : Prop where
  handle : e.handles.get? id = some { source := source, spent := taken.isSome }
  known : ∀ v, taken = some v → e.outcome? source = some v

namespace Held

variable {taken : Option Verdict}

theorem has (held : e.Held id source taken) : e.handles.has id = true := by
  rw [Roster.has, held.handle, Option.isSome_some]

theorem meanwhile (held : e.Held id source taken) (reached : e.Reached)
    (event : Meanwhile id e e') : e'.Held id source taken where
  handle := (event.spares held.has).handle.trans held.handle
  known v given := reached.outcome?_lasting event.next (held.known v given)

/-- A poll shows the verdict if none has, and takes it. -/
theorem poll (held : e.Held id source taken) (showed : Showed taken seen) :
    ∃ taken', (e.begin (.poll id)).1.Held id source taken' ∧
      Showed taken' (seen ++ [e.reading id source]) := by
  cases showed with
  | waiting n =>
      cases outcome : e.outcome? source with
      | none =>
          have polled : e.begin (.poll id) = (e, .nothing) := by
            have unknown : e.verdict? { source := source } = none := outcome
            simp [begin, pollHandle, held.handle, unknown]
          refine ⟨none, ?_, ?_⟩
          · rw [polled]
            exact held
          · rw [reading, polled, outcome, ← List.replicate_succ']
            exact .waiting (n + 1)
      | some v =>
          -- The poll that finds the outcome spends the handle.
          let spent := e.handles.put id { source := source, spent := true }
          have polled : e.begin (.poll id) = ({ e with handles := spent }, .verdict v) := by
            have known : e.verdict? { source := source } = some v := outcome
            simp [begin, pollHandle, held.handle, known, spent]
          refine ⟨some v, ⟨?_, fun w given => ?_⟩, ?_⟩
          · rw [polled]
            exact Roster.get?_put_self _ _ _
          · rw [polled, ← given]
            exact outcome
          · rw [reading, polled, outcome]
            exact .told n v 0
  | told n v m =>
      have polled : e.begin (.poll id) = (e, .verdict .ok) := by
        simp [begin, pollHandle, held.handle]
      refine ⟨some v, ?_, ?_⟩
      · rw [polled]
        exact held
      · rw [reading, polled, held.known v rfl, List.append_assoc, List.cons_append,
          ← List.replicate_succ']
        exact .told n v (m + 1)

/-- However often a handle is polled while it is held, it shows the verdict at most once. -/
theorem watched (held : e.Held id source none) (reached : e.Reached)
    (watched : Watched id source e seen e') :
    ∃ taken, e'.Held id source taken ∧ Showed taken seen := by
  induction watched with
  | start => exact ⟨none, held, .waiting 0⟩
  | meanwhile before event ih =>
      obtain ⟨taken, still, showed⟩ := ih
      exact ⟨taken, still.meanwhile (reached.leads before.leads) event, showed⟩
  | poll _ ih =>
      obtain ⟨taken, still, showed⟩ := ih
      exact still.poll showed

end Held

/-- What the holder of a handle has read by polling it. -/
structure Polled (e : Engine) (source : Source) (seen : List Reading) : Prop where
  /-- Before the call is resolved each poll shows nothing. Then one shows the verdict, and each
  poll after that shows `ok`. -/
  course : ∃ n, seen = .replicate n ⟨none, .nothing⟩ ∨
    ∃ v m, seen = .replicate n ⟨none, .nothing⟩ ++
      ⟨some v, .verdict v⟩ :: .replicate m ⟨some v, .verdict .ok⟩
  /-- So what was shown once is shown again only if it was `ok`. -/
  again : seen.Pairwise fun first second => ∀ v, first.answer = .verdict v →
    second.answer = .verdict .ok ∧ (second.answer = first.answer ↔ v = .ok)
  /-- A call is resolved when its verdict has been delivered. -/
  delivered : ∀ k v, source = .call k →
    (e.outcome? source = some v ↔ .delivered v ∈ (e.tale k).beats)

/-- After a verdict was shown, `ok` is. -/
theorem Showed.again {taken : Option Verdict} (showed : Showed taken seen) :
    seen.Pairwise fun first second => ∀ v, first.answer = .verdict v →
      second.answer = .verdict .ok ∧ (second.answer = first.answer ↔ v = .ok) := by
  cases showed with
  | waiting n => simp [List.pairwise_replicate]
  | told n w m =>
      simp only [List.pairwise_append, List.pairwise_cons, List.pairwise_replicate,
        List.mem_replicate, List.mem_cons]
      refine ⟨.inr (by simp), ⟨?_, .inr (by simp [eq_comm])⟩, ?_⟩
      · rintro second ⟨-, rfl⟩ v shown
        obtain rfl : w = v := by simpa using shown
        simp [eq_comm]
      · rintro first ⟨-, rfl⟩ second - v shown
        cases shown

/-! ### From the start of a call -/

/-- A source is a call that was made under the id, or tells why none could be. -/
structure Made (e : Engine) (id : String) (source : Source) : Prop where
  settled : source ≠ .pending
  issued : ∀ k, source = .call k →
    ∃ n ∈ e.board.journal, ∃ rescuable, n.entry = .issued k id rescuable

/-- The handle of a call that no task waits for, right after the call was started. -/
structure Readable (e : Engine) (id : String) (source : Source) : Prop where
  held : e.Held id source none
  made : e.Made id source
  /-- However often it is polled, and whatever happens in between, polls show this. -/
  polled : ∀ seen e', Watched id source e seen e' → e'.Polled source seen

theorem Held.readable_of_made (held : e.Held id source none) (reached : e.Reached)
    (made : e.Made id source) : e.Readable id source where
  held := held
  made := made
  polled seen e' watched := by
    obtain ⟨taken, _, showed⟩ := held.watched reached watched
    refine ⟨?_, showed.again, fun k v own => ?_⟩
    · cases showed with
      | waiting n => exact ⟨n, .inl rfl⟩
      | told n v m => exact ⟨n, .inr ⟨v, m, rfl⟩⟩
    · rw [own]
      exact (reached.leads watched.leads).delivered_iff k v

variable {spec : CallSpec Script}

/-- Starting a call that no task waits for leaves its handle with the caller. -/
theorem exists_held_startCall (e : Engine) (plain : spec.mode ≠ .awaited) :
    ∃ source, (e.startCall spec).Held spec.id source none ∧
      (e.startCall spec).Made spec.id source := by
  unfold startCall
  split
  · next awaited => exact absurd awaited plain
  · cases made : e.execute spec with
    | mk after answer =>
        cases answer with
        | error error =>
            exact ⟨.failed error, ⟨Roster.get?_put_self _ _ _, by simp⟩, by simp, by simp⟩
        | ok k =>
            obtain ⟨base, desk, -, -, -, rfl⟩ := execute_of_ok made
            refine ⟨.call k, ⟨Roster.get?_put_self _ _ _, by simp⟩, by simp, ?_⟩
            rintro _ ⟨⟩
            exact ⟨_, List.mem_cons_self, _, rfl⟩

/-- Of several calls each has its handle, as long as their ids differ. -/
theorem exists_held_startCalls (e : Engine) {specs : List (CallSpec Script)}
    (distinct : (specs.map (·.id)).Nodup) (member : spec ∈ specs) (plain : spec.mode ≠ .awaited) :
    ∃ source, (specs.foldl startCall e).Held spec.id source none ∧
      (specs.foldl startCall e).Made spec.id source := by
  obtain ⟨before, after, rfl⟩ := List.append_of_mem member
  rw [List.map_append, List.map_cons, List.nodup_append] at distinct
  have later : ∀ other ∈ after, other.id ≠ spec.id := fun other late same =>
    (List.nodup_cons.mp distinct.2.1).1 (same ▸ List.mem_map_of_mem late)
  rw [List.foldl_append, List.foldl_cons]
  generalize before.foldl startCall e = m
  obtain ⟨source, held, made⟩ := m.exists_held_startCall plain
  have spared := Spares.startCalls (m.startCall spec) later
  refine ⟨source, ⟨spared.handle.trans held.handle, by simp⟩, made.settled, fun k own => ?_⟩
  -- What the journal tells of the call is told still when the others have been started.
  have spoken := (Says.habit default (m.startCall spec)).startCalls (.refl _ _) after
  obtain ⟨new, grown, _⟩ := spoken.trail.journal
  obtain ⟨n, told, issued⟩ := made.issued k own
  exact ⟨n, grown ▸ List.mem_append_right new told, issued⟩

/-- In every run, and for every call that no task waits for: polls of its handle show nothing
until it is resolved, then its verdict once, and `ok` from then on. -/
theorem Reached.readable (reached : e.Reached) {s : Step} (started : (e.begin s).2 = .started)
    (member : spec ∈ s.specs) (plain : spec.mode ≠ .awaited) :
    ∃ source, (e.begin s).1.Readable spec.id source := by
  have still : ∀ d, s ≠ .advance d := by
    rintro d rfl
    cases member
  have after : (e.begin s).1.Reached := reached.leads (.single (.begin e still))
  obtain ⟨source, held, made⟩ : ∃ source, (e.begin s).1.Held spec.id source none ∧
      (e.begin s).1.Made spec.id source := by
    cases s with
    | call other =>
        obtain rfl := List.mem_singleton.mp member
        simp only [begin] at started ⊢
        split at started
        · cases started
        · next fresh =>
            rw [if_neg fresh]
            exact e.exists_held_startCall plain
    | calls specs =>
        simp only [begin] at started ⊢
        split at started
        · cases started
        · next fresh =>
            rw [if_neg fresh]
            simp only [Bool.or_eq_true, Bool.not_eq_true', decide_eq_false_iff_not, not_or,
              not_not] at fresh
            exact e.exists_held_startCalls fresh.2 member plain
    | _ => cases member
  exact ⟨source, held.readable_of_made after made⟩

/-! ### Polls of a schedule -/

/-- What the polls of a handle in a schedule find, oldest first. -/
def readings (id : String) (source : Source) : Engine → List Step → List Reading
  | _, [] => []
  | e, s :: rest =>
    (if s.polls id then [e.reading id source] else []) ++ readings id source (e.step s).1 rest

/-- A call that no task waits for is made at once. -/
theorem exists_queue_startCall (e : Engine) (plain : spec.mode ≠ .awaited) :
    ∃ turns, (e.startCall spec).queue = e.queue ++ turns ∧ NoLaunch turns := by
  unfold startCall
  split
  · next awaited => exact absurd awaited plain
  · exact (e.framed.execute (.refl _ spec)).1.queue

/-- A turn leaves those that were queued, and has no further call made. -/
theorem exists_queue_take (e : Engine) (u : Turn) :
    ∃ turns, (e.take u).queue = e.queue ++ turns ∧ NoLaunch turns := by
  cases u with
  | poll k p => exact (e.take_poll k p).1
  | launch spec => exact (e.exists_launched spec).1

/-- Turns that make no call under the id are taken while the handle is held. -/
theorem watched_settle (unlaunched : ∀ spec, .launch spec ∈ e.queue → spec.id ≠ id) (n : Nat) :
    Watched id source e [] (settle n e) := by
  induction n generalizing e with
  | zero => exact .start
  | succ n ih =>
      cases queued : e.queue with
      | nil =>
          rw [settle_of_queue_nil queued]
          exact .start
      | cons u rest =>
          have head : e.queue = [] ++ u :: rest := queued
          have apart : ∀ spec, u = .launch spec → spec.id ≠ id := fun spec same =>
            unlaunched spec (queued ▸ same ▸ List.mem_cons_self)
          have tail : ∀ spec, .launch spec ∈ rest → spec.id ≠ id := fun spec waits =>
            unlaunched spec (queued ▸ List.mem_cons_of_mem _ waits)
          have taken : Watched id source e [] (({ e with queue := rest } : Engine).take u) :=
            .meanwhile .start (.take head apart)
          simp only [settle, queued]
          refine taken.trans (ih fun spec waits => ?_)
          obtain ⟨turns, queue, calm⟩ := ({ e with queue := rest } : Engine).exists_queue_take u
          rw [queue] at waits
          exact tail spec ((List.mem_append.mp waits).resolve_right (calm spec))

/-- While a handle is waited for, nobody reads it. -/
theorem Ordered.watched_runUntil (ordered : e.Ordered .punctual none) (atRest : e.queue = [])
    (n : Nat) (t : Instant) : Watched id source e [] (Engine.runUntil n t e) := by
  induction n generalizing e with
  | zero => exact .meanwhile .start (.clock e t)
  | succ n ih =>
      unfold Engine.runUntil
      split
      · exact .meanwhile .start (.clock e t)
      · next a first =>
          split
          · obtain ⟨c, here, listed⟩ :=
              (mem_alarms_iff ordered.orderly.distinct).mp (Alarm.earliest_le first).1
            have fired : Watched id source e [] (e.fire a) :=
              .meanwhile (.meanwhile .start (.clock e a.due)) (.ring here listed (Int.le_refl _))
            have unlaunched : ∀ spec, .launch spec ∈ (e.fire a).queue → spec.id ≠ id := by
              intro spec waits
              rw [Engine.fire, queue_enqueue, queue_updateCall, queue_setNow, atRest] at waits
              simp at waits
            obtain ⟨rested, none_⟩ := (ordered.fire first).rest
            exact (fired.trans (watched_settle unlaunched _)).trans (ih rested none_)
          · exact .meanwhile .start (.clock e t)

/-- A step that leaves the handle with its holder, before anything goes on. -/
theorem Ordered.watched_begin (ordered : e.Ordered .ahead none) (atRest : e.queue = [])
    (held : e.handles.has id = true) {s : Step} (keeps : s ≠ .await id ∧ s ≠ .drop id) :
    Watched id source e (if s.polls id then [e.reading id source] else []) (e.begin s).1 ∧
      ∀ spec, .launch spec ∈ (e.begin s).1.queue → spec.id ≠ id := by
  by_cases polls : s = .poll id
  · subst polls
    have looks : (Step.poll id).handle? = some id := rfl
    obtain ⟨x, same, _⟩ := e.exists_touched looks
    have polled := Watched.poll (Watched.start : Watched id source e [] e)
    refine ⟨by simpa [Step.polls] using polled, fun spec waits => ?_⟩
    rw [same, atRest] at waits
    cases waits
  · have unpolled : s.polls id = false := by
      cases s <;> simp_all [Step.polls]
    have apart : s.handle? ≠ some id := by
      cases s <;> simp_all [Step.handle?]
    rw [unpolled]
    by_cases passes : ∃ d, s = .advance d
    · obtain ⟨d, rfl⟩ := passes
      have quiet := (ordered.punctual.runUntil atRest (Nat.le_refl e.turns) (e.now.later d)).2.1
      refine ⟨ordered.punctual.watched_runUntil atRest _ _, fun spec waits => ?_⟩
      rw [Engine.begin, advance, quiet] at waits
      cases waits
    · have still : ∀ d, s ≠ .advance d := fun d same => passes ⟨d, same⟩
      refine ⟨.meanwhile .start (.begin e still apart), fun spec waits => ?_⟩
      refine ((Spares.begin held still apart).launches spec waits).resolve_left fun old => ?_
      rw [atRest] at old
      cases old

/-- The polls of a schedule that leaves the handle with its holder are polls of a run. -/
theorem Held.watched_run (held : e.Held id source none) (reached : e.Reached)
    (watched : Watched id source e seen e') (ordered : e'.Ordered .ahead none)
    (atRest : e'.queue = []) {steps : List Step}
    (keeps : ∀ s ∈ steps, s ≠ .await id ∧ s ≠ .drop id) :
    Watched id source e (seen ++ readings id source e' steps) (e'.run steps) := by
  induction steps generalizing e' seen with
  | nil =>
      rw [readings, List.append_nil]
      exact watched
  | cons s rest ih =>
      obtain ⟨first, later⟩ := List.forall_mem_cons.mp keeps
      obtain ⟨taken, still, _⟩ := held.watched reached watched
      obtain ⟨begun, unlaunched⟩ : Watched id source e' _ _ ∧ _ :=
        ordered.watched_begin atRest still.has first
      have stepped := begun.trans (watched_settle unlaunched (e'.begin s).1.fuel)
      rw [List.append_nil] at stepped
      obtain ⟨after, quiet⟩ := ordered.step atRest s
      rw [readings, ← List.append_assoc]
      exact ih (watched.trans stepped) after quiet later

/-- What the polls of a schedule show after the call that the handle is of. -/
theorem Readable.polled_run {source : Source} (ordered : e.Ordered .ahead none)
    (atRest : e.queue = []) (reached : e.Reached) (fresh : e.handles.has spec.id = false)
    (plain : spec.mode ≠ .awaited) (readable : (e.begin (.call spec)).1.Readable spec.id source)
    {steps : List Step} (keeps : ∀ s ∈ steps, s ≠ .await spec.id ∧ s ≠ .drop spec.id) :
    ((e.step (.call spec)).1.run steps).Polled source
      (readings spec.id source (e.step (.call spec)).1 steps) := by
  have begun : (e.begin (.call spec)).1 = e.startCall spec := by simp [begin, fresh]
  have calm : ∀ other, .launch other ∈ (e.begin (.call spec)).1.queue → other.id ≠ spec.id := by
    intro other waits
    obtain ⟨turns, queue, silent⟩ := e.exists_queue_startCall plain
    rw [begun, queue, atRest] at waits
    exact absurd waits (silent other)
  have rested : Watched spec.id source (e.begin (.call spec)).1 [] (e.step (.call spec)).1 :=
    watched_settle calm _
  have reachedThen := reached.leads (.single (.begin e (s := .call spec) (by simp)))
  obtain ⟨after, quiet⟩ := ordered.step atRest (.call spec)
  exact readable.polled _ _ (readable.held.watched_run reachedThen rested after quiet keeps)

/-- A call fails after ten milliseconds. Polls show nothing before, the error once, and `ok`
then. -/
theorem readable_of_failure :
    let spec : CallSpec Script :=
      ⟨"a", "svc", .after (.ofMillis 10) (.fail (.plain ⟨"broken", []⟩)), none, .detached⟩
    let error : CallError := .operation (.plain ⟨"broken", []⟩)
    let start := build {} [] {}
    let e := (start.step (.call spec)).1
    let steps : List Step := [.poll "a", .advance (.ofMillis 10), .poll "a", .poll "a"]
    let seen := readings "a" (.call ⟨"svc", 0⟩) e steps
    (start.begin (.call spec)).2 = .started ∧ spec.mode ≠ .awaited ∧
      seen = [⟨none, .nothing⟩, ⟨some (.error error), .verdict (.error error)⟩,
        ⟨some (.error error), .verdict .ok⟩] ∧
      (e.run steps).Polled (.call ⟨"svc", 0⟩) seen := by
  intro spec error start e steps seen
  have reached : start.Reached := ⟨{}, [], {}, .refl⟩
  have started : (start.begin (.call spec)).2 = .started := rfl
  obtain ⟨source, readable⟩ := reached.readable started (List.mem_singleton_self spec) (by decide)
  have made : (start.begin (.call spec)).1.handles.get? "a" =
    some { source := .call ⟨"svc", 0⟩ } := by decide
  obtain rfl : source = .call ⟨"svc", 0⟩ :=
    congrArg Handle.source (Option.some.inj (readable.held.handle.symm.trans made))
  have polled := readable.polled_run (ordered_build .ahead {} [] {}) rfl reached rfl (by decide)
    (show ∀ s ∈ steps, s ≠ .await "a" ∧ s ≠ .drop "a" by simp [steps])
  exact ⟨started, by decide, by decide, polled⟩

end Engine

end Bulwark
