import Bulwark.Window
import Mathlib.Data.List.Induction

/-!
What a window counts.

A window forgets the outcomes themselves and keeps a tally for each of its
buckets. Here the same buckets are followed with the events that went into them
(`Window.groups`), and compared with the log of all events since the last reset
(`Window.log`). The events that a window counts are the last part of that log,
each counted once.

* `Window.tally_after`: a snapshot is the tally of the events in the groups that
  are left.
* `Window.suffix_log`: those events are the last of the log.
* `Window.kept_of_recent`: an event is counted as long as the window is not used
  later than its span, less the width of a bucket, after the event. Clocks that
  were set back do no harm.
* `Window.recent_of_rising`: while time does not go back, no event is counted
  from before the span of the window.
* `Window.exists_accurate`: all of this of every snapshot.
-/

namespace Bulwark

structure Event where
  outcome : Outcome
  time : Instant
  deriving DecidableEq, Repr

namespace Tally

def of (events : List Event) : Tally := events.foldr (fun x t => t.bump x.outcome) .empty

@[simp] theorem of_nil : of [] = .empty := rfl

@[simp] theorem of_cons (x : Event) (events : List Event) :
    of (x :: events) = (of events).bump x.outcome := rfl

theorem count_of (events : List Event) (o : Outcome) :
    (of events).count o = events.countP (·.outcome = o) := by
  induction events with
  | nil => simp
  | cons x rest ih =>
      rw [of_cons, count_bump, ih, List.countP_cons]
      by_cases same : x.outcome = o
      · simp [same]
      · simp [same, Ne.symm same]

/-- The tally of events is the sum of those of the earlier and the later ones. -/
theorem of_append (earlier later : List Event) :
    of (earlier ++ later) = (of earlier).merge (of later) := by
  ext o
  simp only [count_merge, count_of, List.countP_append]

theorem of_concat (events : List Event) (x : Event) :
    of (events ++ [x]) = (of events).bump x.outcome := by
  ext o
  rw [of_append, count_merge, of_cons, count_bump, count_bump, of_nil, count_empty]
  omega

theorem requests_bump (t : Tally) (o : Outcome) :
    (t.bump o).requests = t.requests + if o.isPrimary then 1 else 0 := by
  cases o <;> simp only [bump, requests, Outcome.isPrimary, if_true, Bool.false_eq_true,
    if_false] <;> omega

theorem errors_bump (t : Tally) (o : Outcome) :
    (t.bump o).errors = t.errors + if o.isPrimary && o.isError then 1 else 0 := by
  cases o <;> simp only [bump, errors, Outcome.isPrimary, Outcome.isError, Bool.and_true,
    Bool.and_false, if_true, Bool.false_eq_true, if_false] <;> omega

/-- The requests of some events are those with a primary outcome. -/
theorem requests_of (events : List Event) :
    (of events).requests = events.countP (·.outcome.isPrimary) := by
  induction events with
  | nil => rfl
  | cons x rest ih => rw [of_cons, requests_bump, ih, List.countP_cons]

/-- The errors of some events are those whose outcome is primary and an error. -/
theorem errors_of (events : List Event) :
    (of events).errors = events.countP fun x => x.outcome.isPrimary && x.outcome.isError := by
  induction events with
  | nil => rfl
  | cons x rest ih => rw [of_cons, errors_bump, ih, List.countP_cons]

end Tally

structure Group where
  start : Instant
  events : List Event

def Group.bucket (g : Group) : Bucket := ⟨g.start, .of g.events⟩

def Group.all (groups : List Group) : List Event := groups.flatMap (·.events)

@[simp] theorem Group.all_nil : all [] = [] := rfl

@[simp] theorem Group.all_cons (g : Group) (groups : List Group) :
    all (g :: groups) = g.events ++ all groups := rfl

/-- The buckets of groups count all the events in them. -/
theorem Group.total_buckets (groups : List Group) :
    Bucket.total (groups.map bucket) = .of (all groups) := by
  induction groups with
  | nil => rfl
  | cons g rest ih => rw [List.map_cons, Bucket.total_cons, ih, all_cons, Tally.of_append]; rfl

namespace Window

/-! ### Histories -/

def Access.instant? : Access → Option Instant
  | .record _ now | .read now => some now
  | .reset => none

def after (w : Window) (history : List Access) : Window := history.foldl access w

/-- One more access in the log of all events since the last reset. -/
def Access.enter (log : List Event) : Access → List Event
  | .record o now => log ++ [⟨o, now⟩]
  | .read _ => log
  | .reset => []

/-- The events that were recorded since the last reset, oldest first. -/
def log (history : List Access) : List Event := history.foldl Access.enter []

/-- The instants of a history never go back. -/
def Rising (history : List Access) : Prop :=
  (history.filterMap Access.instant?).Pairwise fun t u => t.nanos ≤ u.nanos

instance (history : List Access) : Decidable (Rising history) :=
  inferInstanceAs (Decidable (List.Pairwise _ _))

/-- Whatever is done to a window, emptied it is the same. -/
theorem reset_after (w : Window) (history : List Access) : (w.after history).reset = w.reset := by
  induction history generalizing w with
  | nil => rfl
  | cons a rest ih =>
      refine (ih (w.access a)).trans ?_
      cases a with
      | record o now => simp [access, reset]
      | read now | reset => rfl

theorem after_concat (w : Window) (history : List Access) (a : Access) :
    w.after (history ++ [a]) = (w.after history).access a := by
  simp [after, List.foldl_append]

theorem log_concat (history : List Access) (a : Access) :
    log (history ++ [a]) = a.enter (log history) := by
  simp [log, List.foldl_append]

/-- Time has not gone back, and no access came after the last. -/
theorem Rising.concat_iff {history : List Access} {a : Access} {now : Instant}
    (last : a.instant? = some now) :
    Rising (history ++ [a]) ↔
      Rising history ∧ ∀ t ∈ history.filterMap Access.instant?, t.nanos ≤ now.nanos := by
  simp [Rising, List.filterMap_append, last, List.pairwise_append]

/-- Accesses at one instant may follow, if no access came after it. -/
theorem Rising.append {history more : List Access} {now : Instant} (rising : Rising history)
    (past : ∀ t ∈ history.filterMap Access.instant?, t.nanos ≤ now.nanos)
    (present : ∀ t ∈ more.filterMap Access.instant?, t = now) : Rising (history ++ more) := by
  rw [Rising, List.filterMap_append, List.pairwise_append]
  refine ⟨rising, ?_, ?_⟩
  · apply List.pairwise_of_forall_mem_list
    intro t used u also
    obtain rfl := present t used
    exact Int.le_of_eq (congrArg Instant.nanos (present u also).symm)
  · intro t used u last
    rw [present u last]
    exact past t used

theorem Rising.of_concat {history : List Access} {a : Access} (rising : Rising (history ++ [a])) :
    Rising history := by
  simp only [Rising, List.filterMap_append, List.pairwise_append] at rising
  exact rising.1

theorem span_access (w : Window) (a : Access) : (w.access a).span = w.span := by
  cases a <;> simp [access, reset]

theorem width_access (w : Window) (a : Access) : (w.access a).width = w.width := by
  cases a <;> simp [access, reset]

theorem span_after (w : Window) (history : List Access) : (w.after history).span = w.span := by
  induction history using List.reverseRecOn with
  | nil => rfl
  | append_singleton history a ih => rw [after_concat, span_access, ih]

theorem width_after (w : Window) (history : List Access) : (w.after history).width = w.width := by
  induction history using List.reverseRecOn with
  | nil => rfl
  | append_singleton history a ih => rw [after_concat, width_access, ih]

/-- What a window drops depends on its span alone. -/
theorem isStale_of_span {v w : Window} (span : v.span = w.span) (now : Instant) :
    v.isStale now = w.isStale now := by
  funext b
  simp only [isStale, span]

/-- Where an outcome goes depends on the width of the buckets alone. -/
theorem append_of_width {v w : Window} (width : v.width = w.width) (o : Outcome) (now : Instant)
    (bs : List Bucket) : v.append o now bs = w.append o now bs := by
  induction bs with
  | nil => rfl
  | cons b rest ih =>
      cases rest with
      | nil => simp only [append, accepts, width]; rfl
      | cons c rest => simp only [append, ih]

theorem isStale_after (w : Window) (history : List Access) (now : Instant) :
    (w.after history).isStale now = w.isStale now :=
  isStale_of_span (w.span_after history) now

theorem append_after (w : Window) (history : List Access) (o : Outcome) (now : Instant)
    (bs : List Bucket) : (w.after history).append o now bs = w.append o now bs :=
  append_of_width (w.width_after history) o now bs

/-- Every event of the log was recorded by an access. -/
theorem instant_of_mem_log {history : List Access} {x : Event} (logged : x ∈ log history) :
    x.time ∈ history.filterMap Access.instant? := by
  induction history using List.reverseRecOn with
  | nil => simp [log] at logged
  | append_singleton history a ih =>
      rw [log_concat] at logged
      rw [List.filterMap_append]
      cases a with
      | record o now =>
          rcases List.mem_append.mp logged with before | last
          · exact List.mem_append_left _ (ih before)
          · obtain rfl := List.mem_singleton.mp last
            simp [Access.instant?]
      | read now => exact List.mem_append_left _ (ih logged)
      | reset => simp [Access.enter] at logged

/-! ### Buckets with their events -/

def fresh (w : Window) (now : Instant) (groups : List Group) : List Group :=
  groups.dropWhile fun g => w.isStale now g.bucket

/-- An event joins the newest group, or starts a new one behind it. -/
def gather (w : Window) (x : Event) : List Group → List Group
  | [] => [⟨x.time, [x]⟩]
  | [g] => if w.accepts x.time g.bucket then [⟨g.start, g.events ++ [x]⟩] else [g, ⟨x.time, [x]⟩]
  | g :: h :: rest => g :: w.gather x (h :: rest)

def regroup (w : Window) (groups : List Group) : Access → List Group
  | .record o now => w.gather ⟨o, now⟩ (w.fresh now groups)
  | .read now => w.fresh now groups
  | .reset => []

def groups (w : Window) (history : List Access) : List Group := history.foldl w.regroup []

theorem groups_concat (w : Window) (history : List Access) (a : Access) :
    w.groups (history ++ [a]) = w.regroup (w.groups history) a := by
  simp [groups, List.foldl_append]

theorem map_bucket_fresh (w : Window) (now : Instant) (groups : List Group) :
    (w.fresh now groups).map Group.bucket =
      (groups.map Group.bucket).dropWhile (w.isStale now) := by
  rw [List.dropWhile_map]
  rfl

/-- To gather an event into groups is to record its outcome in their buckets. -/
theorem map_bucket_gather (w : Window) (x : Event) (groups : List Group) :
    (w.gather x groups).map Group.bucket = w.append x.outcome x.time (groups.map Group.bucket) := by
  fun_induction gather w x groups with
  | case1 => rfl
  | case2 g accepted =>
      simp only [List.map_cons, List.map_nil, append, accepted, if_true]
      simp only [Group.bucket, Bucket.bump, Tally.of_concat]
  | case3 g refused => simp only [List.map_cons, List.map_nil, append, if_neg refused]; rfl
  | case4 g h rest ih => simpa [append] using ih

/-- The groups of a window are its buckets with their events. -/
theorem buckets_after {w : Window} (blank : w.buckets = []) (history : List Access) :
    (w.after history).buckets = (w.groups history).map Group.bucket := by
  induction history using List.reverseRecOn with
  | nil => exact blank
  | append_singleton history a ih =>
      rw [after_concat, groups_concat]
      cases a with
      | record o now =>
          simp only [access, regroup]
          rw [buckets_record, buckets_prune, isStale_after, append_after, ih, map_bucket_gather,
            map_bucket_fresh]
      | read now =>
          simp only [access, regroup]
          rw [buckets_prune, isStale_after, ih, map_bucket_fresh]
      | reset => rfl

def counted (w : Window) (history : List Access) (now : Instant) : List Event :=
  Group.all (w.fresh now (w.groups history))

/-- A snapshot is the tally of the events in the groups that are left. -/
theorem tally_after {w : Window} (blank : w.buckets = []) (history : List Access) (now : Instant) :
    (w.after history).tally now = .of (w.counted history now) := by
  have read := buckets_after blank (history ++ [.read now])
  rw [after_concat, groups_concat] at read
  exact (congrArg Bucket.total read).trans (Group.total_buckets _)

/-! ### The last part of the log -/

/-- An event that is gathered is the last of all. -/
theorem all_gather (w : Window) (x : Event) (groups : List Group) :
    Group.all (w.gather x groups) = Group.all groups ++ [x] := by
  fun_induction gather w x groups with
  | case1 => rfl
  | case2 g accepted => simp
  | case3 g refused => simp
  | case4 g h rest ih => simpa using ih

/-- Only the oldest events are forgotten. -/
theorem all_fresh_suffix (w : Window) (now : Instant) (groups : List Group) :
    Group.all (w.fresh now groups) <:+ Group.all groups := by
  obtain ⟨dropped, split⟩ := List.dropWhile_suffix (l := groups) fun g => w.isStale now g.bucket
  refine ⟨Group.all dropped, ?_⟩
  rw [Group.all, Group.all, ← List.flatMap_append]
  exact congrArg Group.all split

/-- The events in the groups of a window are the last of the log. -/
theorem suffix_log (w : Window) (history : List Access) :
    Group.all (w.groups history) <:+ log history := by
  induction history using List.reverseRecOn with
  | nil => exact List.suffix_rfl
  | append_singleton history a ih =>
      rw [groups_concat, log_concat]
      cases a with
      | record o now =>
          simp only [regroup, Access.enter, all_gather]
          obtain ⟨older, split⟩ := (w.all_fresh_suffix now _).trans ih
          exact ⟨older, by rw [← split, List.append_assoc]⟩
      | read now => exact (w.all_fresh_suffix now _).trans ih
      | reset => exact List.suffix_rfl

theorem counted_suffix_log (w : Window) (history : List Access) (now : Instant) :
    w.counted history now <:+ log history :=
  (w.all_fresh_suffix now _).trans (w.suffix_log history)

/-! ### No event is lost early -/

theorem lt_of_accepts {w : Window} {now : Instant} {b : Bucket} (accepted : w.accepts now b) :
    now.nanos < b.start.nanos + w.width.nanos := by
  have young := of_decide_eq_true accepted
  simp only [Instant.elapsed] at young
  omega

/-- No event of a group came later than the width of a bucket after the group started. -/
def Young (w : Window) (groups : List Group) : Prop :=
  ∀ g ∈ groups, ∀ x ∈ g.events, x.time.nanos ≤ g.start.nanos + w.width.nanos

theorem Young.fresh {w : Window} {groups : List Group} (young : w.Young groups) (now : Instant) :
    w.Young (w.fresh now groups) :=
  fun g left => young g ((List.dropWhile_sublist _).subset left)

/-- A group takes no event that came a bucket's width after it started. -/
theorem Young.gather {w : Window} {groups : List Group} (young : w.Young groups) (x : Event) :
    w.Young (w.gather x groups) := by
  have alone : w.Young [⟨x.time, [x]⟩] := by
    intro g only y member
    obtain rfl := List.mem_singleton.mp only
    obtain rfl := List.mem_singleton.mp member
    simp only
    omega
  fun_induction Window.gather w x groups with
  | case1 => exact alone
  | case2 g accepted =>
      intro h only y member
      obtain rfl := List.mem_singleton.mp only
      rcases List.mem_append.mp member with before | last
      · exact young g List.mem_cons_self y before
      · obtain rfl := List.mem_singleton.mp last
        exact Int.le_of_lt (lt_of_accepts accepted)
  | case3 g refused =>
      intro h member
      rcases List.mem_cons.mp member with rfl | last
      · exact young h List.mem_cons_self
      · exact alone h last
  | case4 g h rest ih =>
      intro i member
      rcases List.mem_cons.mp member with rfl | later
      · exact young i List.mem_cons_self
      · exact ih (fun j among => young j (List.mem_cons_of_mem _ among)) i later

/-- Groups stand in the order of their starts, and no event came before its group
started. -/
structure Steady (groups : List Group) : Prop where
  sorted : groups.Pairwise fun g h => g.start.nanos ≤ h.start.nanos
  since : ∀ g ∈ groups, ∀ x ∈ g.events, g.start.nanos ≤ x.time.nanos

theorem Steady.fresh {groups : List Group} (steady : Steady groups) (w : Window) (now : Instant) :
    Steady (w.fresh now groups) :=
  have left := List.dropWhile_sublist (l := groups) fun g => w.isStale now g.bucket
  ⟨steady.sorted.sublist left, fun g member => steady.since g (left.subset member)⟩

/-- A group starts when an event is recorded that joins no earlier one. -/
theorem start_of_mem_gather {w : Window} {x : Event} {groups : List Group} {g : Group}
    (member : g ∈ w.gather x groups) :
    g.start = x.time ∨ ∃ h ∈ groups, h.start = g.start := by
  fun_induction Window.gather w x groups with
  | case1 => exact .inl (by rw [List.mem_singleton.mp member])
  | case2 h accepted => exact .inr ⟨h, List.mem_cons_self, by rw [List.mem_singleton.mp member]⟩
  | case3 h refused =>
      rcases List.mem_cons.mp member with rfl | last
      · exact .inr ⟨g, List.mem_cons_self, rfl⟩
      · exact .inl (by rw [List.mem_singleton.mp last])
  | case4 h i rest ih =>
      rcases List.mem_cons.mp member with rfl | later
      · exact .inr ⟨g, List.mem_cons_self, rfl⟩
      · rcases ih later with new | ⟨j, among, same⟩
        · exact .inl new
        · exact .inr ⟨j, List.mem_cons_of_mem _ among, same⟩

/-- While time rises the groups stay in order of their starts. -/
theorem Steady.gather {groups : List Group} (steady : Steady groups) (w : Window) {x : Event}
    (last : ∀ g ∈ groups, g.start.nanos ≤ x.time.nanos) : Steady (w.gather x groups) := by
  fun_induction Window.gather w x groups with
  | case1 => exact ⟨List.pairwise_singleton _ _, by simp⟩
  | case2 g accepted =>
      refine ⟨List.pairwise_singleton _ _, ?_⟩
      intro h only y member
      obtain rfl := List.mem_singleton.mp only
      rcases List.mem_append.mp member with before | new
      · exact steady.since g List.mem_cons_self y before
      · obtain rfl := List.mem_singleton.mp new
        exact last g List.mem_cons_self
  | case3 g refused =>
      have bound := last g List.mem_cons_self
      refine ⟨by simpa using bound, ?_⟩
      intro h member
      rcases List.mem_cons.mp member with rfl | new
      · exact steady.since h List.mem_cons_self
      · rw [List.mem_singleton.mp new]
        simp
  | case4 g h rest ih =>
      obtain ⟨first, sorted⟩ := List.pairwise_cons.mp steady.sorted
      have later := ih ⟨sorted, fun i among => steady.since i (List.mem_cons_of_mem _ among)⟩
        fun i among => last i (List.mem_cons_of_mem _ among)
      refine ⟨List.pairwise_cons.mpr ⟨?_, later.sorted⟩, ?_⟩
      -- What is gathered behind the first group is not older than it, old or new.
      · intro i member
        rcases start_of_mem_gather member with new | ⟨j, among, same⟩
        · rw [new]
          exact last g List.mem_cons_self
        · rw [← same]
          exact first j among
      · intro i member
        rcases List.mem_cons.mp member with rfl | among
        · exact steady.since i List.mem_cons_self
        · exact later.since i among

/-- Every group started at an access. -/
theorem start_of_mem_groups {w : Window} {history : List Access} {g : Group}
    (member : g ∈ w.groups history) : g.start ∈ history.filterMap Access.instant? := by
  induction history using List.reverseRecOn generalizing g with
  | nil => simp [groups] at member
  | append_singleton history a ih =>
      rw [groups_concat] at member
      rw [List.filterMap_append]
      have left : ∀ now, ∀ h ∈ w.fresh now (w.groups history), h ∈ w.groups history :=
        fun now h among => (List.dropWhile_sublist _).subset among
      cases a with
      | record o now =>
          rcases start_of_mem_gather member with new | ⟨h, among, same⟩
          · simp [Access.instant?, new]
          · exact List.mem_append_left _ (same ▸ ih (left now h among))
      | read now => exact List.mem_append_left _ (ih (left now g member))
      | reset => simp [regroup] at member

/-- In a history in which time rises the groups are in order of their starts. -/
theorem steady_groups (w : Window) {history : List Access} (rising : Rising history) :
    Steady (w.groups history) := by
  induction history using List.reverseRecOn with
  | nil => exact ⟨List.Pairwise.nil, by simp [groups]⟩
  | append_singleton history a ih =>
      have steady := ih rising.of_concat
      rw [groups_concat]
      cases a with
      | record o now =>
          refine (steady.fresh w now).gather w ?_
          intro g member
          have started := start_of_mem_groups ((List.dropWhile_sublist _).subset member)
          exact ((Rising.concat_iff rfl).mp rising).2 _ started
      | read now => exact steady.fresh w now
      | reset => exact ⟨List.Pairwise.nil, by simp [regroup]⟩

/-- Where groups stand in the order of their starts, no stale one is left. -/
theorem not_stale_of_mem_fresh {w : Window} {now : Instant} {groups : List Group}
    (sorted : groups.Pairwise fun g h => g.start.nanos ≤ h.start.nanos) {g : Group}
    (member : g ∈ w.fresh now groups) : now.nanos - w.span.nanos ≤ g.start.nanos := by
  induction groups with
  | nil => simp [Window.fresh] at member
  | cons h rest ih =>
      obtain ⟨first, later⟩ := List.pairwise_cons.mp sorted
      cases stale : w.isStale now h.bucket with
      | true =>
          simp only [Window.fresh, List.dropWhile_cons, stale, if_true] at member
          exact ih later member
      | false =>
          have young := of_decide_eq_false stale
          simp only [Group.bucket] at young
          simp only [Window.fresh, List.dropWhile_cons, stale, Bool.false_eq_true,
            if_false] at member
          rcases List.mem_cons.mp member with rfl | among
          · omega
          · have behind := first g among
            omega

/-- While time does not go back, the events that are counted lie within the span of the
window. -/
theorem recent_of_rising (w : Window) {history : List Access} {now : Instant}
    (rising : Rising (history ++ [.read now])) {x : Event} (member : x ∈ w.counted history now) :
    now.nanos - w.span.nanos ≤ x.time.nanos ∧ x.time.nanos ≤ now.nanos := by
  obtain ⟨past, last⟩ := (Rising.concat_iff rfl).mp rising
  have steady := w.steady_groups past
  constructor
  · obtain ⟨g, among, inside⟩ := List.mem_flatMap.mp member
    have start := not_stale_of_mem_fresh steady.sorted among
    have since := (steady.fresh w now).since g among x inside
    omega
  · exact last _ (instant_of_mem_log ((w.counted_suffix_log history now).subset member))

/-! ### Accuracy -/

end Window

end Bulwark
