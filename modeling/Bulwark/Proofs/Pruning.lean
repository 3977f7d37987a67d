import Bulwark.Proofs.Memory
import Mathlib.Data.List.TakeWhile

/-!
Nobody sees a window drop its stale buckets.

Every access drops buckets, and a record may drop the very bucket that its
outcome would have looked at. Here the window stands beside one that keeps every
bucket it ever started (`Window.hoarded`) and whose snapshot leaves out the
buckets that started before the span (`Window.recalled`). While time does not
go back, both tell the same.

* `Window.Recalls`: a window stands for some buckets, of which it has dropped only
  stale ones. Looking, recording and resetting keep this, and so does time.
* `Window.Recalls.joins_eq`: an outcome joins a bucket just when it would if none had
  been dropped.
* `Window.Recalls.tally_eq`: a snapshot tells of all those buckets that are not stale.
* `Window.unpruned`: every snapshot is that of the window that drops nothing, and so
  does not depend on where else the window was read.
-/

namespace Bulwark

namespace Window

/-! ### The window that drops nothing -/

def hoard (w : Window) (bs : List Bucket) : Access → List Bucket
  | .record o now => w.append o now bs
  | .read _ => bs
  | .reset => []

def hoarded (w : Window) (history : List Access) : List Bucket := history.foldl w.hoard []

/-- The tally of the buckets that started a span of the window ago at most. -/
def recalled (w : Window) (history : List Access) (now : Instant) : Tally :=
  Bucket.total ((w.hoarded history).filter fun b => now.nanos - w.span.nanos ≤ b.start.nanos)

def Access.writes : Access → Bool
  | .read _ => false
  | _ => true

theorem hoarded_concat (w : Window) (history : List Access) (a : Access) :
    w.hoarded (history ++ [a]) = w.hoard (w.hoarded history) a := by
  simp [hoarded, List.foldl_append]

/-- Looking at the window that drops nothing leaves it as it is. -/
theorem hoarded_filter_writes (w : Window) (history : List Access) :
    w.hoarded (history.filter Access.writes) = w.hoarded history := by
  induction history using List.reverseRecOn with
  | nil => rfl
  | append_singleton history a ih =>
      rw [List.filter_append, hoarded_concat]
      cases a with
      | record o now => rw [List.filter_cons_of_pos rfl, List.filter_nil, hoarded_concat, ih]
      | read now => simpa [Access.writes, hoard] using ih
      | reset => rw [List.filter_cons_of_pos rfl, List.filter_nil, hoarded_concat, ih]

/-! ### How an outcome finds its bucket -/

/-- An outcome leaves the starts of the buckets as they are, or adds its own instant. -/
theorem starts_append (w : Window) (o : Outcome) (now : Instant) (bs : List Bucket) :
    (w.append o now bs).map (·.start) = bs.map (·.start) ∨
      (w.append o now bs).map (·.start) = bs.map (·.start) ++ [now] := by
  induction bs using List.reverseRecOn with
  | nil => exact .inr rfl
  | append_singleton bs b ih =>
      rw [append_concat]
      split
      case isTrue accepted => exact .inl (by simp [Bucket.bump])
      case isFalse refused => exact .inr (by simp [Bucket.opened])

/-- Where the newest bucket takes no more outcomes, a new one is started. -/
theorem append_of_refused {w : Window} {now : Instant} {bs : List Bucket} (o : Outcome)
    (refused : bs.getLast?.any (w.accepts now) = false) :
    w.append o now bs = bs ++ [.opened o now] := by
  induction bs using List.reverseRecOn with
  | nil => rfl
  | append_singleton bs b ih =>
      rw [List.getLast?_concat] at refused
      simp [append_concat, show w.accepts now b = false from refused]

/-- What stands before takes no part, as long as there is a newest bucket. -/
theorem append_of_ne_nil (w : Window) (o : Outcome) (now : Instant) (front : List Bucket)
    {bs : List Bucket} (some_ : bs ≠ []) :
    w.append o now (front ++ bs) = front ++ w.append o now bs := by
  induction bs using List.reverseRecOn with
  | nil => exact absurd rfl some_
  | append_singleton bs b =>
      rw [← List.append_assoc, append_concat, append_concat]
      split <;> simp

/-- A stale bucket takes no more outcomes, since no bucket is wider than the span. -/
theorem refused_of_isStale {w : Window} (narrow : w.width.nanos ≤ w.span.nanos) {now : Instant}
    {b : Bucket} (stale : w.isStale now b) : w.accepts now b = false := by
  have before := of_decide_eq_true stale
  refine decide_eq_false ?_
  simp only [Instant.elapsed]
  omega

/-- What is stale stays so. -/
theorem isStale_mono {w : Window} {now later : Instant} (onward : now.nanos ≤ later.nanos)
    {b : Bucket} (stale : w.isStale now b) : w.isStale later b := by
  have before := of_decide_eq_true stale
  exact decide_eq_true (by omega)

/-- In the order of the starts the stale buckets come first. -/
theorem dropWhile_isStale {w : Window} (now : Instant) {bs : List Bucket}
    (sorted : (bs.map (·.start)).Pairwise fun t u => t.nanos ≤ u.nanos) :
    bs.dropWhile (w.isStale now) = bs.filter fun b => !w.isStale now b := by
  induction bs with
  | nil => rfl
  | cons b rest ih =>
      obtain ⟨first, later⟩ := List.pairwise_cons.mp sorted
      cases stale : w.isStale now b with
      | true => simpa [stale] using ih later
      | false =>
          have young := of_decide_eq_false stale
          have fresh : ∀ c ∈ rest, (!w.isStale now c) = true := by
            intro c among
            have behind : b.start.nanos ≤ c.start.nanos :=
              first c.start (List.mem_map_of_mem among)
            simp only [isStale, Bool.not_eq_true', decide_eq_false_iff_not]
            omega
          rw [List.dropWhile_cons_of_neg (by simp [stale]),
            List.filter_cons_of_pos (by simp [stale]), List.filter_eq_self.mpr fresh]

/-! ### What a window stands for -/

def joins (w : Window) (now : Instant) : Bool :=
  (w.prune now).buckets.getLast?.any (w.accepts now)

/-- A window, made like another, stands for some buckets: it holds the last of them, and
those that it dropped are stale. -/
structure Recalls (w v : Window) (now : Instant) (bs : List Bucket) : Prop where
  narrow : w.width.nanos ≤ w.span.nanos
  span : v.span = w.span
  width : v.width = w.width
  dropped : ∃ front, bs = front ++ v.buckets ∧ ∀ b ∈ front, w.isStale now b
  sorted : (bs.map (·.start)).Pairwise fun t u => t.nanos ≤ u.nanos
  past : ∀ t ∈ bs.map (·.start), t.nanos ≤ now.nanos

namespace Recalls

variable {w v : Window} {now later : Instant} {bs : List Bucket}

/-- An empty window recalls nothing. -/
theorem blank (narrow : w.width.nanos ≤ w.span.nanos) (empty : w.buckets = []) (now : Instant) :
    Recalls w w now [] where
  narrow := narrow
  span := rfl
  width := rfl
  dropped := ⟨[], empty.symm, by simp⟩
  sorted := .nil
  past := by simp

/-- Time may pass. -/
theorem wait (recalls : Recalls w v now bs) (onward : now.nanos ≤ later.nanos) :
    Recalls w v later bs :=
  { recalls with
    dropped := by
      obtain ⟨front, split, stale⟩ := recalls.dropped
      exact ⟨front, split, fun b among => isStale_mono onward (stale b among)⟩
    past := fun t started => Int.le_trans (recalls.past t started) onward }

/-- What a look drops joins what was dropped before. -/
theorem prune (recalls : Recalls w v now bs) : Recalls w (v.prune now) now bs := by
  refine { recalls with dropped := ?_ }
  obtain ⟨front, split, stale⟩ := recalls.dropped
  refine ⟨front ++ v.buckets.takeWhile (v.isStale now), ?_, ?_⟩
  · rw [buckets_prune, List.append_assoc, List.takeWhile_append_dropWhile]
    exact split
  · intro b among
    rw [isStale_of_span recalls.span] at among
    rcases List.mem_append.mp among with before | new
    · exact stale b before
    · exact List.mem_takeWhile_imp new

/-- Of dropped buckets none takes an outcome. -/
theorem refused (recalls : Recalls w v now bs) {front : List Bucket}
    (stale : ∀ b ∈ front, w.isStale now b) : front.getLast?.any (w.accepts now) = false := by
  cases last : front.getLast? with
  | none => rfl
  | some b => exact refused_of_isStale recalls.narrow (stale b (List.mem_of_getLast? last))

/-- An outcome joins the newest bucket that is left just when it joins the newest of all. -/
theorem joins_eq (recalls : Recalls w v now bs) :
    v.joins now = bs.getLast?.any (w.accepts now) := by
  have takes : v.accepts now = w.accepts now := by
    funext b
    simp only [accepts, recalls.width]
  obtain ⟨front, split, stale⟩ := recalls.prune.dropped
  rw [joins, takes, split, List.getLast?_append]
  cases (v.prune now).buckets.getLast? with
  | none => exact (recalls.refused stale).symm
  | some b => rfl

theorem append_eq (recalls : Recalls w v now bs) (o : Outcome) {front rest : List Bucket}
    (split : bs = front ++ rest) (stale : ∀ b ∈ front, w.isStale now b) :
    w.append o now bs = front ++ w.append o now rest := by
  by_cases none_ : rest = []
  · rw [split, none_, List.append_nil]
    exact append_of_refused o (recalls.refused stale)
  · rw [split]
    exact append_of_ne_nil w o now front none_

/-- A window recalls what it records. -/
theorem record (recalls : Recalls w v now bs) (o : Outcome) :
    Recalls w (v.record o now) now (w.append o now bs) := by
  obtain ⟨front, split, stale⟩ := recalls.prune.dropped
  refine ⟨recalls.narrow, ?span, ?width, ⟨front, ?dropped, stale⟩, ?sorted, ?past⟩
  case span => rw [span_record, recalls.span]
  case width => rw [width_record, recalls.width]
  case dropped =>
    rw [buckets_record, append_of_width recalls.width]
    exact recalls.append_eq o split stale
  case sorted =>
    rcases w.starts_append o now bs with same | more
    · rw [same]
      exact recalls.sorted
    · rw [more, List.pairwise_append]
      refine ⟨recalls.sorted, List.pairwise_singleton _ _, ?_⟩
      intro t started u new
      rw [List.mem_singleton.mp new]
      exact recalls.past t started
  case past =>
    intro t started
    rcases w.starts_append o now bs with same | more
    · exact recalls.past t (same ▸ started)
    · rw [more] at started
      rcases List.mem_append.mp started with before | new
      · exact recalls.past t before
      · exact Int.le_of_eq (congrArg Instant.nanos (List.mem_singleton.mp new))

theorem reset (recalls : Recalls w v now bs) : Recalls w v.reset now [] where
  narrow := recalls.narrow
  span := recalls.span
  width := recalls.width
  dropped := ⟨[], rfl, by simp⟩
  sorted := .nil
  past := by simp

/-- A snapshot tells of all buckets that started a span ago at most. -/
theorem tally_eq (recalls : Recalls w v now bs) :
    v.tally now =
      Bucket.total (bs.filter fun b => now.nanos - w.span.nanos ≤ b.start.nanos) := by
  -- What did not start before the span is what is not stale.
  have young : (fun b : Bucket => decide (now.nanos - w.span.nanos ≤ b.start.nanos)) =
      fun b => !w.isStale now b := by
    funext b
    rw [isStale, ← decide_not, decide_eq_decide]
    exact Int.not_lt.symm
  rw [young]
  obtain ⟨front, split, stale⟩ := recalls.dropped
  have sorted := recalls.sorted
  rw [split, List.map_append, List.pairwise_append] at sorted
  have nothing : front.filter (fun b => !w.isStale now b) = [] :=
    List.filter_eq_nil_iff.mpr fun b among => by simp [stale b among]
  rw [Window.tally, buckets_prune, isStale_of_span recalls.span, dropWhile_isStale now sorted.2.1,
    split, List.filter_append, nothing, List.nil_append]

end Recalls

/-- After accesses in the order of time a window stands for all buckets that it would hold
if it dropped none. -/
theorem recalls_after {w : Window} (narrow : w.width.nanos ≤ w.span.nanos)
    (blank : w.buckets = []) {history : List Access} {now : Instant} (rising : Rising history)
    (past : ∀ t ∈ history.filterMap Access.instant?, t.nanos ≤ now.nanos) :
    Recalls w (w.after history) now (w.hoarded history) := by
  induction history using List.reverseRecOn generalizing now with
  | nil => exact .blank narrow blank now
  | append_singleton history a ih =>
      have earlier : ∀ t ∈ history.filterMap Access.instant?, t.nanos ≤ now.nanos := by
        intro t used
        refine past t ?_
        rw [List.filterMap_append]
        exact List.mem_append_left _ used
      rw [after_concat, hoarded_concat]
      cases a with
      | record o t =>
          obtain ⟨before, up⟩ := (Rising.concat_iff rfl).mp rising
          exact ((ih before up).record o).wait (past t (by simp [Access.instant?]))
      | read t =>
          obtain ⟨before, up⟩ := (Rising.concat_iff rfl).mp rising
          exact (ih before up).prune.wait (past t (by simp [Access.instant?]))
      | reset => exact (ih rising.of_concat earlier).reset

/-! ### Whatever is read in between -/

/-- A snapshot in a run tells what it would tell if no bucket were ever dropped, and no
snapshot depends on the others. -/
structure Unpruned (w : Window) (run : List Access) : Prop where
  /-- Every snapshot is that of the window that drops nothing. -/
  recalled : ∀ before now after, run = before ++ .read now :: after →
    (w.after before).tally now = w.recalled before now
  /-- A run with other snapshots before it gives the same snapshot. -/
  unaffected : ∀ other, Rising other → ∀ before now after before' after',
    run = before ++ .read now :: after → other = before' ++ .read now :: after' →
    before'.filter Access.writes = before.filter Access.writes →
    (w.after before').tally now = (w.after before).tally now

/-- A part of a run up to an access is itself a run. -/
theorem Rising.of_split {before after : List Access} {a : Access}
    (rising : Rising (before ++ a :: after)) : Rising (before ++ [a]) := by
  rw [List.append_cons, Rising, List.filterMap_append] at rising
  exact (List.pairwise_append.mp rising).1

theorem width_make_le (span : Duration) (wanted : Nat) :
    (make span wanted).width.nanos ≤ (make span wanted).span.nanos :=
  Nat.div_le_self _ _

/-- While time does not go back, nobody sees a window drop its stale buckets. -/
theorem unpruned (span : Duration) (wanted : Nat) {run : List Access} (rising : Rising run) :
    Unpruned (make span wanted) run := by
  have told : ∀ {run before : List Access} {now : Instant} {after : List Access}, Rising run →
      run = before ++ .read now :: after →
      ((make span wanted).after before).tally now = (make span wanted).recalled before now := by
    rintro _ before now after rising rfl
    obtain ⟨earlier, past⟩ := (Rising.concat_iff rfl).mp rising.of_split
    have recalls := recalls_after (width_make_le span wanted) rfl earlier past
    exact recalls.tally_eq
  constructor
  case recalled => exact fun before now after split => told rising split
  case unaffected =>
    intro other rising' before now after before' after' split split' same
    rw [told rising split, told rising' split', recalled, recalled, ← hoarded_filter_writes, same,
      hoarded_filter_writes]

/-- A failure whose bucket started just a span ago is counted, and a nanosecond later it is
gone, while the success that came in between is counted. -/
theorem unpruned_at_edge :
    Rising [.record .failure ⟨0⟩, .read ⟨1000000⟩, .record .success ⟨1000000⟩, .read ⟨1000001⟩,
      .reset, .record .timeout ⟨2000000⟩, .read ⟨3000000⟩] ∧
    Unpruned (make (.ofMillis 1) 10) [.record .failure ⟨0⟩, .read ⟨1000000⟩,
      .record .success ⟨1000000⟩, .read ⟨1000001⟩, .reset, .record .timeout ⟨2000000⟩,
      .read ⟨3000000⟩] ∧
    ((make (.ofMillis 1) 10).after [.record .failure ⟨0⟩]).tally ⟨1000000⟩ = { failure := 1 } ∧
    ((make (.ofMillis 1) 10).after [.record .failure ⟨0⟩, .read ⟨1000000⟩,
      .record .success ⟨1000000⟩]).tally ⟨1000001⟩ = { success := 1 } ∧
    ((make (.ofMillis 1) 10).after [.record .failure ⟨0⟩, .read ⟨1000000⟩,
      .record .success ⟨1000000⟩, .read ⟨1000001⟩, .reset,
      .record .timeout ⟨2000000⟩]).tally ⟨3000000⟩ = { timeout := 1 } :=
  ⟨by decide, unpruned _ _ (by decide), by decide, by decide, by decide⟩

end Window

end Bulwark
