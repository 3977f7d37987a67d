import Bulwark.Proofs.Memory
import Mathlib.Data.List.Chain

/-!
How the buckets of a window stand, and how many there are.

Only the newest bucket is looked at when an outcome is recorded, and only buckets at the
front are dropped. Still the buckets stand in order, whatever the clock does: a clock that was
set back reads as if no time had passed, so that the newest bucket takes the outcome. A new
bucket starts a width after the newest or later, and within the span after each that is left.
That is kept by every access (`Window.Spaced`), and bounds the number of buckets.

* `Window.spaced_after`: buckets stand so after every history.
* `Window.Spaced.length_le`: no more buckets are left than fit into the span.
* `Window.compact_after`: both, and that no stale bucket is left after an access.
-/

namespace Bulwark

namespace Window

/-- One bucket starts after another: by a width at least, and by no more than the span. -/
structure Trails (w : Window) (earlier later : Bucket) : Prop where
  apart : earlier.start.nanos + w.width.nanos ≤ later.start.nanos
  near : later.start.nanos ≤ earlier.start.nanos + w.span.nanos

/-- Each bucket starts after all those before it, and none is empty. -/
structure Spaced (w : Window) (bs : List Bucket) : Prop where
  trails : bs.Pairwise w.Trails
  filled : ∀ b ∈ bs, ∃ o, 0 < b.tally.count o

variable {w : Window} {bs : List Bucket}

/-! ### Stale buckets -/

/-- Where each bucket starts after all those before it, dropping stale buckets at the front
drops all. -/
theorem not_stale_of_mem_dropWhile (sorted : bs.Pairwise w.Trails) {now : Instant} {b : Bucket}
    (left : b ∈ bs.dropWhile (w.isStale now)) : now.nanos - w.span.nanos ≤ b.start.nanos := by
  induction bs with
  | nil => cases left
  | cons c rest ih =>
      obtain ⟨first, later⟩ := List.pairwise_cons.mp sorted
      cases stale : w.isStale now c with
      | true => exact ih later (by simpa only [List.dropWhile_cons_of_pos stale] using left)
      | false =>
          have young := of_decide_eq_false stale
          rw [List.dropWhile_cons_of_neg (by simp [stale])] at left
          rcases List.mem_cons.mp left with rfl | among
          · omega
          · have behind := (first b among).apart
            omega

/-! ### One access -/

theorem Spaced.sublist {cs : List Bucket} (spaced : w.Spaced bs) (part : cs.Sublist bs) :
    w.Spaced cs where
  trails := spaced.trails.sublist part
  filled b member := spaced.filled b (part.subset member)

/-- Buckets that are kept have the gaps that they had. -/
theorem Spaced.fresh (spaced : w.Spaced bs) (now : Instant) :
    w.Spaced (bs.dropWhile (w.isStale now)) :=
  spaced.sublist (List.dropWhile_sublist _)

theorem count_opened_pos (o : Outcome) (now : Instant) :
    0 < (Bucket.opened o now).tally.count o := by simp [Bucket.opened]

theorem count_bump_pos (b : Bucket) (o : Outcome) : 0 < (b.bump o).tally.count o := by
  simp [Bucket.bump]

/-- A bucket that does not take an outcome started a width before it or earlier. -/
theorem le_of_refused (positive : 0 < w.width.nanos) {now : Instant} {b : Bucket}
    (refused : ¬ w.accepts now b = true) : b.start.nanos + w.width.nanos ≤ now.nanos := by
  have old : w.width.nanos ≤ (b.start.elapsed now).nanos := by
    simpa only [accepts, decide_eq_true_eq, Nat.not_lt] using refused
  simpa only [Instant.later] using (Instant.le_elapsed_iff positive).mp old

/-- A bucket that starts after all others is put behind them. -/
theorem Spaced.concat (spaced : w.Spaced bs) {b : Bucket} (behind : ∀ c ∈ bs, w.Trails c b)
    {o : Outcome} (counts : 0 < b.tally.count o) : w.Spaced (bs ++ [b]) where
  trails := by
    refine List.pairwise_append.mpr ⟨spaced.trails, List.pairwise_singleton _ _, ?_⟩
    intro c member d only
    rw [List.mem_singleton.mp only]
    exact behind c member
  filled c member := by
    rcases List.mem_append.mp member with old | new
    · exact spaced.filled c old
    · rw [List.mem_singleton.mp new]
      exact ⟨o, counts⟩

/-- A bucket that is opened behind the newest, which started a width before it or earlier,
starts after all that are not stale. -/
theorem trails_opened {init : List Bucket} {last : Bucket}
    (spaced : w.Spaced (init ++ [last])) (o : Outcome) {now : Instant}
    (behind : last.start.nanos + w.width.nanos ≤ now.nanos)
    (young : ∀ b ∈ init ++ [last], now.nanos - w.span.nanos ≤ b.start.nanos) :
    ∀ b ∈ init ++ [last], w.Trails b (.opened o now) := by
  obtain ⟨_, _, across⟩ := List.pairwise_append.mp spaced.trails
  intro b member
  have recent := young b member
  refine ⟨?_, by simp only [Bucket.opened]; omega⟩
  rcases List.mem_append.mp member with old | newest
  · have gap := (across b old last (List.mem_singleton_self _)).apart
    simp only [Bucket.opened]
    omega
  · rwa [List.mem_singleton.mp newest]

/-- An outcome is recorded when no stale bucket is left. -/
theorem Spaced.append (spaced : w.Spaced bs) (positive : 0 < w.width.nanos) (o : Outcome)
    {now : Instant} (young : ∀ b ∈ bs, now.nanos - w.span.nanos ≤ b.start.nanos) :
    w.Spaced (w.append o now bs) := by
  rcases List.eq_nil_or_concat bs with rfl | ⟨init, last, rfl⟩
  · exact spaced.concat (fun c none_ => by cases none_) (count_opened_pos o now)
  · rw [List.concat_eq_append] at spaced young ⊢
    rw [append_concat]
    split
    · -- The newest bucket starts where it did.
      have before := spaced.sublist (List.sublist_append_left init [last])
      obtain ⟨_, _, across⟩ := List.pairwise_append.mp spaced.trails
      refine before.concat (fun c member => ?_) (count_bump_pos last o)
      have trails := across c member last (List.mem_singleton_self _)
      exact ⟨trails.apart, trails.near⟩
    · next refused =>
        have opened := trails_opened spaced o (le_of_refused positive refused) young
        have grown := spaced.concat opened (count_opened_pos o now)
        rwa [List.append_assoc] at grown

/-- Every access leaves buckets that stand so. -/
theorem Spaced.access (spaced : w.Spaced w.buckets) (positive : 0 < w.width.nanos) (a : Access) :
    w.Spaced (w.access a).buckets := by
  cases a with
  | record o now =>
      simp only [Window.access, buckets_record, buckets_prune]
      exact (spaced.fresh now).append positive o fun b left =>
        not_stale_of_mem_dropWhile spaced.trails left
  | read now =>
      simp only [Window.access, buckets_prune]
      exact spaced.fresh now
  | reset => exact ⟨List.Pairwise.nil, fun b none_ => by cases none_⟩

/-! ### Histories -/

/-- How buckets stand is a matter of the width and the span. -/
theorem Spaced.congr {v : Window} (spaced : v.Spaced bs) (width : v.width = w.width)
    (span : v.span = w.span) : w.Spaced bs where
  trails := spaced.trails.imp fun trails => ⟨width ▸ trails.apart, span ▸ trails.near⟩
  filled := spaced.filled

/-- The buckets of a window that was empty stand so after every history. -/
theorem spaced_after (blank : w.buckets = []) (positive : 0 < w.width.nanos)
    (history : List Access) : w.Spaced (w.after history).buckets := by
  induction history using List.reverseRecOn with
  | nil =>
      rw [show (w.after []).buckets = [] from blank]
      exact ⟨List.Pairwise.nil, fun b none_ => by cases none_⟩
  | append_singleton history a ih =>
      have width := w.width_after history
      have span := w.span_after history
      rw [after_concat]
      have here : (w.after history).Spaced (w.after history).buckets :=
        ih.congr width.symm span.symm
      exact (here.access (by rwa [width]) a).congr width span

/-! ### The number of buckets -/

/-- Buckets a width apart take up as many widths as there are gaps between them. -/
theorem length_mul_le (apart : bs.Pairwise w.Trails) {start stop : Int}
    (inside : ∀ b ∈ bs, start ≤ b.start.nanos ∧ b.start.nanos ≤ stop)
    (wide : start ≤ stop + w.width.nanos) :
    (bs.length : Int) * w.width.nanos ≤ stop - start + w.width.nanos := by
  induction bs generalizing start with
  | nil => simp only [List.length_nil]; omega
  | cons b rest ih =>
      obtain ⟨first, later⟩ := List.pairwise_cons.mp apart
      obtain ⟨own, others⟩ := List.forall_mem_cons.mp inside
      have beyond : ∀ c ∈ rest, b.start.nanos + w.width.nanos ≤ c.start.nanos ∧
          c.start.nanos ≤ stop :=
        fun c member => ⟨(first c member).apart, (others c member).2⟩
      have shorter := ih later beyond (by omega)
      rw [List.length_cons, Int.natCast_add, Int.natCast_one, Int.add_mul, Int.one_mul]
      omega

/-- No more buckets are left than fit into the span, and the newest. -/
theorem Spaced.length_le (spaced : w.Spaced bs) (positive : 0 < w.width.nanos) :
    bs.length ≤ w.span.nanos / w.width.nanos + 1 := by
  cases bs with
  | nil => exact Nat.zero_le _
  | cons b rest =>
      obtain ⟨first, later⟩ := List.pairwise_cons.mp spaced.trails
      -- All others start a width after the oldest or later, and within the span after it.
      have inside : ∀ c ∈ rest, b.start.nanos + w.width.nanos ≤ c.start.nanos ∧
          c.start.nanos ≤ b.start.nanos + w.span.nanos :=
        fun c member => ⟨(first c member).apart, (first c member).near⟩
      have taken := length_mul_le later inside (by omega)
      have fits : rest.length * w.width.nanos ≤ w.span.nanos := by omega
      exact Nat.succ_le_succ ((Nat.le_div_iff_mul_le positive).mpr fits)

/-! ### What is left of an access -/

/-- The newest bucket counts what was recorded last. -/
theorem exists_getLast?_append (w : Window) (o : Outcome) (now : Instant) (bs : List Bucket) :
    ∃ b, (w.append o now bs).getLast? = some b ∧ 0 < b.tally.count o := by
  rcases List.eq_nil_or_concat bs with rfl | ⟨init, last, rfl⟩
  · exact ⟨.opened o now, rfl, count_opened_pos o now⟩
  · rw [List.concat_eq_append, append_concat]
    split
    · exact ⟨last.bump o, by simp, count_bump_pos last o⟩
    · exact ⟨.opened o now, by simp, count_opened_pos o now⟩

/-- A bucket starts when an outcome is recorded that joins no earlier one. -/
theorem start_of_mem_append {o : Outcome} {now : Instant} {b : Bucket}
    (member : b ∈ w.append o now bs) : b.start = now ∨ ∃ c ∈ bs, c.start = b.start := by
  rcases List.eq_nil_or_concat bs with rfl | ⟨init, last, rfl⟩
  · exact .inl (by rw [List.mem_singleton.mp member]; rfl)
  · rw [List.concat_eq_append] at member ⊢
    rw [append_concat] at member
    split at member
    · rcases List.mem_append.mp member with old | new
      · exact .inr ⟨b, List.mem_append_left _ old, rfl⟩
      · exact .inr ⟨last, by simp, by rw [List.mem_singleton.mp new]; rfl⟩
    · rcases List.mem_append.mp member with old | new
      · exact .inr ⟨b, List.mem_append_left _ old, rfl⟩
      · rcases List.mem_cons.mp new with rfl | opened
        · exact .inr ⟨b, by simp, rfl⟩
        · exact .inl (by rw [List.mem_singleton.mp opened]; rfl)

/-- After an access no stale bucket is left. -/
theorem Spaced.unstale (spaced : w.Spaced w.buckets) {a : Access} {now : Instant}
    (used : a.instant? = some now) {b : Bucket} (member : b ∈ (w.access a).buckets) :
    now.nanos - w.span.nanos ≤ b.start.nanos := by
  cases a with
  | record o t =>
      obtain rfl := Option.some.inj used
      simp only [Window.access, buckets_record, buckets_prune] at member
      rcases start_of_mem_append member with new | ⟨c, left, same⟩
      · rw [new]
        omega
      · rw [← same]
        exact not_stale_of_mem_dropWhile spaced.trails left
  | read t =>
      obtain rfl := Option.some.inj used
      simp only [Window.access, buckets_prune] at member
      exact not_stale_of_mem_dropWhile spaced.trails member
  | reset => cases used

/-! ### Compactness -/

/-- The buckets that a history leaves, given the span of the window and their width. -/
structure Compact (span width : Duration) (history : List Access) (bs : List Bucket) : Prop where
  increasing : bs.Pairwise fun b c => b.start.nanos < c.start.nanos
  /-- From the start of a bucket to that of the next it is a width at least. -/
  gaps : bs.IsChain fun b c : Bucket => b.start.nanos + width.nanos ≤ c.start.nanos
  filled : ∀ b ∈ bs, ∃ o, 0 < b.tally.count o
  /-- The outcome that was recorded last is counted by the newest bucket. -/
  newest : ∀ past o now, history = past ++ [.record o now] →
    ∃ b, bs.getLast? = some b ∧ 0 < b.tally.count o
  bounded : bs.length ≤ span.nanos / width.nanos + 1
  /-- Right after an access no bucket at all is stale. -/
  unstale : ∀ past a now, history = past ++ [a] → a.instant? = some now →
    ∀ b ∈ bs, now.nanos - span.nanos ≤ b.start.nanos

/-- Whatever was done to a new window, in whatever order of time, its buckets are compact. -/
theorem compact_after (span : Duration) (wanted : Nat) (history : List Access)
    (positive : 0 < (make span wanted).width.nanos) :
    Compact span (make span wanted).width history ((make span wanted).after history).buckets := by
  have blank := buckets_make span wanted
  have spanned : (make span wanted).span = span := rfl
  generalize make span wanted = w at *
  subst spanned
  have spaced := spaced_after blank positive history
  constructor
  case increasing => exact spaced.trails.imp fun trails => by have := trails.apart; omega
  case gaps => exact (spaced.trails.imp fun trails => trails.apart).isChain
  case filled => exact spaced.filled
  case newest =>
    rintro past o now rfl
    rw [after_concat, access, buckets_record]
    exact exists_getLast?_append _ _ _ _
  case bounded => exact spaced.length_le positive
  case unstale =>
    rintro past a now rfl used b member
    have before := spaced_after blank positive past
    rw [after_concat] at member
    have left := (before.congr (w.width_after past).symm (w.span_after past).symm).unstale used
      member
    rwa [w.span_after past] at left

/-- A window of ten nanoseconds in three buckets can come to hold four, and a clock that is
set back starts no fifth. -/
theorem compact_of_setback :
    let span : Duration := ⟨10⟩
    let history : List Access := [.record .failure ⟨0⟩, .record .success ⟨3⟩, .record .timeout ⟨7⟩,
      .record .success ⟨10⟩, .record .rejected ⟨-4⟩, .read ⟨2⟩]
    let bs := ((make span 3).after history).buckets
    0 < (make span 3).width.nanos ∧ bs.length = span.nanos / (make span 3).width.nanos + 1 ∧
      Compact span (make span 3).width history bs :=
  ⟨by decide, by decide, compact_after _ 3 _ (by decide)⟩

end Window

end Bulwark
