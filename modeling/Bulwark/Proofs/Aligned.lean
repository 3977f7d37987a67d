import Bulwark.Proofs.Pruning
import Bulwark.Proofs.Trips

/-!
What outcomes of fallbacks do to a window and to a circuit.

Two windows stand side by side, and one of them is also told outcomes of fallbacks
that the other is not told of. They count the same requests and the same errors as
long as every outcome that both are told of finds its bucket in both. That fails
where such an outcome joins a bucket that was started for a fallback's sake, for in
the other window that bucket is missing and the outcome starts one of its own, which
goes stale later.

* `Window.Aligned`: the buckets of both, where the fuller window may have buckets that
  count nothing but outcomes of fallbacks.
* `Window.Beside.tally`: windows with such buckets count the same requests and errors.
* `Circuit.Abreast.allow` and the lemmas after it: two circuits with such windows go the
  same way and answer alike.
* `Circuit.Abreast.extra`: an outcome of a fallback that only one circuit is told of
  leaves them so.
-/

namespace Bulwark

namespace Tally

/-- Two tallies count the same requests and the same errors. -/
structure Matches (t u : Tally) : Prop where
  requests : t.requests = u.requests
  errors : t.errors = u.errors

namespace Matches

variable {t u t' u' : Tally}

theorem refl (t : Tally) : t.Matches t := ⟨rfl, rfl⟩

theorem trans (first : t.Matches u) (second : u.Matches t') : t.Matches t' :=
  ⟨first.requests.trans second.requests, first.errors.trans second.errors⟩

/-- Tallies that match still do after the same outcome. -/
theorem bump (same : t.Matches u) (o : Outcome) : (t.bump o).Matches (u.bump o) := by
  constructor
  · rw [requests_bump, requests_bump, same.requests]
  · rw [errors_bump, errors_bump, same.errors]

/-- An outcome of a fallback is neither a request nor an error. -/
theorem bump_fallback (t : Tally) {o : Outcome} (fallback : o.isPrimary = false) :
    (t.bump o).Matches t := by
  constructor
  · simp [requests_bump, fallback]
  · simp [errors_bump, fallback]

/-- Sums of tallies that match do so. -/
theorem merge (same : t.Matches u) (same' : t'.Matches u') :
    (t.merge t').Matches (u.merge u') := by
  obtain ⟨requests, errors⟩ := same
  obtain ⟨requests', errors'⟩ := same'
  constructor
  · simp only [Tally.requests, Tally.merge] at *
    omega
  · simp only [Tally.errors, Tally.merge] at *
    omega

theorem errorPct (same : t.Matches u) : t.errorPct = u.errorPct := by
  rw [Tally.errorPct, Tally.errorPct, same.requests, same.errors]

end Matches

/-- Nothing more is counted. -/
theorem merge_empty (t : Tally) : t.merge .empty = t := by
  ext o
  simp

theorem merge_assoc (t u v : Tally) : (t.merge u).merge v = t.merge (u.merge v) := by
  ext o
  simp only [count_merge]
  omega

end Tally

/-- The newest bucket counts last. -/
theorem Bucket.total_concat (bs : List Bucket) (b : Bucket) :
    total (bs ++ [b]) = (total bs).merge b.tally := by
  induction bs with
  | nil => rw [List.nil_append, total_cons, total_nil, Tally.merge_empty]; ext o; simp
  | cons c rest ih => rw [List.cons_append, total_cons, total_cons, ih, Tally.merge_assoc]

namespace Window

variable {w v u : Window} {now later : Instant} {alone : Bool} {bs cs : List Bucket}

/-! ### Buckets side by side -/

/-- The buckets of a window beside those of one that is not told of some outcomes of
fallbacks. The fuller one may have buckets of its own, each of which was started when the
newest of the other took no more outcomes. The mark says whether its newest is of this
kind. -/
inductive Aligned (w : Window) (now : Instant) : Bool → List Bucket → List Bucket → Prop where
  | nil (alone : Bool) : Aligned w now alone [] []
  | both {alone : Bool} {bs cs : List Bucket} {b c : Bucket} : Aligned w now alone bs cs →
      b.start = c.start → b.tally.Matches c.tally → Aligned w now false (bs ++ [b]) (cs ++ [c])
  | extra {alone : Bool} {bs cs : List Bucket} {b : Bucket} : Aligned w now alone bs cs →
      b.tally.Matches .empty → cs.getLast?.any (w.accepts now) = false →
      Aligned w now true (bs ++ [b]) cs

/-- A bucket that takes no more outcomes takes none later. -/
theorem refused_mono (onward : now.nanos ≤ later.nanos)
    (refused : bs.getLast?.any (w.accepts now) = false) :
    bs.getLast?.any (w.accepts later) = false := by
  cases last : bs.getLast? with
  | none => rfl
  | some b =>
      rw [last] at refused
      have old := of_decide_eq_false (show w.accepts now b = false from refused)
      refine decide_eq_false ?_
      simp only [Instant.elapsed] at old ⊢
      omega

namespace Aligned

/-- Time alone keeps windows aligned. -/
theorem wait (aligned : Aligned w now alone bs cs) (onward : now.nanos ≤ later.nanos) :
    Aligned w later alone bs cs := by
  induction aligned with
  | nil alone => exact .nil alone
  | both _ start same ih => exact ih.both start same
  | extra _ only refused ih => exact ih.extra only (refused_mono onward refused)

/-- Whatever is left out by the starts of the buckets, the same is counted. -/
theorem total (aligned : Aligned w now alone bs cs) (p : Instant → Bool) :
    (Bucket.total (bs.filter fun b => p b.start)).Matches
      (Bucket.total (cs.filter fun c => p c.start)) := by
  induction aligned with
  | nil alone => exact .refl _
  | @both _ _ _ b c _ start same ih =>
      cases kept : p c.start with
      | true =>
          simp only [List.filter_append, List.filter_cons, start, kept, if_true, List.filter_nil,
            Bucket.total_concat]
          exact ih.merge same
      | false => simpa [List.filter_cons, start, kept] using ih
  | @extra _ _ _ b _ only _ ih =>
      cases kept : p b.start with
      | true =>
          simp only [List.filter_append, List.filter_cons, kept, if_true, List.filter_nil,
            Bucket.total_concat]
          simpa [Tally.merge_empty] using ih.merge only
      | false => simpa [List.filter_cons, kept] using ih

/-- An outcome that both are told of finds its bucket in both, unless it joins a bucket
that the fuller one has alone. -/
theorem record (aligned : Aligned w now alone bs cs) (o : Outcome)
    (free : alone = true → bs.getLast?.any (w.accepts now) = false) :
    Aligned w now false (w.append o now bs) (w.append o now cs) := by
  cases aligned with
  | nil => exact (Aligned.nil false).both rfl (.refl _)
  | @both _ bs cs b c before start same =>
      have takes : w.accepts now b = w.accepts now c := by simp only [accepts, start]
      rw [append_concat, append_concat, takes]
      split
      · exact before.both start (same.bump o)
      · simpa using (before.both start same).both (b := .opened o now) rfl (.refl _)
  | extra before only refused =>
      rw [append_of_refused o (free rfl), append_of_refused o refused]
      exact (before.extra only refused).both rfl (.refl _)

/-- An outcome of a fallback that only the fuller one is told of. -/
theorem record_extra (aligned : Aligned w now alone bs cs) {o : Outcome}
    (fallback : o.isPrimary = false) :
    Aligned w now (if bs.getLast?.any (w.accepts now) then alone else true)
      (w.append o now bs) cs := by
  have single : (Bucket.opened o now).tally.Matches .empty := .bump_fallback _ fallback
  by_cases taken : bs.getLast?.any (w.accepts now) = true
  · rw [if_pos taken]
    cases aligned with
    | nil => cases taken
    | both before start same =>
        rw [List.getLast?_concat] at taken
        rw [append_concat, if_pos (by exact taken)]
        exact before.both start ((Tally.Matches.bump_fallback _ fallback).trans same)
    | extra before only refused =>
        rw [List.getLast?_concat] at taken
        rw [append_concat, if_pos (by exact taken)]
        exact before.extra ((Tally.Matches.bump_fallback _ fallback).trans only) refused
  · rw [if_neg taken, append_of_refused o (eq_false_of_ne_true taken)]
    -- The bucket is new, so no bucket accepted the outcome.
    refine aligned.extra single ?_
    cases aligned with
    | nil => rfl
    | @both _ bs cs b c _ start _ =>
        rw [List.getLast?_concat] at taken ⊢
        have takes : w.accepts now b = w.accepts now c := by simp only [accepts, start]
        exact takes.symm.trans (eq_false_of_ne_true taken)
    | extra _ _ refused => exact refused

end Aligned

/-! ### Windows side by side -/

/-- Two windows, made like a third, of which one may have been told more outcomes of
fallbacks. -/
def Beside (w : Window) (now : Instant) (alone : Bool) (v u : Window) : Prop :=
  ∃ bs cs, Recalls w v now bs ∧ Recalls w u now cs ∧ Aligned w now alone bs cs

namespace Beside

/-- An empty window is beside itself. -/
theorem blank (narrow : w.width.nanos ≤ w.span.nanos) (empty : w.buckets = []) (now : Instant)
    (alone : Bool) : Beside w now alone w w :=
  ⟨[], [], .blank narrow empty now, .blank narrow empty now, .nil alone⟩

theorem wait (beside : Beside w now alone v u) (onward : now.nanos ≤ later.nanos) :
    Beside w later alone v u := by
  obtain ⟨bs, cs, fuller, barer, aligned⟩ := beside
  exact ⟨bs, cs, fuller.wait onward, barer.wait onward, aligned.wait onward⟩

theorem prune (beside : Beside w now alone v u) :
    Beside w now alone (v.prune now) (u.prune now) := by
  obtain ⟨bs, cs, fuller, barer, aligned⟩ := beside
  exact ⟨bs, cs, fuller.prune, barer.prune, aligned⟩

theorem reset (beside : Beside w now alone v u) : Beside w now alone v.reset u.reset := by
  obtain ⟨bs, cs, fuller, barer, aligned⟩ := beside
  exact ⟨[], [], fuller.reset, barer.reset, .nil alone⟩

/-- Windows stay side by side when both record an outcome. An additional one that stands alone in
its bucket is alone no more. -/
theorem record (beside : Beside w now alone v u) (o : Outcome)
    (free : alone = true → v.joins now = false) :
    Beside w now false (v.record o now) (u.record o now) := by
  obtain ⟨bs, cs, fuller, barer, aligned⟩ := beside
  rw [fuller.joins_eq] at free
  exact ⟨_, _, fuller.record o, barer.record o, aligned.record o free⟩

/-- An additional outcome leaves windows side by side: it stands alone in a bucket that it starts,
and joins any other. -/
theorem record_extra (beside : Beside w now alone v u) {o : Outcome}
    (fallback : o.isPrimary = false) :
    Beside w now (if v.joins now then alone else true) (v.record o now) u := by
  obtain ⟨bs, cs, fuller, barer, aligned⟩ := beside
  rw [fuller.joins_eq]
  exact ⟨_, cs, fuller.record o, barer, aligned.record_extra fallback⟩

/-- Both count the same requests and the same errors. -/
theorem tally (beside : Beside w now alone v u) : (v.tally now).Matches (u.tally now) := by
  obtain ⟨bs, cs, fuller, barer, aligned⟩ := beside
  rw [fuller.tally_eq, barer.tally_eq]
  exact aligned.total fun start => decide (now.nanos - w.span.nanos ≤ start.nanos)

end Beside

end Window

/-! ### Circuits side by side -/

namespace Circuit

/-- Two circuits, of which one may have been told more outcomes of fallbacks. -/
structure Abreast (w : Window) (now : Instant) (alone : Bool) (c e : Circuit) : Prop where
  terms : c.terms = e.terms
  state : c.state = e.state
  since : c.since = e.since
  window : w.Beside now alone c.window e.window

/-- Both take a step, with the same answer and the same news. -/
structure Alike (w : Window) (now : Instant) (alone : Bool) (s t : Step) : Prop where
  circuit : Abreast w now alone s.circuit t.circuit
  answer : s.answer = t.answer
  news : s.news = t.news

namespace Abreast

variable {w : Window} {now later : Instant} {alone : Bool} {c e : Circuit}

theorem wait (abreast : Abreast w now alone c e) (onward : now.nanos ≤ later.nanos) :
    Abreast w later alone c e :=
  { abreast with window := abreast.window.wait onward }

theorem enter (abreast : Abreast w now alone c e) (shift : Shift) :
    Abreast w now alone (c.enter shift now) (e.enter shift now) :=
  { abreast with state := rfl, since := rfl }

theorem pruned (abreast : Abreast w now alone c e) :
    Abreast w now alone (c.pruned now) (e.pruned now) :=
  { abreast with window := abreast.window.prune }

theorem isRested (abreast : Abreast w now alone c e) : c.isRested now = e.isRested now := by
  have terms := abreast.terms
  simp only [Circuit.terms, Prod.mk.injEq] at terms
  rw [Circuit.isRested, Circuit.isRested, terms.2.2, abreast.since]

/-- Circuits side by side are ill together. -/
theorem isUnhealthy (abreast : Abreast w now alone c e) :
    c.isUnhealthy (c.window.tally now) = e.isUnhealthy (e.window.tally now) := by
  have terms := abreast.terms
  simp only [Circuit.terms, Prod.mk.injEq] at terms
  have same := abreast.window.tally
  rw [Circuit.isUnhealthy, Circuit.isUnhealthy, terms.1, terms.2.1, same.requests, same.errorPct]

/-- Both trip, or neither. -/
theorem examine (abreast : Abreast w now alone c e) :
    Alike w now alone (c.examine now) (e.examine now) := by
  have same := abreast.window.tally
  have trips : c.trip now = e.trip now := by
    rw [trip, trip, same.requests, same.errorPct]
  by_cases ill : c.isUnhealthy (c.window.tally now) = true
  · rw [examine_of_unhealthy ill, examine_of_unhealthy (abreast.isUnhealthy ▸ ill), trips]
    exact ⟨abreast.pruned.enter _, rfl, rfl⟩
  · rw [examine_of_healthy ill, examine_of_healthy (abreast.isUnhealthy ▸ ill)]
    exact ⟨abreast.pruned, rfl, rfl⟩

/-- Both let a request through, or neither. -/
theorem allow (abreast : Abreast w now alone c e) :
    Alike w now alone (c.allow now) (e.allow now) := by
  have same := abreast.state
  cases state : c.state with
  | closed =>
      simp only [Circuit.allow, state, ← same]
      obtain ⟨circuit, answer, news⟩ := abreast.examine
      exact ⟨circuit, congrArg (!·) answer, news⟩
  | opened =>
      simp only [Circuit.allow, state, ← same, ← abreast.isRested]
      split
      · exact ⟨abreast.enter _, rfl, rfl⟩
      · exact ⟨abreast, rfl, rfl⟩
  | halfOpen =>
      simp only [Circuit.allow, state, ← same, ← abreast.isRested]
      split
      · exact ⟨⟨abreast.terms, rfl, rfl, abreast.window⟩, rfl, rfl⟩
      · exact ⟨abreast, rfl, rfl⟩

/-- Circuits side by side are examined alike. -/
theorem isOpen (abreast : Abreast w now alone c e) :
    Alike w now alone (c.isOpen now) (e.isOpen now) := by
  have same := abreast.state
  cases state : c.state with
  | closed =>
      simp only [Circuit.isOpen, state, ← same]
      exact abreast.examine
  | opened | halfOpen =>
      simp only [Circuit.isOpen, state, ← same]
      exact ⟨abreast, rfl, rfl⟩

/-- Circuits side by side are forced open alike. -/
theorem forceOpen (abreast : Abreast w now alone c e) :
    Alike w now alone (c.forceOpen now) (e.forceOpen now) := by
  have same := abreast.state
  cases state : c.state with
  | opened =>
      simp only [Circuit.forceOpen, state, ← same]
      exact ⟨abreast, rfl, rfl⟩
  | closed | halfOpen =>
      simp only [Circuit.forceOpen, state, ← same]
      exact ⟨abreast.enter _, rfl, rfl⟩

/-- Circuits side by side are forced closed alike. -/
theorem forceClosed (abreast : Abreast w now alone c e) :
    Alike w now alone (c.forceClosed now) (e.forceClosed now) := by
  have same := abreast.state
  cases state : c.state with
  | closed =>
      simp only [Circuit.forceClosed, state, ← same]
      exact ⟨abreast, rfl, rfl⟩
  | opened | halfOpen =>
      simp only [Circuit.forceClosed, state, ← same]
      exact ⟨{ abreast.enter .forcedClosed with window := abreast.window.reset }, rfl, rfl⟩

/-- An outcome that both are told of decides both alike. -/
theorem absorb (abreast : Abreast w now alone c e) (o : Outcome)
    (free : alone = true → c.window.joins now = false) :
    Alike w now false (c.absorb o now) (e.absorb o now) := by
  have same := abreast.state
  have window := abreast.window.record o free
  cases state : c.state with
  | closed | opened =>
      simp only [Circuit.absorb, state, ← same]
      exact ⟨⟨abreast.terms, rfl, abreast.since, window⟩, rfl, rfl⟩
  | halfOpen =>
      simp only [Circuit.absorb, state, ← same]
      split
      · exact ⟨⟨abreast.terms, rfl, rfl, window.reset⟩, rfl, rfl⟩
      · split
        · exact ⟨⟨abreast.terms, rfl, rfl, window⟩, rfl, rfl⟩
        · exact ⟨⟨abreast.terms, rfl, abreast.since, window⟩, rfl, rfl⟩

/-- An outcome of a fallback decides nothing. -/
theorem absorb_fallback (c : Circuit) {o : Outcome} (fallback : o.isPrimary = false)
    (now : Instant) :
    c.absorb o now = ⟨{ c with window := c.window.record o now }, false, none⟩ := by
  have unsuccessful : o ≠ .success := by
    rintro rfl
    cases fallback
  have unexecuted : ¬ o.isExecutionError = true := by
    intro execution
    rw [(Outcome.isError_of_isExecutionError execution).2] at fallback
    cases fallback
  simp only [Circuit.absorb, if_neg unsuccessful, if_neg unexecuted]
  cases c.state <;> rfl

/-- An outcome of a fallback that only one is told of. -/
theorem extra (abreast : Abreast w now alone c e) {o : Outcome} (fallback : o.isPrimary = false) :
    Abreast w now (if c.window.joins now then alone else true) (c.absorb o now).circuit e := by
  rw [absorb_fallback c fallback]
  exact { abreast with window := abreast.window.record_extra fallback }

end Abreast

end Circuit

end Bulwark
