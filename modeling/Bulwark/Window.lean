import Bulwark.Row
import Bulwark.Tally

/-!
Rolling windows: outcomes of the recent past, gathered into buckets.

A window keeps buckets, oldest first. An outcome joins the newest bucket while
that bucket is younger than the bucket width, and starts a new bucket
otherwise. Every access first drops the buckets at the front that started
before the span of the window; the tally is over those that are left.

`Window.buckets` is the list of the buckets. What the operations do to it is
told by `buckets_prune`, `buckets_record` and `buckets_reset`.
-/

namespace Bulwark

structure Bucket where
  start : Instant
  tally : Tally
  deriving DecidableEq, Repr, Inhabited

/-- Outcomes of the recent past, in buckets from the oldest to the newest. -/
structure Window where
  span : Duration
  width : Duration
  row : Row Bucket := .empty
  deriving DecidableEq, Repr, Inhabited

namespace Bucket

def opened (o : Outcome) (now : Instant) : Bucket := ⟨now, Tally.empty.bump o⟩

def bump (b : Bucket) (o : Outcome) : Bucket := { b with tally := b.tally.bump o }

def total (buckets : List Bucket) : Tally := (buckets.map (·.tally)).foldr .merge .empty

@[simp] theorem total_nil : total [] = .empty := rfl

@[simp] theorem total_cons (b : Bucket) (bs : List Bucket) :
    total (b :: bs) = b.tally.merge (total bs) := rfl

end Bucket

namespace Window

def buckets (w : Window) : List Bucket := w.row.toList

/-- The number of buckets a window is divided into: at least one, and no more
than fits into 32 bits. -/
def bucketCount (wanted : Nat) : Nat := min (max wanted 1) 4294967295

/-- An empty window of a given span, divided into a number of buckets. -/
def make (span : Duration) (wanted : Nat) : Window where
  span := span
  width := ⟨span.nanos / bucketCount wanted⟩

/-- A division of the span never divides by zero. -/
theorem bucketCount_pos (wanted : Nat) : 0 < bucketCount wanted := by
  unfold bucketCount
  omega

/-- The bucket started before the span of the window that ends now. -/
def isStale (w : Window) (now : Instant) (b : Bucket) : Bool :=
  decide (b.start.nanos < now.nanos - w.span.nanos)

def prune (w : Window) (now : Instant) : Window :=
  { w with row := w.row.dropWhile (w.isStale now) }

/-- The bucket takes further outcomes: it is younger than the bucket width. -/
def accepts (w : Window) (now : Instant) (b : Bucket) : Bool :=
  decide ((b.start.elapsed now).nanos < w.width.nanos)

/-- Records an outcome: in the newest bucket, or in a new one behind it. -/
def record (w : Window) (o : Outcome) (now : Instant) : Window :=
  let kept := w.prune now
  match kept.row.last? with
  | some b =>
      if w.accepts now b then { kept with row := kept.row.setLast (b.bump o) }
      else { kept with row := kept.row.push (.opened o now) }
  | none => { kept with row := kept.row.push (.opened o now) }

def recordMany (w : Window) (o : Outcome) (now : Instant) : Nat → Window
  | 0 => w
  | n + 1 => (w.record o now).recordMany o now n

def tally (w : Window) (now : Instant) : Tally := Bucket.total (w.prune now).buckets

def reset (w : Window) : Window := { w with row := .empty }

inductive Access where
  | record (o : Outcome) (now : Instant)
  | read (now : Instant)
  | reset
  deriving DecidableEq, Repr, Inhabited

def access (w : Window) : Access → Window
  | .record o now => w.record o now
  | .read now => w.prune now
  | .reset => w.reset

/-! ### What no operation changes -/

@[simp] theorem span_prune (w : Window) (now : Instant) : (w.prune now).span = w.span := rfl

@[simp] theorem width_prune (w : Window) (now : Instant) : (w.prune now).width = w.width := rfl

@[simp] theorem span_record (w : Window) (o : Outcome) (now : Instant) :
    (w.record o now).span = w.span := by
  simp only [record]
  repeat' split
  all_goals rfl

@[simp] theorem width_record (w : Window) (o : Outcome) (now : Instant) :
    (w.record o now).width = w.width := by
  simp only [record]
  repeat' split
  all_goals rfl

/-! ### What each operation does to the buckets -/

@[simp] theorem buckets_make (span : Duration) (wanted : Nat) :
    (make span wanted).buckets = [] := rfl

@[simp] theorem buckets_reset (w : Window) : w.reset.buckets = [] := rfl

theorem buckets_prune (w : Window) (now : Instant) :
    (w.prune now).buckets = w.buckets.dropWhile (w.isStale now) :=
  Row.toList_dropWhile _ _

/-- An outcome joins the newest bucket, or starts a new one behind it. -/
def append (w : Window) (o : Outcome) (now : Instant) : List Bucket → List Bucket
  | [] => [.opened o now]
  | [b] => if w.accepts now b then [b.bump o] else [b, .opened o now]
  | b :: c :: rest => b :: w.append o now (c :: rest)

/-- An outcome is counted in the last bucket if that accepts it, and starts one otherwise. -/
theorem append_concat (w : Window) (o : Outcome) (now : Instant) (bs : List Bucket) (b : Bucket) :
    w.append o now (bs ++ [b]) =
      if w.accepts now b then bs ++ [b.bump o] else bs ++ [b, .opened o now] := by
  induction bs with
  | nil => rfl
  | cons c rest ih =>
    cases rest with
    | nil =>
      simp only [List.cons_append, List.nil_append, append]
      split <;> rfl
    | cons d rest =>
      simp only [List.cons_append, append] at ih ⊢
      rw [ih]
      split <;> rfl

/-- A window records an outcome among the buckets that pruning leaves. -/
theorem buckets_record (w : Window) (o : Outcome) (now : Instant) :
    (w.record o now).buckets = w.append o now (w.prune now).buckets := by
  simp only [record, buckets, Row.last?_eq_getLast?]
  rcases List.eq_nil_or_concat (w.prune now).row.toList with none_ | ⟨front, last, some_⟩
  · simp [none_, append]
  · simp only [some_, List.concat_eq_append, List.getLast?_concat, append_concat]
    split <;> simp [Row.toList_setLast, some_]

end Window

end Bulwark
