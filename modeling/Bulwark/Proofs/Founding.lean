import Bulwark.Proofs.Threshold

/-!
What a new command needs, and what its settings are checked for.

A command is founded with a pool and a window. Neither can be had under all settings: a pool
holds only so many tickets, and the span of a window is divided by the number of its buckets.
Here both may fail (`Settings.found?`), and settings without a defect are those under which
they do not, and under which the command can work. The check counts whole milliseconds and any
number of buckets; the division counts nanoseconds, and no more buckets than fit into 32 bits.

* `Window.make?_eq`: whatever is asked for, a window never divides by zero.
* `Settings.Usable.founds`: under usable settings the pool has a ticket, and each bucket of the
  window lasts a millisecond at least (`Settings.Backs`).
* `Lasting.leads`: what every act keeps holds at every moment of every run.
* `Engine.Reached.soundlyFounded`: so every command that ever comes into use is well founded.
-/

namespace Bulwark

/-! ### Construction that may fail -/

/-- One of several equal parts of a duration, rounded down, unless there are none. -/
def Duration.split? (d : Duration) (parts : Nat) : Option Duration :=
  if parts = 0 then none else some ⟨d.nanos / parts⟩

/-- An empty window, unless its span is to be divided by zero. -/
def Window.make? (span : Duration) (wanted : Nat) : Option Window :=
  (span.split? (bucketCount wanted)).map fun width => { span := span, width := width }

def Circuit.make? (s : Settings) (now : Instant) : Option Circuit :=
  (Window.make? s.rollingWindow s.windowBuckets).map fun window =>
    { errorThresholdPct := s.errorThresholdPct, volumeThreshold := s.volumeThreshold,
      sleepWindow := s.sleepWindow, state := .closed, since := now, window := window }

/-- What a command is founded with, unless that cannot be constructed. -/
def Settings.found? (s : Settings) (now : Instant) : Option (Desk × Circuit) :=
  match Circuit.make? s now, Pool.make? s.maxConcurrent with
  | some c, some pool => some ({ settings := s, pool := pool }, c)
  | _, _ => none

/-- A window never divides by zero. -/
theorem Window.make?_eq (span : Duration) (wanted : Nat) :
    make? span wanted = some (make span wanted) := by
  have some_ := bucketCount_pos wanted
  simp only [make?, Duration.split?, if_neg some_.ne', Option.map_some, make]

theorem Circuit.make?_eq (s : Settings) (now : Instant) : make? s now = some (make s now) := by
  simp only [make?, Window.make?_eq, Option.map_some, make]

theorem Pool.make?_of_le {capacity : Nat} (fits : capacity ≤ maxTickets) :
    make? capacity = some (.full capacity) := by
  simp only [make?, if_pos fits, full]

/-- A pool with more tickets than a semaphore can count is not made. -/
theorem Pool.make?_of_lt {capacity : Nat} (many : maxTickets < capacity) :
    make? capacity = none := by
  simp only [make?, if_neg (Nat.not_le.mpr many)]

namespace Settings

variable {s : Settings} {now : Instant}

def desk (s : Settings) : Desk := { settings := s, pool := .full s.maxConcurrent }

theorem found?_of_le (fits : s.maxConcurrent ≤ maxTickets) :
    s.found? now = some (s.desk, .make s now) := by
  simp only [found?, Circuit.make?_eq, Pool.make?_of_le fits, desk]

/-- All that can fail is the pool. -/
theorem found?_eq_none_iff : s.found? now = none ↔ maxTickets < s.maxConcurrent := by
  rcases Nat.lt_or_ge maxTickets s.maxConcurrent with many | fits
  · simp only [found?, Circuit.make?_eq, Pool.make?_of_lt many, many]
  · simp only [found?_of_le fits, reduceCtorEq, Nat.not_lt.mpr fits]

/-! ### Under usable settings -/

/-- A desk and a circuit make a working command under the settings. -/
structure Backs (s : Settings) (desk : Desk) (c : Circuit) : Prop where
  settings : desk.settings = s
  capacity : desk.pool.capacity = s.maxConcurrent
  /-- The pool has a ticket, and no more than it can hold. -/
  tickets : 1 ≤ desk.pool.capacity ∧ desk.pool.capacity ≤ Nat.pow 2 61 - 1
  span : c.window.span = s.rollingWindow
  /-- A bucket lasts a millisecond at least. -/
  millisecond : 1000000 ≤ c.window.width.nanos
  within : c.window.width.nanos ≤ s.rollingWindow.nanos
  /-- The buckets fill the window, and would not fit if they were a nanosecond longer. -/
  divided : min s.windowBuckets (Nat.pow 2 32 - 1) * c.window.width.nanos ≤ s.rollingWindow.nanos ∧
    s.rollingWindow.nanos < min s.windowBuckets (Nat.pow 2 32 - 1) * (c.window.width.nanos + 1)

namespace Usable

variable (usable : s.Usable)

include usable

/-- The number of buckets is clamped to what fits into 32 bits. -/
theorem bucketCount :
    Window.bucketCount s.windowBuckets = min s.windowBuckets (Nat.pow 2 32 - 1) := by
  rw [Window.bucketCount, Nat.max_eq_left usable.buckets]

/-- There is a millisecond for every bucket, also where fewer are made than are wanted. -/
theorem bucketCount_le_millis : Window.bucketCount s.windowBuckets ≤ s.rollingWindow.millis := by
  rw [usable.bucketCount]
  exact Nat.le_trans (Nat.min_le_left _ _) usable.width

/-- With settings that pass validation a bucket is a millisecond or more. -/
theorem le_width :
    1000000 ≤ s.rollingWindow.nanos / Window.bucketCount s.windowBuckets := by
  rw [Nat.le_div_iff_mul_le (Window.bucketCount_pos _), Nat.mul_comm,
    ← Nat.le_div_iff_mul_le (by decide)]
  exact usable.bucketCount_le_millis

/-- Under usable settings, desks and circuits that stand by them make a working command. -/
theorem backs {desk : Desk} {c : Circuit} (settings : desk.settings = s)
    (capacity : desk.pool.capacity = s.maxConcurrent) (serves : c.Serves s) :
    s.Backs desk c := by
  have span : c.window.span = s.rollingWindow := congrArg (·.span) serves.window
  have width : c.window.width.nanos =
      s.rollingWindow.nanos / Window.bucketCount s.windowBuckets :=
    congrArg (·.width.nanos) serves.window
  refine ⟨settings, capacity, ?_, span, ?_, ?_, ?_⟩
  case refine_1 => exact capacity ▸ usable.concurrency
  case refine_2 => exact width ▸ usable.le_width
  case refine_3 => exact width ▸ Nat.div_le_self _ _
  case refine_4 =>
    rw [width, ← usable.bucketCount]
    exact ⟨Nat.mul_div_le _ _, Nat.lt_mul_div_succ _ (Window.bucketCount_pos _)⟩

/-- Usable settings found a working command. -/
theorem founds (now : Instant) :
    s.found? now = some (s.desk, .make s now) ∧ s.Backs s.desk (.make s now) :=
  ⟨found?_of_le usable.concurrency.2, usable.backs rfl rfl (Circuit.serves_make s now)⟩

end Usable

end Settings

/-! ### Every moment of every run -/

namespace Engine

variable {e e' : Engine} {n : Name} {holds : Engine → Prop}

namespace Lasting

variable (lasting : Lasting holds)
  (changed : ∀ e c, holds e → holds { e with policy := e.policy.change c })

include lasting changed

/-- What lasts, and survives every change of the policy, holds after any event. -/
theorem next (here : holds e) (event : Next e e') : holds e' := by
  have habit := lasting.habit default
  cases event with
  | begin still => exact habit.begin here lasting.served still fun c _ => changed e c here
  | @take before after u _ =>
      have unqueued : holds { e with queue := before ++ after } := habit.aside here rfl rfl rfl
      exact lasting.take unqueued u
  | @hold before after k _ operation _ _ _ _ =>
      have unqueued : holds { e with queue := before ++ after } := habit.aside here rfl rfl rfl
      exact (lasting.habit k).hold unqueued operation
  | @goOn k _ _ _ _ _ => exact (lasting.habit k).goOn here fun _ _ _ _ => trivial
  | ring _ _ _ => exact habit.enqueue (habit.updateCall here _ _) _
  | clock t => exact lasting.setNow e t here

/-- What every act keeps, changes of the policy too, holds at every moment of a run. -/
theorem leads (here : holds e) (run : Leads e e') : holds e' := by
  induction run with
  | refl => exact here
  | next _ event ih => exact lasting.next changed ih event

end Lasting

/-- At every moment, commands in use have a circuit that serves their settings. -/
theorem Reached.furnished (reached : e.Reached) : e.Furnished := by
  obtain ⟨defaults, items, hooks, run⟩ := reached
  exact Furnished.lasting.leads (fun _ _ furnished => furnished)
    (furnished_build defaults items hooks) run

/-- What settings are checked for is what commands need, those in use and those to come. -/
structure Founded (e : Engine) : Prop where
  /-- Settings pass the check just when they keep to the limits. -/
  checked : ∀ s : Settings, s.defect? = none ↔
    0 < s.timeout.nanos ∧ (1 ≤ s.maxConcurrent ∧ s.maxConcurrent ≤ Nat.pow 2 61 - 1) ∧
      s.errorThresholdPct ≤ 100 ∧ 1 ≤ s.windowBuckets ∧ s.windowBuckets ≤ s.rollingWindow.millis
  /-- Settings that pass can be founded on, and back what is founded. -/
  sufficient : ∀ (s : Settings) (now : Instant), s.defect? = none →
    ∃ desk c, s.found? now = some (desk, c) ∧ s.Backs desk c
  /-- Nothing but the limit of the pool keeps settings from being founded on. -/
  limited : ∀ (s : Settings) (now : Instant),
    s.found? now = none ↔ Nat.pow 2 61 - 1 < s.maxConcurrent
  /-- A window never divides by zero, whether or not settings pass. -/
  undivided : ∀ span wanted, ∃ w, Window.make? span wanted = some w
  /-- A command that is not in use, and whose settings pass, is created with what its settings
  found. -/
  created : ∀ n, e.desks.get? n = none → (e.policy.settings n).defect? = none →
    (e.create n).2 = none ∧ ∃ desk c, (e.policy.settings n).found? e.now = some (desk, c) ∧
      (e.create n).1.desks.get? n = some desk ∧ (e.create n).1.board.circuits.get? n = some c
  /-- Every command in use is backed by the settings that it serves. -/
  inUse : ∀ n desk, e.desks.get? n = some desk →
    desk.settings.defect? = none ∧
      ∃ c, e.board.circuits.get? n = some c ∧ desk.settings.Backs desk c

/-- A command with sound settings is founded with them. -/
theorem create_founds (absent : e.desks.get? n = none)
    (sound : (e.policy.settings n).defect? = none) :
    (e.create n).2 = none ∧ ∃ desk c, (e.policy.settings n).found? e.now = some (desk, c) ∧
      (e.create n).1.desks.get? n = some desk ∧
        (e.create n).1.board.circuits.get? n = some c := by
  have usable := (e.policy.settings n).defect?_eq_none_iff.mp sound
  have unused : e.settings? n = none := Option.map_eq_none_iff.mpr absent
  rw [create_of_sound unused sound]
  exact ⟨rfl, _, _, (usable.founds e.now).1, Roster.get?_put_self _ _ _,
    Roster.get?_put_self _ _ _⟩

/-- At every moment of every run, commands are well founded. -/
theorem Reached.soundlyFounded (reached : e.Reached) : e.Founded := by
  have orderly := reached.ordered.orderly
  constructor
  case checked =>
    intro s
    rw [Settings.defect?_eq_none_iff]
    constructor
    · intro usable
      exact ⟨usable.timeout, usable.concurrency, usable.threshold, usable.buckets, usable.width⟩
    · rintro ⟨timeout, concurrency, threshold, buckets, width⟩
      exact ⟨timeout, concurrency, threshold, buckets, width⟩
  case sufficient =>
    intro s now sound
    exact ⟨_, _, (s.defect?_eq_none_iff.mp sound).founds now⟩
  case limited => exact fun s now => Settings.found?_eq_none_iff
  case undivided => exact fun span wanted => ⟨_, Window.make?_eq span wanted⟩
  case created => exact fun n absent sound => create_founds absent sound
  case inUse =>
    intro n desk found
    have usable := orderly.usable n desk found
    have used : e.settings? n = some desk.settings := by rw [settings?, found, Option.map_some]
    obtain ⟨c, known, serves⟩ := reached.furnished n _ used
    exact ⟨(Settings.defect?_eq_none_iff _).mpr usable, c, known,
      usable.backs rfl (orderly.balanced n desk found).capacity serves⟩

/-- A command in use with more buckets than fit into 32 bits, and just as many milliseconds. -/
theorem soundlyFounded_of_many_buckets :
    let many := 4294967301
    let e := (build { window := some (.ofMillis many, many) } [] {}).run [.create "svc"]
    (e.desks.get? "svc").isSome = true ∧ e.Reached ∧ e.Founded := by
  intro many e
  have reached : e.Reached := reached_run _ _ _ _
  exact ⟨by decide +kernel, reached, reached.soundlyFounded⟩

end Engine

end Bulwark
