import Bulwark.Proofs.Aligned
import Bulwark.Proofs.Sides

/-!
Two runs of one circuit, one of which also reports outcomes of fallbacks.

A script of beats tells both runs at once: a beat is shared, or is an additional
report of an outcome of a fallback in the fuller run. Hooks do no actions, so what
is done to the circuit is what the beats ask for.

At every point of the script both runs answer alike (`Board.unswayed`): both let
requests through, or neither; their circuits are in the same state, and count the
same requests and errors. It takes that no shared report joins a bucket that an
additional report started (`Board.undisturbed`). Otherwise the outcome counts from
an earlier instant in the fuller run, and is gone earlier
(`Board.swayed_of_older_bucket`).
-/

namespace Bulwark

/-- Two replies agree, but for how often fallbacks succeeded or failed. -/
def Reply.Agrees : Reply → Reply → Prop
  | .tally t, .tally u => t.Matches u
  | r, s => r = s

theorem Reply.Agrees.of_eq {r s : Reply} (same : r = s) : r.Agrees s := by
  subst same
  cases r with
  | tally t => exact .refl t
  | yes | state | count | text | done | refused => rfl

theorem Hooks.Silent.put {hooks : Hooks} (silent : hooks.Silent) (o : Occasion) {hook : Hook}
    (idle : hook.actions = []) : (hooks.put o hook).Silent := by
  intro p other found
  rw [Hooks.get?_put] at found
  split at found
  · obtain rfl := Option.some.inj found
    exact idle
  · exact silent p other found

namespace Board

/-! ### Hooks that do no actions -/

/-- A board differs from another in its journal alone. -/
def Retold (b b' : Board) : Prop := b' = { b with journal := b'.journal }

namespace Retold

variable {b b' b'' : Board}

theorem refl (b : Board) : Retold b b := rfl

theorem note (b : Board) (e : Entry) : Retold b (b.note e) := rfl

theorem trans (first : Retold b b') (second : Retold b' b'') : Retold b b'' := by
  rw [Retold, second, first]

theorem now (retold : Retold b b') : b'.now = b.now := by rw [retold]

theorem circuits (retold : Retold b b') : b'.circuits = b.circuits := by rw [retold]

theorem hooks (retold : Retold b b') : b'.hooks = b.hooks := by rw [retold]

theorem putCircuit (retold : Retold b b') (n : Name) (c : Circuit) :
    Retold (b.putCircuit n c) (b'.putCircuit n c) := by
  rw [Retold, retold]
  rfl

end Retold

section Silent

variable {b : Board} {n : Name} {c : Circuit}

/-- A hook that does no actions only leaves its label. -/
theorem retold_bell (silent : b.hooks.Silent) (o : Occasion) (n : Name) (r : Option Report) :
    Retold b (bell o n r b) := by
  simp only [bell, ring]
  cases set : b.hooks.get? o with
  | none => exact .refl b
  | some hook =>
      simp only [silent o hook set, List.foldl_nil]
      exact .note b _

theorem retold_take (silent : b.hooks.Silent) (n : Name) (step : Circuit.Step) :
    Retold (b.putCircuit n step.circuit) (take bell n step b) := by
  rw [take]
  rcases step.news with _ | ⟨shift⟩ | _
  · exact .refl _
  · exact (Retold.note _ (.remark n (.told (.shifted shift)))).trans
      (retold_bell (by exact silent) _ _ _)
  · exact .note _ (.remark n (.told .rearmed))

/-- Asking takes the step of the circuit and nothing more. -/
theorem retold_allow (silent : b.hooks.Silent) (found : b.circuits.get? n = some c)
    (caller : Option CallKey) :
    Retold (b.putCircuit n (c.allow b.now).circuit) (allow bell caller n b).1 := by
  simp only [allow, found]
  exact ((Retold.note b _).putCircuit n _).trans (retold_take (by exact silent) n _)

/-- A report takes the step of the circuit and nothing more. -/
theorem retold_report (silent : b.hooks.Silent) (found : b.circuits.get? n = some c)
    (caller : Option CallKey) (r : Report) :
    Retold (b.putCircuit n (c.absorb r.outcome b.now).circuit) (report bell caller n r b) := by
  simp only [report, found]
  have taken : Retold (b.putCircuit n (c.absorb r.outcome b.now).circuit)
      (take bell n (c.absorb r.outcome b.now) (b.note (.recorded n caller r))) :=
    ((Retold.note b _).putCircuit n _).trans (retold_take (by exact silent) n _)
  exact taken.trans (retold_bell (by rw [taken.hooks]; exact silent) _ _ _)

end Silent

/-! ### Boards side by side -/

/-- Two boards with one circuit each, whose circuits stand side by side, under hooks that
do no actions. -/
structure Abreast (n : Name) (w : Window) (alone : Bool) (x y : Board) : Prop where
  now : x.now = y.now
  silent : x.hooks.Silent ∧ y.hooks.Silent
  only : ∀ m, m ≠ n → x.circuits.get? m = none ∧ y.circuits.get? m = none
  circuit : ∃ c e, x.circuits.get? n = some c ∧ y.circuits.get? n = some e ∧
    c.Abreast w x.now alone e

namespace Abreast

variable {n : Name} {w : Window} {alone left : Bool} {x y x' y' : Board} {c e : Circuit}

/-- Circuits that stand side by side are entered, and the journals go on. -/
theorem put (abreast : Abreast n w alone x y) (circuits : c.Abreast w x.now left e)
    (retold : Retold (x.putCircuit n c) x') (retold' : Retold (y.putCircuit n e) y') :
    Abreast n w left x' y' := by
  constructor
  case now => rw [retold.now, retold'.now]; exact abreast.now
  case silent => rw [retold.hooks, retold'.hooks]; exact abreast.silent
  case only =>
    intro m other
    rw [retold.circuits, retold'.circuits]
    exact ⟨(Roster.get?_put_of_ne _ _ (Ne.symm other)).trans (abreast.only m other).1,
      (Roster.get?_put_of_ne _ _ (Ne.symm other)).trans (abreast.only m other).2⟩
  case circuit =>
    refine ⟨c, e, ?_, ?_, ?_⟩
    · rw [retold.circuits]; exact Roster.get?_put_self _ _ _
    · rw [retold'.circuits]; exact Roster.get?_put_self _ _ _
    · rw [retold.now]; exact circuits

/-- Only the fuller run goes on. -/
theorem put_left (abreast : Abreast n w alone x y) (found : y.circuits.get? n = some e)
    (circuits : c.Abreast w x.now left e) (retold : Retold (x.putCircuit n c) x') :
    Abreast n w left x' y := by
  constructor
  case now => rw [retold.now]; exact abreast.now
  case silent => rw [retold.hooks]; exact abreast.silent
  case only =>
    intro m other
    rw [retold.circuits]
    exact ⟨(Roster.get?_put_of_ne _ _ (Ne.symm other)).trans (abreast.only m other).1,
      (abreast.only m other).2⟩
  case circuit =>
    refine ⟨c, e, ?_, found, ?_⟩
    · rw [retold.circuits]; exact Roster.get?_put_self _ _ _
    · rw [retold.now]; exact circuits

/-- Boards abreast stay so when their circuits take like steps. -/
theorem take {s t : Circuit.Step} (abreast : Abreast n w alone x y)
    (alike : Circuit.Alike w x.now left s t) :
    Abreast n w left (take bell n s x) (take bell n t y) :=
  abreast.put alike.circuit (retold_take abreast.silent.1 n s) (retold_take abreast.silent.2 n t)

/-- Boards abreast give the same answer to a question. -/
theorem allow (abreast : Abreast n w alone x y) :
    Abreast n w alone (allow bell none n x).1 (allow bell none n y).1 ∧
      (allow bell none n x).2 = (allow bell none n y).2 := by
  obtain ⟨c, e, found, found', circuits⟩ := abreast.circuit
  have asked := retold_allow abreast.silent.1 found none
  have asked' := retold_allow abreast.silent.2 found' none
  rw [← abreast.now] at asked'
  refine ⟨abreast.put circuits.allow.circuit asked asked', ?_⟩
  simp only [Board.allow, found, found', ← abreast.now]
  exact circuits.allow.answer

theorem allowMany (abreast : Abreast n w alone x y) (askers : Nat) :
    Abreast n w alone (allowMany bell n askers x).1 (allowMany bell n askers y).1 ∧
      (allowMany bell n askers x).2 = (allowMany bell n askers y).2 := by
  induction askers generalizing x y with
  | zero => exact ⟨abreast, rfl⟩
  | succ askers ih =>
      obtain ⟨asked, same⟩ := abreast.allow
      obtain ⟨rest, count⟩ := ih asked
      simp only [Board.allowMany, same, count]
      exact ⟨rest, trivial⟩

end Abreast

def joins (n : Name) (b : Board) : Bool :=
  (b.circuits.get? n).any fun c => c.window.joins b.now

namespace Abreast

variable {n : Name} {w : Window} {alone : Bool} {x y : Board}

/-- Boards abreast stay so when the same is reported to both. -/
theorem report (abreast : Abreast n w alone x y) (r : Report)
    (free : alone = true → x.joins n = false) :
    Abreast n w false (report bell none n r x) (report bell none n r y) := by
  obtain ⟨c, e, found, found', circuits⟩ := abreast.circuit
  have told := retold_report abreast.silent.1 found none r
  have told' := retold_report abreast.silent.2 found' none r
  rw [← abreast.now] at told'
  simp only [joins, found, Option.any_some] at free
  exact abreast.put (circuits.absorb r.outcome free).circuit told told'

/-- After the first of several reports the newest bucket is a shared one. -/
theorem reportMany (abreast : Abreast n w alone x y) (r : Report) (times : Nat)
    (free : 0 < times → alone = true → x.joins n = false) :
    Abreast n w (if times = 0 then alone else false) (reportMany bell n r times x)
      (reportMany bell n r times y) := by
  induction times generalizing alone x y with
  | zero => exact abreast
  | succ times ih =>
      have last := ih (abreast.report r (free (Nat.succ_pos times))) fun _ => nofun
      rw [ite_self] at last
      rw [if_neg (Nat.succ_ne_zero times)]
      exact last

/-- An outcome of a fallback that only the fuller run reports. -/
theorem report_extra (abreast : Abreast n w alone x y) {r : Report}
    (fallback : r.outcome.isPrimary = false) :
    Abreast n w (if x.joins n then alone else true) (Board.report bell none n r x) y := by
  obtain ⟨c, e, found, found', circuits⟩ := abreast.circuit
  have told := retold_report abreast.silent.1 found none r
  simp only [joins, found, Option.any_some]
  exact abreast.put_left found' (circuits.extra fallback) told

end Abreast

/-! ### Moves that both runs make -/

def Move.reports (n : Name) : Move → Bool
  | .request m (.report _ times _ _) => decide (m = n ∧ times ≠ 0)
  | _ => false

/-- The move sets no hook that does actions. -/
def Move.Tame (m : Move) : Prop := ∀ o hook, m = .setHook o hook → hook.actions = []

namespace Abreast

variable {n : Name} {w : Window} {alone : Bool} {x y : Board}

/-- Whatever is asked of both, they answer alike. -/
theorem replies (abreast : Abreast n w alone x y) (m : Move) :
    (x.move m).2.Agrees (y.move m).2 := by
  cases m with
  | advance d => exact .of_eq rfl
  | setHook o hook => exact .of_eq rfl
  | request k r =>
      by_cases other : k = n
      case neg =>
        obtain ⟨none_, none'⟩ := abreast.only k other
        simp only [move, serve, none_, none']
        exact .of_eq rfl
      subst other
      obtain ⟨c, e, found, found', circuits⟩ := abreast.circuit
      simp only [move, serve, found, found', ← abreast.now]
      cases r with
      | allow => exact .of_eq (congrArg Reply.yes abreast.allow.2)
      | isOpen => exact .of_eq (congrArg Reply.yes circuits.isOpen.answer)
      | state => exact .of_eq (congrArg Reply.state circuits.state)
      | tally => exact circuits.window.tally
      | forceOpen => exact .of_eq (congrArg Reply.yes circuits.forceOpen.answer)
      | forceClosed => exact .of_eq (congrArg Reply.yes circuits.forceClosed.answer)
      | name => exact .of_eq rfl
      | describe =>
          have words : c.describe k = e.describe k := by
            unfold Circuit.describe
            rw [circuits.state]
          exact .of_eq (congrArg Reply.text words)
      | report => exact .of_eq rfl
      | allowMany askers => exact .of_eq (congrArg Reply.count (abreast.allowMany askers).2)

/-- A request that both make and that reports nothing. -/
theorem serve_of_unreported (abreast : Abreast n w alone x y) {k : Name} {r : Request}
    (unreported : (Move.request k r).reports n = false) :
    Abreast n w alone (serve bell k r x).1 (serve bell k r y).1 := by
  by_cases other : k = n
  case neg =>
    obtain ⟨none_, none'⟩ := abreast.only k other
    simpa only [serve, none_, none'] using abreast
  subst other
  obtain ⟨c, e, found, found', circuits⟩ := abreast.circuit
  simp only [serve, found, found', ← abreast.now]
  cases r with
  | allow => exact abreast.allow.1
  | isOpen => exact abreast.take circuits.isOpen
  | state | name | describe => exact abreast
  | tally => exact abreast.put (circuits.pruned) (.refl _) (.refl _)
  | forceOpen => exact abreast.take circuits.forceOpen
  | forceClosed => exact abreast.take circuits.forceClosed
  | report o times took start =>
      obtain rfl : times = 0 := by simpa [Move.reports] using unreported
      exact abreast
  | allowMany askers => exact (abreast.allowMany askers).1

/-- A move that both make, and that reports nothing. -/
theorem move_of_unreported (abreast : Abreast n w alone x y) {m : Move} (tame : m.Tame)
    (unreported : m.reports n = false) : Abreast n w alone (x.move m).1 (y.move m).1 := by
  cases m with
  | advance d =>
      obtain ⟨c, e, found, found', circuits⟩ := abreast.circuit
      have onward : x.now.nanos ≤ (x.now.later d).nanos := by
        simp only [Instant.later]
        omega
      exact { abreast with
        now := congrArg (·.later d) abreast.now
        circuit := ⟨c, e, found, found', circuits.wait onward⟩ }
  | setHook o hook =>
      have idle := tame o hook rfl
      exact { abreast with silent := ⟨abreast.silent.1.put o idle, abreast.silent.2.put o idle⟩ }
  | request k r => exact abreast.serve_of_unreported unreported

/-- A report that both make. -/
theorem move_of_reports (abreast : Abreast n w alone x y) {m : Move} (reports : m.reports n = true)
    (free : alone = true → x.joins n = false) :
    Abreast n w false (x.move m).1 (y.move m).1 := by
  unfold Move.reports at reports
  split at reports
  case h_2 => cases reports
  case h_1 m k o times took start =>
    obtain ⟨rfl, some_⟩ := of_decide_eq_true reports
    obtain ⟨c, e, found, found', circuits⟩ := abreast.circuit
    have told := abreast.reportMany ⟨o, start.getD x.now, took⟩ times fun _ => free
    rw [if_neg some_] at told
    simp only [move, serve, found, found', ← abreast.now]
    exact told

end Abreast

/-! ### Two runs of one script -/

structure Beat where
  move : Move
  shared : Bool
  deriving Repr

def fuller (script : List Beat) : List Move := script.map (·.move)

def barer (script : List Beat) : List Move := (script.filter (·.shared)).map (·.move)

/-- Hooks do no actions, and the fuller run differs in reports of outcomes of fallbacks
alone. -/
structure Padded (n : Name) (script : List Beat) : Prop where
  tame : ∀ x ∈ script, x.move.Tame
  extra : ∀ x ∈ script, x.shared = false → ∃ o took start, o.isPrimary = false ∧
    x.move = .request n (.report o 1 took start)

/-- The newest bucket after a beat was started by a report of the fuller run alone. -/
def Beat.leaves (n : Name) (b : Board) (alone : Bool) (x : Beat) : Bool :=
  if x.move.reports n && !b.joins n then !x.shared else alone

/-- In the fuller run no shared report joins a bucket that a report of that run alone
started. The mark says whether the newest bucket is such a one. -/
def undisturbed (n : Name) : Board → Bool → List Beat → Bool
  | _, _, [] => true
  | b, alone, x :: rest =>
      !(x.shared && x.move.reports n && alone && b.joins n) &&
        undisturbed n (b.move x.move).1 (x.leaves n b alone) rest

namespace Abreast

variable {n : Name} {w : Window} {alone : Bool} {x y : Board}

/-- A report of the fuller run alone. -/
theorem move_extra (abreast : Abreast n w alone x y) {o : Outcome} (fallback : o.isPrimary = false)
    (took : Duration) (start : Option Instant) :
    Abreast n w (if x.joins n then alone else true)
      (x.move (.request n (.report o 1 took start))).1 y := by
  obtain ⟨c, e, found, found', circuits⟩ := abreast.circuit
  simp only [move, serve, found]
  exact abreast.report_extra (r := ⟨o, start.getD x.now, took⟩) fallback

/-- Both runs keep side by side over a script. -/
theorem run (abreast : Abreast n w alone x y) {script : List Beat} (padded : Padded n script)
    (calm : undisturbed n x alone script = true) :
    ∃ left, Abreast n w left (x.run (fuller script)) (y.run (barer script)) := by
  induction script generalizing alone x y with
  | nil => exact ⟨alone, abreast⟩
  | cons beat rest ih =>
      obtain ⟨here, calm⟩ := Bool.and_eq_true_iff.mp calm
      have padded' : Padded n rest :=
        ⟨fun z among => padded.tame z (List.mem_cons_of_mem _ among),
          fun z among => padded.extra z (List.mem_cons_of_mem _ among)⟩
      have tame := padded.tame beat List.mem_cons_self
      cases shared : beat.shared with
      | false =>
          obtain ⟨o, took, start, fallback, same⟩ := padded.extra beat List.mem_cons_self shared
          have left : beat.leaves n x alone = if x.joins n then alone else true := by
            simp only [Beat.leaves, same, shared, Move.reports]
            cases x.joins n <;> simp
          rw [left] at calm
          have next := abreast.move_extra fallback took start
          rw [← same] at next
          obtain ⟨last, rest'⟩ := ih next padded' calm
          exact ⟨last, by simpa [fuller, barer, Board.run, shared] using rest'⟩
      | true =>
          -- Both runs move, and what they report joins no bucket that stands alone.
          have next : Abreast n w (beat.leaves n x alone) (x.move beat.move).1
              (y.move beat.move).1 := by
            cases reports : beat.move.reports n with
            | false =>
                have left : beat.leaves n x alone = alone := by simp [Beat.leaves, reports]
                rw [left]
                exact abreast.move_of_unreported tame reports
            | true =>
                have free : alone = true → x.joins n = false := by
                  intro marked
                  simpa [shared, reports, marked] using here
                have left : beat.leaves n x alone = false := by
                  cases joined : x.joins n with
                  | false => simp [Beat.leaves, reports, joined, shared]
                  | true =>
                      have unmarked : alone = false := by
                        cases alone with
                        | false => rfl
                        | true => exact absurd (free rfl) (by simp [joined])
                      simp [Beat.leaves, reports, joined, unmarked]
                rw [left]
                exact abreast.move_of_reports reports free
          obtain ⟨last, rest'⟩ := ih next padded' calm
          exact ⟨last, by simpa [fuller, barer, Board.run, shared] using rest'⟩

end Abreast

/-- At every point of a script both runs answer alike: whether a request is let through,
whether they keep requests from running, in which state the circuit is, and how many
requests and errors it counts. -/
def Unswayed (b : Board) (script : List Beat) : Prop :=
  ∀ before after m, script = before ++ after →
    ((b.run (fuller before)).move m).2.Agrees ((b.run (barer before)).move m).2

theorem Padded.of_append {n : Name} {before after : List Beat}
    (padded : Padded n (before ++ after)) : Padded n before where
  tame x among := padded.tame x (List.mem_append_left _ among)
  extra x among := padded.extra x (List.mem_append_left _ among)

theorem undisturbed_of_append {n : Name} {b : Board} {alone : Bool} {before after : List Beat}
    (calm : undisturbed n b alone (before ++ after) = true) :
    undisturbed n b alone before = true := by
  induction before generalizing b alone with
  | nil => rfl
  | cons x rest ih =>
      obtain ⟨here, calm⟩ := Bool.and_eq_true_iff.mp calm
      exact Bool.and_eq_true_iff.mpr ⟨here, ih calm⟩

/-- Additional reports of outcomes of fallbacks change nothing that the circuit answers,
as long as no shared report joins a bucket that they started. -/
theorem unswayed (n : Name) (s : Settings) {hooks : Hooks} (silent : hooks.Silent)
    (start : Instant) {script : List Beat} (padded : Padded n script)
    (calm : undisturbed n (fresh n s hooks start) false script = true) :
    Unswayed (fresh n s hooks start) script := by
  rintro before after m rfl
  have first : Abreast n (.make s.rollingWindow s.windowBuckets) false (fresh n s hooks start)
      (fresh n s hooks start) := by
    constructor
    case now => rfl
    case silent => exact ⟨silent, silent⟩
    case only =>
      intro m other
      have none_ := Roster.get?_put_of_ne ([] : Roster Circuit) (.make s start) (Ne.symm other)
      exact ⟨none_, none_⟩
    case circuit =>
      refine ⟨_, _, Roster.get?_put_self _ _ _, Roster.get?_put_self _ _ _, rfl, rfl, rfl, ?_⟩
      exact .blank (Window.width_make_le _ _) rfl start false
  obtain ⟨left, last⟩ := first.run padded.of_append (undisturbed_of_append calm)
  exact last.replies m

/-- Fallbacks are reported into a bucket that is there, and into one of their own that no
later report joins. -/
theorem unswayed_of_own_buckets :
    let script : List Beat := [
      ⟨.request "svc" (.report .failure 2 .zero none), true⟩,
      ⟨.request "svc" (.report .fallbackSuccess 1 .zero none), false⟩,
      ⟨.advance (.ofMillis 1500), true⟩,
      ⟨.request "svc" (.report .fallbackFailure 1 .zero none), false⟩,
      ⟨.setHook .reported ⟨"heard", []⟩, true⟩, ⟨.advance (.ofMillis 1000), true⟩,
      ⟨.request "svc" (.report .timeout 20 .zero none), true⟩,
      ⟨.request "svc" (.report .fallbackSuccess 1 .zero none), false⟩,
      ⟨.request "svc" .allow, true⟩, ⟨.advance (.ofMillis 9000), true⟩]
    Hooks.Silent {} ∧ Padded "svc" script ∧
      undisturbed "svc" (fresh "svc" {} {} .origin) false script = true ∧
      Unswayed (fresh "svc" {} {} .origin) script := by
  intro script
  have padded : Padded "svc" script := by
    constructor
    · simp [script, Move.Tame]
    · simp [script, Outcome.isPrimary]
  have calm : undisturbed "svc" (fresh "svc" {} {} .origin) false script = true := by decide
  exact ⟨Hooks.silent_empty, padded, calm,
    unswayed "svc" {} Hooks.silent_empty .origin padded calm⟩

/-- A failure that joins a bucket started for a fallback's sake is forgotten earlier than
without that bucket. -/
theorem swayed_of_older_bucket :
    let script : List Beat := [
      ⟨.request "svc" (.report .fallbackSuccess 1 .zero none), false⟩,
      ⟨.advance (.ofMillis 500), true⟩, ⟨.request "svc" (.report .failure 1 .zero none), true⟩,
      ⟨.advance (.ofMillis 9600), true⟩]
    0 < (Circuit.make {} .origin).window.width.nanos ∧ Hooks.Silent {} ∧ Padded "svc" script ∧
      ¬ Unswayed (fresh "svc" {} {} .origin) script := by
  intro script
  refine ⟨by decide, Hooks.silent_empty, ⟨?tame, ?extra⟩, ?swayed⟩
  case tame => simp [script, Move.Tame]
  case extra => simp [script, Outcome.isPrimary]
  case swayed =>
    intro all
    have told : Tally.Matches _ _ := all script [] (.request "svc" .tally) rfl
    exact absurd told.requests (by decide)

end Board

end Bulwark
