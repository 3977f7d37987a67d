import Bulwark.Proofs.Lookup
import Bulwark.Schedule
import Mathlib.Data.List.Forall2

/-!
Code, calls and desks side by side.

Two runs are told side by side where the second one has code that fails in the place of
code that panics in the first (`Script.Twin`): at the same point, and with the fault that
the panic comes to. Calls and desks are twins if they are the same but for such code. So
they wait for the same things, are due at the same times and need as many turns.

Which panics are replaced is a parameter; where none is, twins are the same
(`Panics.none`).

* `Call.Twin`, `Desk.Twin`: calls and desks that differ in their code alone.
* `Roster.Alike`: rosters with the same names in the same order, and related entries.
-/

namespace Bulwark

/-! ### Code -/

abbrev Panics := Stage → Option String → Prop

def Panics.none : Panics := fun _ _ => False

/-- Code of a stage in the second run is that of the first, but that it fails where that of
the first panics, as it may for some panics. -/
inductive Script.Twin (panics : Panics) : Stage → Script → Script → Prop where
  | succeed {stage : Stage} : Twin panics stage .succeed .succeed
  | fail {stage : Stage} (fault : Fault) : Twin panics stage (.fail fault) (.fail fault)
  | panic {stage : Stage} (message : Option String) :
      Twin panics stage (.panic message) (.panic message)
  /-- The operation fails instead, with the text of the panic and without a source. -/
  | operationPanic {message : Option String} : panics .operation message →
      Twin panics .operation (.panic message) (.fail (.plain {
        message := "operation panicked: " ++ message.getD "<non-string panic payload>"
        sources := [] }))
  /-- The fallback fails instead. -/
  | fallbackPanic {message : Option String} : panics .fallback message →
      Twin panics .fallback (.panic message) (.fail (.plain {
        message := "fallback panicked: " ++ message.getD "<non-string panic payload>"
        sources := [] }))
  | after {stage : Stage} {d : Duration} {s s' : Script} : Twin panics stage s s' →
      Twin panics stage (.after d s) (.after d s')
  | manual {stage : Stage} : Twin panics stage .manual .manual
  | nested {stage : Stage} {id : String} {n : Name} {mode : Mode} {work work' : Script} :
      Twin panics .operation work work' →
        Twin panics stage (.nested ⟨id, n, work, none, mode⟩) (.nested ⟨id, n, work', none, mode⟩)
  | rescued {stage : Stage} {id : String} {n : Name} {mode : Mode}
      {work work' fallback fallback' : Script} : Twin panics .operation work work' →
        Twin panics .fallback fallback fallback' →
          Twin panics stage (.nested ⟨id, n, work, some fallback, mode⟩)
            (.nested ⟨id, n, work', some fallback', mode⟩)

structure CallSpec.Twin (panics : Panics) (spec spec' : CallSpec Script) : Prop where
  id : spec'.id = spec.id
  command : spec'.command = spec.command
  mode : spec'.mode = spec.mode
  work : Script.Twin panics .operation spec.work spec'.work
  fallback : Option.Rel (Script.Twin panics .fallback) spec.fallback spec'.fallback

inductive Wait.Twin (panics : Panics) (stage : Stage) : Wait → Wait → Prop where
  | timer (due : Instant) {s s' : Script} : Script.Twin panics stage s s' →
      Twin panics stage (.timer due s) (.timer due s')
  | manual : Twin panics stage .manual .manual
  | call (inner : CallKey) : Twin panics stage (.call inner) (.call inner)
  | turn {s s' : Script} : Script.Twin panics stage s s' → Twin panics stage (.turn s) (.turn s')

inductive Work.Twin (panics : Panics) : Work → Work → Prop where
  | queued {s s' : Script} : Script.Twin panics .operation s s' →
      Twin panics (.queued s) (.queued s')
  | asked (answer : Bool) {s s' : Script} : Script.Twin panics .operation s s' →
      Twin panics (.asked answer s) (.asked answer s')
  | running (since : Instant) {w w' : Wait} : Wait.Twin panics .operation w w' →
      Twin panics (.running since w) (.running since w')
  | done : Twin panics .done .done

inductive Rescue.Twin (panics : Panics) : Rescue → Rescue → Prop where
  | none : Twin panics .none .none
  | unused {s s' : Script} : Script.Twin panics .fallback s s' →
      Twin panics (.unused s) (.unused s')
  | running (cause : CallError) (took : Duration) {w w' : Wait} :
      Wait.Twin panics .fallback w w' → Twin panics (.running cause took w) (.running cause took w')

inductive Progress.Twin (panics : Panics) (stage : Stage) : Progress → Progress → Prop where
  | succeeded : Twin panics stage .succeeded .succeeded
  | failed (fault : Fault) : Twin panics stage (.failed fault) (.failed fault)
  | waits {w w' : Wait} : Wait.Twin panics stage w w' → Twin panics stage (.waits w) (.waits w')

/-- Calls that are the same but for their code. -/
structure Call.Twin (panics : Panics) (c c' : Call) : Prop where
  id : c'.id = c.id
  start : c'.start = c.start
  work : Work.Twin panics c.work c'.work
  watch : c'.watch = c.watch
  rescue : Rescue.Twin panics c.rescue c'.rescue
  slot : c'.slot = c.slot
  claimed : c'.claimed = c.claimed
  waiter : c'.waiter = c.waiter
  verdict : c'.verdict = c.verdict

variable {panics : Panics} {stage : Stage}

namespace Script.Twin

variable {s s' : Script}

theorem refl (panics : Panics) : ∀ (stage : Stage) (s : Script), Twin panics stage s s
  | _, .succeed => .succeed
  | _, .fail fault => .fail fault
  | _, .panic message => .panic message
  | stage, .after _ next => .after (refl panics stage next)
  | _, .manual => .manual
  | _, .nested ⟨_, _, work, none, _⟩ => .nested (refl panics .operation work)
  | _, .nested ⟨_, _, work, some fallback, _⟩ =>
      .rescued (refl panics .operation work) (refl panics .fallback fallback)

/-- Both take the same number of turns at most. -/
theorem turns (twin : Twin panics stage s s') : s'.turns = s.turns := by
  induction twin with
  | succeed | fail | panic | operationPanic | fallbackPanic | manual => rfl
  | after _ ih => simp only [Script.turns, ih]
  | nested _ ih => simp only [Script.turns, ih]
  | rescued _ _ ih ih' => simp only [Script.turns, ih, ih']

/-- Where nothing panics, the only twin of a script is itself. -/
theorem eq (twin : Twin .none stage s s') : s' = s := by
  induction twin with
  | succeed | fail | panic | manual => rfl
  | operationPanic replaced | fallbackPanic replaced => exact replaced.elim
  | after _ ih => rw [ih]
  | nested _ ih => rw [ih]
  | rescued _ _ ih ih' => rw [ih, ih']

end Script.Twin

namespace CallSpec.Twin

theorem refl (panics : Panics) (spec : CallSpec Script) : spec.Twin panics spec where
  id := rfl
  command := rfl
  mode := rfl
  work := .refl panics _ _
  fallback := by
    cases spec.fallback with
    | none => exact .none
    | some fallback => exact .some (.refl panics _ _)

end CallSpec.Twin

namespace Wait.Twin

variable {w w' : Wait}

theorem refl (panics : Panics) (stage : Stage) (w : Wait) : Twin panics stage w w := by
  cases w with
  | timer due next => exact .timer due (.refl panics stage next)
  | manual => exact .manual
  | call inner => exact .call inner
  | turn next => exact .turn (.refl panics stage next)

/-- Twins take the same number of turns. -/
theorem turns (twin : Twin panics stage w w') : w'.turns = w.turns := by
  cases twin with
  | timer _ same | turn same => simp only [Wait.turns, same.turns]
  | manual | call => rfl

theorem eq (twin : Twin .none stage w w') : w' = w := by
  cases twin with
  | timer _ same | turn same => rw [same.eq]
  | manual | call => rfl

end Wait.Twin

/-! ### Calls -/

namespace Call.Twin

variable {c c' : Call} {p : Part}

theorem refl (panics : Panics) (c : Call) : c.Twin panics c where
  id := rfl
  start := rfl
  work := by
    cases c.work with
    | queued s => exact .queued (.refl panics _ s)
    | asked answer s => exact .asked answer (.refl panics _ s)
    | running since w => exact .running since (.refl panics _ w)
    | done => exact .done
  watch := rfl
  rescue := by
    cases c.rescue with
    | none => exact .none
    | unused s => exact .unused (.refl panics _ s)
    | running cause took w => exact .running cause took (.refl panics _ w)
  slot := rfl
  claimed := rfl
  waiter := rfl
  verdict := rfl

theorem eq (twin : c.Twin .none c') : c' = c := by
  obtain ⟨id, start, work, watch, rescue, slot, claimed, waiter, verdict⟩ := c
  obtain ⟨id', start', work', watch', rescue', slot', claimed', waiter', verdict'⟩ := c'
  obtain ⟨rfl, rfl, works, rfl, rescues, rfl, rfl, rfl, rfl⟩ := twin
  have work : work' = work := by
    cases works with
    | queued same | asked _ same => rw [same.eq]
    | running _ same => rw [same.eq]
    | done => rfl
  have rescue : rescue' = rescue := by
    cases rescues with
    | none => rfl
    | unused same => rw [same.eq]
    | running _ _ same => rw [same.eq]
  rw [work, rescue]

/-- Twin specifications make twin calls. -/
theorem make {spec spec' : CallSpec Script} (same : spec.Twin panics spec') (now : Instant) :
    (Call.make spec now).Twin panics (Call.make spec' now) where
  id := same.id
  start := rfl
  work := .queued same.work
  watch := rfl
  rescue := by
    obtain ⟨id, command, work, fallback, mode⟩ := spec
    obtain ⟨id', command', work', fallback', mode'⟩ := spec'
    cases same.fallback with
    | none => exact .none
    | some code => exact .unused code
  slot := rfl
  claimed := rfl
  waiter := rfl
  verdict := rfl

/-- The work of twins is done at once. -/
theorem isWorkDone (twin : c.Twin panics c') : c'.isWorkDone = c.isWorkDone := by
  have work := twin.work
  simp only [Call.isWorkDone]
  generalize c.work = first at work
  generalize c'.work = second at work
  cases work <;> rfl

/-- Code of both waits for the same, or neither has started and not ended. -/
theorem wait? (twin : c.Twin panics c') (stage : Stage) :
    Option.Rel (Wait.Twin panics stage) (c.wait? stage) (c'.wait? stage) := by
  cases stage with
  | operation =>
      have work := twin.work
      simp only [Call.wait?]
      generalize c.work = first at work
      generalize c'.work = second at work
      cases work with
      | running _ same => exact .some same
      | queued | asked | done => exact .none
  | fallback =>
      have rescue := twin.rescue
      simp only [Call.wait?]
      generalize c.rescue = first at rescue
      generalize c'.rescue = second at rescue
      cases rescue with
      | running _ _ same => exact .some same
      | none | unused => exact .none

/-- Twins that are left with twin waits stay twins. -/
theorem setWait (twin : c.Twin panics c') {w w' : Wait} (same : Wait.Twin panics stage w w') :
    (c.setWait stage w).Twin panics (c'.setWait stage w') := by
  cases stage with
  | operation =>
      have work := twin.work
      simp only [Call.setWait]
      generalize first : c.work = x at work
      generalize second : c'.work = x' at work
      cases work with
      | running since _ => exact { twin with work := .running since same }
      | queued | asked | done => exact twin
  | fallback =>
      have rescue := twin.rescue
      simp only [Call.setWait]
      generalize first : c.rescue = x at rescue
      generalize second : c'.rescue = x' at rescue
      cases rescue with
      | running cause took _ => exact { twin with rescue := .running cause took same }
      | none | unused => exact twin

theorem isManual (twin : c.Twin panics c') (stage : Stage) :
    c'.isManual stage = c.isManual stage := by
  have waits := twin.wait? stage
  simp only [Call.isManual]
  generalize c.wait? stage = x at waits
  generalize c'.wait? stage = x' at waits
  cases waits with
  | none => rfl
  | some same => cases same <;> rfl

/-- Both are due at the same times. -/
theorem alarms (twin : c.Twin panics c') : c'.alarms = c.alarms := by
  have operation := twin.wait? .operation
  have fallback := twin.wait? .fallback
  simp only [Call.alarms, twin.watch]
  generalize c.wait? .operation = x at operation
  generalize c'.wait? .operation = x' at operation
  generalize c.wait? .fallback = y at fallback
  generalize c'.wait? .fallback = y' at fallback
  congr 2
  · cases operation with
    | none => rfl
    | some same => cases same <;> rfl
  · cases fallback with
    | none => rfl
    | some same => cases same <;> rfl

/-- Twins that a part of theirs wakes stay twins. -/
theorem ring (twin : c.Twin panics c') (p : Part) : (c.ring p).Twin panics (c'.ring p) := by
  cases p with
  | code stage =>
      have waits := twin.wait? stage
      simp only [Call.ring]
      generalize c.wait? stage = x at waits
      generalize c'.wait? stage = x' at waits
      cases waits with
      | none => exact twin
      | some same =>
          cases same with
          | timer _ code => exact twin.setWait (.turn code)
          | manual | call | turn => exact twin
  | watch =>
      simp only [Call.ring, twin.watch]
      cases c.watch with
      | armed due => exact { twin with watch := rfl }
      | queued | expired | dismissed | done => exact twin

theorem turns (twin : c.Twin panics c') : c'.turns = c.turns := by
  have work : c'.work.turns = c.work.turns := by
    have works := twin.work
    generalize c.work = x at works
    generalize c'.work = x' at works
    cases works with
    | queued same | asked _ same => simp only [Work.turns, same.turns]
    | running _ same => exact same.turns
    | done => rfl
  have rescue : c'.rescue.turns = c.rescue.turns := by
    have rescues := twin.rescue
    generalize c.rescue = x at rescues
    generalize c'.rescue = x' at rescues
    cases rescues with
    | none => rfl
    | unused same => exact same.turns
    | running _ _ same => exact same.turns
  simp only [Call.turns, work, rescue, twin.watch]

end Call.Twin

/-! ### Related lists -/

section Lists

variable {α β γ δ : Type} {r : α → β → Prop} {x : List α} {y : List β}

/-- Lists that correspond give the same items where corresponding elements do. -/
theorem flatMap_eq_of_forall₂ (related : List.Forall₂ r x y) {f : α → List γ} {g : β → List γ}
    (same : ∀ a b, r a b → g b = f a) : y.flatMap g = x.flatMap f := by
  induction related with
  | nil => rfl
  | cons head _ ih => rw [List.flatMap_cons, List.flatMap_cons, ih, same _ _ head]

/-- Lists that correspond give the same first find where corresponding elements do. -/
theorem findSome?_eq_of_forall₂ (related : List.Forall₂ r x y) {f : α → Option γ}
    {g : β → Option γ} (same : ∀ a b, r a b → g b = f a) : y.findSome? g = x.findSome? f := by
  induction related with
  | nil => rfl
  | cons head _ ih => rw [List.findSome?_cons, List.findSome?_cons, ih, same _ _ head]

theorem weigh_eq_of_forall₂ (related : List.Forall₂ r x y) {f : α → Nat} {g : β → Nat}
    (same : ∀ a b, r a b → g b = f a) : weigh g y = weigh f x := by
  induction related with
  | nil => rfl
  | cons head _ ih => rw [weigh_cons, weigh_cons, ih, same _ _ head]

/-- Lists that correspond do so place by place. -/
theorem forall₂_zipIdx (related : List.Forall₂ r x y) (start : Nat) :
    List.Forall₂ (fun a b => b.2 = a.2 ∧ r a.1 b.1) (x.zipIdx start) (y.zipIdx start) := by
  induction related generalizing start with
  | nil => exact .nil
  | cons head _ ih => exact .cons ⟨rfl, head⟩ (ih (start + 1))

/-- Related lists have related items, or none, at each place. -/
theorem getElem?_of_forall₂ (related : List.Forall₂ r x y) (i : Nat) :
    x[i]? = none ∧ y[i]? = none ∨ ∃ a b, x[i]? = some a ∧ y[i]? = some b ∧ r a b := by
  induction related generalizing i with
  | nil => exact .inl ⟨rfl, rfl⟩
  | cons head _ ih =>
      cases i with
      | zero => exact .inr ⟨_, _, rfl, rfl, head⟩
      | succ i => exact ih i

/-- Lists that correspond still do after both are modified at one place. -/
theorem forall₂_modify (related : List.Forall₂ r x y) {f : α → α} {g : β → β}
    (kept : ∀ a b, r a b → r (f a) (g b)) (i : Nat) :
    List.Forall₂ r (x.modify i f) (y.modify i g) := by
  induction related generalizing i with
  | nil => simp only [List.modify_nil, List.Forall₂.nil]
  | cons head tail ih =>
      cases i with
      | zero => exact .cons (kept _ _ head) tail
      | succ i => exact .cons head (ih i)

end Lists

/-! ### Rosters -/

/-- Rosters with the same names in the same order, and related entries. -/
def Roster.Alike {α : Type} (r : α → α → Prop) (x y : Roster α) : Prop :=
  List.Forall₂ (fun a b => b.1 = a.1 ∧ r a.2 b.2) x y

namespace Roster.Alike

variable {α : Type} {r : α → α → Prop} {x y : Roster α}

theorem refl (same : ∀ a, r a a) : ∀ x : Roster α, Alike r x x
  | [] => .nil
  | _ :: rest => .cons ⟨rfl, same _⟩ (refl same rest)

theorem eq (alike : Alike r x y) (same : ∀ a b, r a b → b = a) : y = x := by
  induction alike with
  | nil => rfl
  | cons head _ ih => rw [ih, Prod.ext head.1 (same _ _ head.2)]

/-- Alike rosters know the same names, and have related entries under them. -/
theorem get? (alike : Alike r x y) (n : Name) :
    x.get? n = none ∧ y.get? n = none ∨ ∃ a b, x.get? n = some a ∧ y.get? n = some b ∧ r a b := by
  induction alike with
  | nil => exact .inl ⟨rfl, rfl⟩
  | @cons a b _ _ head _ ih =>
      obtain ⟨m, a⟩ := a
      obtain ⟨m', b⟩ := b
      obtain ⟨rfl, related⟩ := head
      by_cases here : m' = n
      · exact .inr ⟨a, b, by simp [Roster.get?, here], by simp [Roster.get?, here], related⟩
      · simpa only [Roster.get?, if_neg here] using ih

/-- Alike rosters stay alike when related entries are put under one name. -/
theorem put (alike : Alike r x y) (n : Name) {a b : α} (related : r a b) :
    Alike r (x.put n a) (y.put n b) := by
  induction alike with
  | nil => exact .cons ⟨rfl, related⟩ .nil
  | @cons c d _ _ head tail ih =>
      obtain ⟨m, c⟩ := c
      obtain ⟨m', d⟩ := d
      obtain ⟨rfl, same⟩ := head
      by_cases here : m' = n
      · simp only [Roster.put, if_pos here]
        exact .cons ⟨rfl, related⟩ tail
      · simp only [Roster.put, if_neg here]
        exact .cons ⟨rfl, same⟩ ih

/-- Alike rosters list the same names. -/
theorem names (alike : Alike r x y) : y.names = x.names := by
  induction alike with
  | nil => rfl
  | cons head _ ih =>
      simp only [Roster.names, List.map_cons] at ih ⊢
      rw [ih, head.1]

end Roster.Alike

/-! ### Desks -/

structure Desk.Twin (panics : Panics) (desk desk' : Desk) : Prop where
  settings : desk'.settings = desk.settings
  pool : desk'.pool = desk.pool
  handles : desk'.handles = desk.handles
  calls : List.Forall₂ (Call.Twin panics) desk.calls desk'.calls

namespace Desk.Twin

variable {desk desk' : Desk}

theorem refl (panics : Panics) (desk : Desk) : desk.Twin panics desk where
  settings := rfl
  pool := rfl
  handles := rfl
  calls := List.forall₂_same.mpr fun c _ => .refl panics c

theorem eq (twin : desk.Twin .none desk') : desk' = desk := by
  obtain ⟨settings, pool, handles, calls⟩ := desk
  obtain ⟨settings', pool', handles', calls'⟩ := desk'
  obtain ⟨rfl, rfl, rfl, related⟩ := twin
  have same : calls = calls' := by
    rw [← List.forall₂_eq_eq_eq]
    exact related.imp fun _ _ twin => twin.eq.symm
  rw [same]

/-- As many calls were made at both. -/
theorem length (twin : desk.Twin panics desk') : desk'.calls.length = desk.calls.length :=
  twin.calls.length_eq.symm

/-- Twin desks await the same alarms. -/
theorem alarms (twin : desk.Twin panics desk') (n : Name) : desk'.alarms n = desk.alarms n := by
  refine flatMap_eq_of_forall₂ (forall₂_zipIdx twin.calls 0) ?_
  rintro ⟨c, i⟩ ⟨c', i'⟩ ⟨rfl, same⟩
  simp only [same.alarms]

theorem turns (twin : desk.Twin panics desk') : desk'.turns = desk.turns :=
  weigh_eq_of_forall₂ twin.calls fun _ _ same => same.turns

end Desk.Twin

end Bulwark
