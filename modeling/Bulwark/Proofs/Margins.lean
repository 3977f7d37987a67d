import Bulwark.Proofs.Answered
import Bulwark.Proofs.Refusal

/-!
Margins: what two engines may differ in while they do schedules in tandem.

The handles of some calls are set apart, by the ids of the calls. These may differ, and the
first engine may make calls under such ids, as long as they are refused, that the second
does not make (`Margin.leeway`). Handles exist under no other ids than those of calls that
were made.

* `Engine.exists_touched`, `Engine.Twin.look`: a look at a handle touches that handle at
  most, and other handles show the same in both engines.
* `Engine.Twin.startCalls`: calls that both engines make.
* `Engine.Twin.startFewer`: calls of which the second makes those that are not set apart.
-/

namespace Bulwark

/-- What two schedules may differ in. -/
structure Margin where
  /-- The panics that are failures in the second. -/
  panics : Panics
  /-- The calls whose handles are set apart, by their ids. -/
  mine : List String
  /-- The ids under which calls have been made. -/
  seen : List String

namespace Margin

/-- The second queue has the turns of the first, but for the calls that are extra to it. -/
inductive Thins (m : Margin) (extra : CallSpec Script → Prop) : List Turn → List Turn → Prop where
  | nil : Thins m extra [] []
  | poll (k : CallKey) (p : Part) {q q' : List Turn} : Thins m extra q q' →
      Thins m extra (.poll k p :: q) (.poll k p :: q')
  | launch {spec spec' : CallSpec Script} {q q' : List Turn} : spec.Twin m.panics spec' →
      spec.id ∈ m.seen → Thins m extra q q' →
        Thins m extra (.launch spec :: q) (.launch spec' :: q')
  | extra {spec : CallSpec Script} {q q' : List Turn} : extra spec → spec.id ∈ m.seen →
      Thins m extra q q' → Thins m extra (.launch spec :: q) q'

/-- Handles are the same but for those that are set apart, and are of calls that were made. -/
structure Near (m : Margin) (x y : Roster Handle) : Prop where
  same : ∀ id, id ∉ m.mine → y.get? id = x.get? id
  unseen : ∀ id, id ∉ m.seen → x.get? id = none ∧ y.get? id = none

variable {m : Margin} {extra : CallSpec Script → Prop}

theorem Thins.append {q q' r r' : List Turn} (thins : Thins m extra q q')
    (more : Thins m extra r r') : Thins m extra (q ++ r) (q' ++ r') := by
  induction thins with
  | nil => exact more
  | poll k p _ ih => exact .poll k p ih
  | launch same seen _ ih => exact .launch same seen ih
  | extra left seen _ ih => exact .extra left seen ih

/-- What engines may differ in while they do schedules in tandem. -/
def leeway (m : Margin) (extra : CallSpec Script → Prop) : Leeway where
  panics := m.panics
  queue := m.Thins extra
  handles := m.Near
  enqueue thins k p := thins.append (.poll k p .nil)

/-- What they may differ in when no call is about to be made. -/
abbrev idle (m : Margin) : Leeway := m.leeway fun _ => False

namespace Near

variable {x y : Roster Handle} {id : String}

/-- Handles stay near when both get the same under a name. -/
theorem put (near : m.Near x y) (seen : id ∈ m.seen) (h : Handle) :
    m.Near (x.put id h) (y.put id h) where
  same other apart := by
    simp only [Roster.get?_put, near.same other apart]
  unseen other fresh := by
    have differ : id ≠ other := by
      rintro rfl
      exact fresh seen
    simpa only [Roster.get?_put, if_neg differ] using near.unseen other fresh

/-- A handle that is set apart may be changed on one side. -/
theorem put_left (near : m.Near x y) (mine : id ∈ m.mine) (seen : id ∈ m.seen) (h : Handle) :
    m.Near (x.put id h) y where
  same other apart := by
    have differ : id ≠ other := by
      rintro rfl
      exact apart mine
    rw [Roster.get?_put_of_ne _ _ differ]
    exact near.same other apart
  unseen other fresh := by
    have differ : id ≠ other := by
      rintro rfl
      exact fresh seen
    rw [Roster.get?_put_of_ne _ _ differ]
    exact near.unseen other fresh

theorem erase (near : m.Near x y) (id : String) : m.Near (x.erase id) (y.erase id) where
  same other apart := by
    simp only [Roster.get?_erase, near.same other apart]
  unseen other fresh := by
    simp only [Roster.get?_erase, near.unseen other fresh, ite_self, and_self]

/-- A handle that is there is of a call that was made. -/
theorem seen (near : m.Near x y) {h : Handle} (found : x.get? id = some h) : id ∈ m.seen := by
  by_contra fresh
  rw [(near.unseen id fresh).1] at found
  cases found

/-- An id that is set apart only if it is new is taken on both sides or on none. -/
theorem has (near : m.Near x y) (fresh : id ∈ m.mine → id ∉ m.seen) : y.has id = x.has id := by
  by_cases mine : id ∈ m.mine
  · obtain ⟨none_, none_'⟩ := near.unseen id (fresh mine)
    simp only [Roster.has, none_, none_']
  · simp only [Roster.has, near.same id mine]

end Near

end Margin

/-- At most the entry of a name was changed or erased. -/
structure Roster.Touched {α : Type} (n : Name) (x x' : Roster α) : Prop where
  others : ∀ other, n ≠ other → x'.get? other = x.get? other
  absent : x.get? n = none → x'.get? n = none

namespace Roster.Touched

variable {α : Type} {n : Name} {x : Roster α}

theorem refl (n : Name) (x : Roster α) : Touched n x x := ⟨fun _ _ => rfl, id⟩

theorem put {a : α} (found : x.get? n = some a) (b : α) : Touched n x (x.put n b) where
  others other differ := Roster.get?_put_of_ne x b differ
  absent gone := by
    rw [found] at gone
    cases gone

theorem erase (n : Name) (x : Roster α) : Touched n x (x.erase n) where
  others other differ := by rw [Roster.get?_erase, if_neg differ]
  absent _ := by rw [Roster.get?_erase, if_pos rfl]

end Roster.Touched

/-- Handles that are set apart may be touched. -/
theorem Margin.Near.touched {m : Margin} {x x' y y' : Roster Handle} {id : String}
    (near : m.Near x y) (mine : id ∈ m.mine) (first : Roster.Touched id x x')
    (second : Roster.Touched id y y') : m.Near x' y' where
  same other apart := by
    have differ : id ≠ other := by
      rintro rfl
      exact apart mine
    rw [first.others other differ, second.others other differ]
    exact near.same other apart
  unseen other fresh := by
    obtain ⟨none_, none_'⟩ := near.unseen other fresh
    by_cases same : id = other
    · subst same
      exact ⟨first.absent none_, second.absent none_'⟩
    · rw [first.others other same, second.others other same]
      exact ⟨none_, none_'⟩

namespace Engine

/-- Who looks at a handle touches it at most. -/
theorem exists_touched (e : Engine) {st : Step} {id : String} (looks : st.handle? = some id) :
    ∃ x, (e.begin st).1 = { e with handles := x } ∧ Roster.Touched id e.handles x := by
  -- Whatever a look shows, the handle is kept, gone, or marked as read.
  have kept : ∃ x, e = { e with handles := x } ∧ Roster.Touched id e.handles x :=
    ⟨e.handles, rfl, .refl id _⟩
  have gone : ∃ x, ({ e with handles := e.handles.erase id } : Engine) = { e with handles := x } ∧
      Roster.Touched id e.handles x := ⟨_, rfl, .erase id _⟩
  cases st with
  | poll other =>
      obtain rfl := Option.some.inj looks
      simp only [begin, pollHandle]
      cases found : e.handles.get? other with
      | none => exact kept
      | some h =>
          simp only
          split
          · exact kept
          · split
            · exact kept
            · split
              · exact kept
              · exact ⟨_, rfl, .put found _⟩
  | await other =>
      obtain rfl := Option.some.inj looks
      simp only [begin, awaitHandle]
      cases e.handles.get? other with
      | none => exact kept
      | some h =>
          simp only
          split
          · exact gone
          · split
            · exact gone
            · split
              · exact kept
              · exact gone
  | drop other =>
      obtain rfl := Option.some.inj looks
      simp only [begin, dropHandle]
      cases e.handles.get? other with
      | none => exact kept
      | some h => exact gone
  | _ => cases looks

namespace Twin

variable {m : Margin} {extra : CallSpec Script → Prop} {e e' : Engine} {id : String}

/-! ### Handles -/

/-- Looks at handles that are set apart are seen by them alone. -/
theorem touch (twin : Twin (m.leeway extra) e e') (mine : id ∈ m.mine) {x x' : Roster Handle}
    (first : Roster.Touched id e.handles x) (second : Roster.Touched id e'.handles x') :
    Twin (m.leeway extra) { e with handles := x } { e' with handles := x' } :=
  { twin with handles := Margin.Near.touched twin.handles mine first second }

/-- Other handles show the same, and are given up alike. -/
theorem look (twin : Twin (m.leeway extra) e e') {st : Step} (looks : st.handle? = some id)
    (apart : id ∉ m.mine) :
    Twin (m.leeway extra) (e.begin st).1 (e'.begin st).1 ∧
      (e'.begin st).2 = (e.begin st).2 := by
  have near : m.Near e.handles e'.handles := twin.handles
  have same := near.same id apart
  have gone : Twin (m.leeway extra) { e with handles := e.handles.erase id }
      { e' with handles := e'.handles.erase id } := { twin with handles := near.erase id }
  cases st with
  | poll other =>
      obtain rfl := Option.some.inj looks
      simp only [begin, pollHandle, same]
      cases found : e.handles.get? other with
      | none => exact ⟨twin, rfl⟩
      | some h =>
          simp only [twin.verdict?]
          split
          · exact ⟨twin, rfl⟩
          · split
            · exact ⟨twin, rfl⟩
            · split
              · exact ⟨twin, rfl⟩
              · exact ⟨{ twin with handles := near.put (near.seen found) _ }, rfl⟩
  | await other =>
      obtain rfl := Option.some.inj looks
      simp only [begin, awaitHandle, same]
      cases found : e.handles.get? other with
      | none => exact ⟨twin, rfl⟩
      | some h =>
          simp only [twin.verdict?]
          split
          · exact ⟨gone, rfl⟩
          · split
            · exact ⟨gone, rfl⟩
            · split
              · exact ⟨twin, rfl⟩
              · exact ⟨gone, rfl⟩
  | drop other =>
      obtain rfl := Option.some.inj looks
      simp only [begin, dropHandle, same]
      cases found : e.handles.get? other with
      | none => exact ⟨twin, rfl⟩
      | some h => exact ⟨gone, rfl⟩
  | _ => cases looks

/-! ### Calls -/

/-- Twins launch twin calls, and stay twins. -/
theorem launch (twin : Twin (m.leeway extra) e e') {spec spec' : CallSpec Script}
    (same : spec.Twin m.panics spec') (seen : spec.id ∈ m.seen) :
    Twin (m.leeway extra) (e.launch spec) (e'.launch spec') := by
  obtain ⟨made, answer⟩ := twin.execute same
  have near : m.Near (e.execute spec).1.handles (e'.execute spec').1.handles := made.handles
  simp only [Engine.launch, answer, same.id]
  exact { made with handles := near.put seen _ }

/-- Twins start twin calls, and stay twins. -/
theorem startCall (twin : Twin (m.leeway extra) e e') {spec spec' : CallSpec Script}
    (same : spec.Twin m.panics spec') (seen : spec.id ∈ m.seen) :
    Twin (m.leeway extra) (e.startCall spec) (e'.startCall spec') := by
  have near : m.Near e.handles e'.handles := twin.handles
  have thins : m.Thins extra e.queue e'.queue := twin.queue
  unfold Engine.startCall
  rw [same.mode]
  split
  · rw [same.id]
    exact { twin with
      handles := near.put seen _
      queue := thins.append (.launch same seen .nil) }
  · obtain ⟨made, answer⟩ := twin.execute same
    have nearly : m.Near (e.execute spec).1.handles (e'.execute spec').1.handles := made.handles
    simp only [answer, same.id]
    exact { made with handles := nearly.put seen _ }

theorem startCalls (twin : Twin (m.leeway extra) e e') {specs specs' : List (CallSpec Script)}
    (same : List.Forall₂ (CallSpec.Twin m.panics) specs specs')
    (seen : ∀ spec ∈ specs, spec.id ∈ m.seen) :
    Twin (m.leeway extra) (specs.foldl Engine.startCall e) (specs'.foldl Engine.startCall e') := by
  induction same generalizing e e' with
  | nil => exact twin
  | cons head _ ih =>
      obtain ⟨first, rest⟩ := List.forall_mem_cons.mp seen
      exact ih (twin.startCall head first) rest

/-- A call that is refused changes its handle alone, or will once its task makes it. -/
theorem startRefused (twin : Twin (m.leeway extra) e e') {spec : CallSpec Script}
    {error : CallError} (refused : e.refusal? spec = some error) (left : extra spec)
    (mine : spec.id ∈ m.mine) (seen : spec.id ∈ m.seen) :
    Twin (m.leeway extra) (e.startCall spec) e' := by
  have near : m.Near e.handles e'.handles := twin.handles
  have thins : m.Thins extra e.queue e'.queue := twin.queue
  by_cases awaited : spec.mode = .awaited
  · have queue : m.Thins extra (e.queue ++ [.launch spec]) (e'.queue ++ []) :=
      thins.append (.extra left seen .nil)
    rw [List.append_nil] at queue
    simp only [Engine.startCall, awaited]
    exact { twin with handles := near.put_left mine seen _, queue := queue }
  · rw [startCall_of_refused refused awaited]
    exact { twin with handles := near.put_left mine seen _ }

/-- Of several calls those that are refused may be left out. -/
theorem startFewer (twin : Twin (m.leeway extra) e e') {specs : List (CallSpec Script)}
    (refused : ∀ spec ∈ specs, spec.id ∈ m.mine →
      extra spec ∧ ∃ error, e.refusal? spec = some error)
    (seen : ∀ spec ∈ specs, spec.id ∈ m.seen) :
    Twin (m.leeway extra) (specs.foldl Engine.startCall e)
      ((specs.filter fun spec => spec.id ∉ m.mine).foldl Engine.startCall e') := by
  induction specs generalizing e e' with
  | nil => exact twin
  | cons spec rest ih =>
      obtain ⟨own, later⟩ := List.forall_mem_cons.mp refused
      obtain ⟨first, seenLater⟩ := List.forall_mem_cons.mp seen
      have still : ∀ other ∈ rest, other.id ∈ m.mine →
          extra other ∧ ∃ error, (e.startCall spec).refusal? other = some error := by
        intro other member mine
        obtain ⟨left, error, here⟩ := later other member mine
        exact ⟨left, error, ((refusal?_lasting other error).habit default).startCall here spec⟩
      by_cases mine : spec.id ∈ m.mine
      · obtain ⟨left, error, here⟩ := own mine
        rw [List.filter_cons_of_neg (by simpa using mine)]
        exact ih (twin.startRefused here left mine first) still seenLater
      · rw [List.filter_cons_of_pos (by simpa using mine)]
        exact ih (twin.startCall (.refl _ spec) first) still seenLater

end Twin

end Engine

end Bulwark
