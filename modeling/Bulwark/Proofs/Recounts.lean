import Bulwark.Proofs.Twins

/-!
Boards side by side.

A panic leaves a remark in the journal, and an operation that fails leaves a mark; before
the note that the code ended, one stands in the place of the other. The journals of two runs
of which the second has failures in the place of panics differ in this alone (`Recounts`).

Circuits and hooks do not read the journal. So whatever is asked of two boards that are the
same but for such notes is done and answered alike, and they stay so:

* `Board.Twin.allow`, `Board.Twin.report`: for the calls of an engine.
* `Board.Twin.serve`: for every request from outside.
-/

namespace Bulwark

/-- What the second journal tells of code that failed where that of the first panicked: no
panic was caught, and an operation is marked as failed. Newest notes come first. -/
inductive Recounts (panics : Panics) : List Note → List Note → Prop where
  | nil : Recounts panics [] []
  | note (n : Note) {journal journal' : List Note} : Recounts panics journal journal' →
      Recounts panics (n :: journal) (n :: journal')
  | operation {t : Instant} (k : CallKey) (id : String) {message : Option String}
      {journal journal' : List Note} : panics .operation message →
      Recounts panics journal journal' →
        Recounts panics
          (⟨t, .ended k .operation (some (.plain {
              message := "operation panicked: " ++ message.getD "<non-string panic payload>"
              sources := [] }))⟩ ::
            ⟨t, .remark k.command (.panicCaught .operation
              (message.getD "<non-string panic payload>"))⟩ :: journal)
          (⟨t, .ended k .operation (some (.plain {
              message := "operation panicked: " ++ message.getD "<non-string panic payload>"
              sources := [] }))⟩ ::
            ⟨t, .operation k id .failed⟩ :: journal')
  | fallback {t : Instant} (k : CallKey) {message : Option String}
      {journal journal' : List Note} : panics .fallback message →
      Recounts panics journal journal' →
        Recounts panics
          (⟨t, .ended k .fallback (some (.plain {
              message := "fallback panicked: " ++ message.getD "<non-string panic payload>"
              sources := [] }))⟩ ::
            ⟨t, .remark k.command (.panicCaught .fallback
              (message.getD "<non-string panic payload>"))⟩ :: journal)
          (⟨t, .ended k .fallback (some (.plain {
              message := "fallback panicked: " ++ message.getD "<non-string panic payload>"
              sources := [] }))⟩ :: journal')

namespace Recounts

variable {panics : Panics} {journal journal' : List Note}

theorem refl (panics : Panics) : ∀ journal : List Note, Recounts panics journal journal
  | [] => .nil
  | n :: rest => .note n (refl panics rest)

/-- Where nothing panics, the only recount of a journal is itself. -/
theorem eq (recounts : Recounts .none journal journal') : journal' = journal := by
  induction recounts with
  | nil => rfl
  | note _ _ ih => rw [ih]
  | operation _ _ replaced | fallback _ replaced => exact replaced.elim

end Recounts

/-- Boards that are the same but for what their journals tell of code. -/
structure Board.Twin (panics : Panics) (b b' : Board) : Prop where
  now : b'.now = b.now
  circuits : b'.circuits = b.circuits
  hooks : b'.hooks = b.hooks
  journal : Recounts panics b.journal b'.journal

namespace Board

variable {panics : Panics} {b b' : Board} {n : Name}

def RingsAlike (panics : Panics) (ring : Ring) : Prop :=
  ∀ occasion n report b b', Twin panics b b' →
    Twin panics (ring occasion n report b) (ring occasion n report b')

namespace Twin

theorem refl (panics : Panics) (b : Board) : Twin panics b b where
  now := rfl
  circuits := rfl
  hooks := rfl
  journal := .refl panics _

/-- Where nothing panics, the only twin of a board is itself. -/
theorem eq (twin : Twin .none b b') : b' = b := by
  cases b
  cases b'
  obtain ⟨rfl, rfl, rfl, recounts⟩ := twin
  obtain rfl := recounts.eq
  rfl

theorem note (twin : Twin panics b b') (x : Entry) : Twin panics (b.note x) (b'.note x) where
  now := twin.now
  circuits := twin.circuits
  hooks := twin.hooks
  journal := by
    simp only [Board.note, twin.now]
    exact .note _ twin.journal

theorem putCircuit (twin : Twin panics b b') (n : Name) (c : Circuit) :
    Twin panics (b.putCircuit n c) (b'.putCircuit n c) :=
  { twin with circuits := by simp only [Board.putCircuit, twin.circuits] }

theorem setHook (twin : Twin panics b b') (occasion : Occasion) (hook : Hook) :
    Twin panics (b.setHook occasion hook) (b'.setHook occasion hook) :=
  { twin with hooks := by simp only [Board.setHook, twin.hooks] }

theorem setNow (twin : Twin panics b b') (t : Instant) :
    Twin panics { b with now := t } { b' with now := t } :=
  { twin with now := rfl }

section Rung

variable {ring : Ring} (alike : RingsAlike panics ring)

include alike

/-- Twin boards take the same step of a circuit. -/
theorem take (twin : Twin panics b b') (n : Name) (step : Circuit.Step) :
    Twin panics (Board.take ring n step b) (Board.take ring n step b') := by
  have put := twin.putCircuit n step.circuit
  simp only [Board.take, tell]
  cases step.news with
  | none => exact put
  | some news =>
      cases news with
      | rearmed => exact put.note _
      | shifted shift => exact alike _ _ _ _ _ (put.note _)

/-- Twin boards answer a question alike. -/
theorem allow (twin : Twin panics b b') (caller : Option CallKey) (n : Name) :
    Twin panics (Board.allow ring caller n b).1 (Board.allow ring caller n b').1 ∧
      (Board.allow ring caller n b').2 = (Board.allow ring caller n b).2 := by
  simp only [Board.allow, twin.circuits, twin.now]
  cases b.circuits.get? n with
  | none => exact ⟨twin, rfl⟩
  | some c => exact ⟨take alike (twin.note _) n _, rfl⟩

theorem allowMany (twin : Twin panics b b') (n : Name) (askers : Nat) :
    Twin panics (Board.allowMany ring n askers b).1 (Board.allowMany ring n askers b').1 ∧
      (Board.allowMany ring n askers b').2 = (Board.allowMany ring n askers b).2 := by
  induction askers generalizing b b' with
  | zero => exact ⟨twin, rfl⟩
  | succ askers ih =>
      obtain ⟨asked, same⟩ := allow alike twin none n
      obtain ⟨later, count⟩ := ih asked
      simp only [Board.allowMany, same, count]
      exact ⟨later, trivial⟩

/-- Twin boards take the same report. -/
theorem report (twin : Twin panics b b') (caller : Option CallKey) (n : Name) (r : Report) :
    Twin panics (Board.report ring caller n r b) (Board.report ring caller n r b') := by
  simp only [Board.report, twin.circuits, twin.now]
  cases b.circuits.get? n with
  | none => exact twin
  | some c => exact alike _ _ _ _ _ (take alike (twin.note _) n _)

theorem reportMany (twin : Twin panics b b') (n : Name) (r : Report) (times : Nat) :
    Twin panics (Board.reportMany ring n r times b) (Board.reportMany ring n r times b') := by
  induction times generalizing b b' with
  | zero => exact twin
  | succ times ih => exact ih (report alike twin none n r)

/-- Twin boards serve a request alike. -/
theorem serve (twin : Twin panics b b') (n : Name) (request : Request) :
    Twin panics (Board.serve ring n request b).1 (Board.serve ring n request b').1 ∧
      (Board.serve ring n request b').2 = (Board.serve ring n request b).2 := by
  simp only [Board.serve, twin.circuits, twin.now]
  cases b.circuits.get? n with
  | none => exact ⟨twin, rfl⟩
  | some c =>
      cases request with
      | allow =>
          obtain ⟨after, same⟩ := allow alike twin none n
          exact ⟨after, congrArg Reply.yes same⟩
      | isOpen | forceOpen | forceClosed => exact ⟨take alike twin n _, rfl⟩
      | state | name | describe => exact ⟨twin, rfl⟩
      | tally => exact ⟨twin.putCircuit n _, rfl⟩
      | report outcome times took start => exact ⟨reportMany alike twin n _ times, rfl⟩
      | allowMany askers =>
          obtain ⟨after, same⟩ := allowMany alike twin n askers
          exact ⟨after, congrArg Reply.count same⟩

/-- An action does the same to twin boards. -/
theorem act (twin : Twin panics b b') (n : Name) (action : Action) :
    Twin panics (Board.act ring n b action) (Board.act ring n b' action) := by
  cases action with
  | request text r =>
      obtain ⟨after, same⟩ := serve alike twin n r
      simp only [Board.act, same]
      exact after.note _
  | set text occasion label actions => exact (twin.setHook occasion ⟨label, actions⟩).note _
  | unclear text => exact twin.note _

/-- The actions of a hook do the same to twin boards. -/
theorem acts (twin : Twin panics b b') (n : Name) (actions : List Action) :
    Twin panics (actions.foldl (Board.act ring n) b) (actions.foldl (Board.act ring n) b') := by
  induction actions generalizing b b' with
  | nil => exact twin
  | cons action rest ih => exact ih (act alike twin n action)

end Rung

end Twin

/-- Hooks are called alike on every level. -/
theorem ringsAlike_ring (panics : Panics) (level : Nat) : RingsAlike panics (ring level) := by
  induction level with
  | zero =>
      intro occasion n report b b' twin
      simp only [ring, twin.hooks]
      cases b.hooks.get? occasion with
      | none => exact twin
      | some hook => exact twin.note _
  | succ level ih =>
      intro occasion n report b b' twin
      simp only [ring, twin.hooks]
      cases b.hooks.get? occasion with
      | none => exact twin
      | some hook => exact (twin.note _).acts ih n hook.actions

/-- Bells that ring hooks of any depth do the same to twin boards. -/
theorem ringsAlike_bell (panics : Panics) : RingsAlike panics bell := ringsAlike_ring panics 3

end Board

end Bulwark
