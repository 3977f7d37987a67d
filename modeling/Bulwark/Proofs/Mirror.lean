import Bulwark.Proofs.Echoes
import Mathlib.Data.List.Chain
import Mathlib.Data.List.Forall2

/-!
Hooks mirror a circuit.

If there is a hook for each occasion, the calls of the hooks of changes are the changes
of the circuit, one by one and in order, and those of the hook of reports are the
outcomes that were recorded. This can be read off the journal, note by note: a note
that tells of a change is followed at once by the call of a hook of the state that is
entered, and no other note is (`Board.Mirroring`); the call of the hook of reports
closes the latest record that is open (`Board.AllHeard`). A hook is known by its label, so
where it can come from is said by what hooks were set (`Board.Offered`).

* `Board.Echoes.mirroring`, `Board.Echoes.pending`: both are so for a journal that is told
  in order.
* `Board.Echoing.hears`: so every report that is made is recorded, and heard by one hook of
  its own before it is done, after the change that it causes and all that this sets off.
* `Board.mirrored_of_mirroring`, `Board.path_of_mirroring`: what follows for all changes in
  a row.
* `Board.hooksMirror`: so it is in every run, whatever hooks do.
-/

namespace Bulwark

/-! ### What hooks are set -/

/-- An action sets a hook with a label for an occasion, or the hook that it sets does so,
however deep. -/
inductive Action.Sets (o : Occasion) (label : String) : Action → Prop where
  | here {text : String} {actions : List Action} : Sets o label (.set text o label actions)
  | inside {text other : String} {p : Occasion} {actions : List Action} {a : Action} :
      a ∈ actions → Sets o label a → Sets o label (.set text p other actions)

/-- The hook of an occasion has a label, or sets a hook that has. -/
def Hook.Offers (p : Occasion) (hook : Hook) (o : Occasion) (label : String) : Prop :=
  p = o ∧ hook.label = label ∨ ∃ a ∈ hook.actions, a.Sets o label

/-- An action keeps to a custom that allows all requests and all the hooks that it sets. -/
theorem Action.keeps_of_sets {custom : Custom} (free : ∀ r, custom.request r) :
    ∀ a : Action, (∀ o label, a.Sets o label → custom.label o label) → a.Keeps custom
  | .request _ r, _ => .request (free r)
  | .unclear _, _ => .unclear
  | .set _ o label actions, allowed => by
      refine .set (allowed o label .here) fun a among => ?_
      exact keeps_of_sets free a fun p other sets => allowed p other (.inside among sets)

theorem Hook.keeps_of_offers {custom : Custom} (free : ∀ r, custom.request r) {p : Occasion}
    {hook : Hook} (allowed : ∀ o label, hook.Offers p o label → custom.label o label) :
    hook.Keeps custom p where
  label := allowed p hook.label (.inl ⟨rfl, rfl⟩)
  actions a among :=
    a.keeps_of_sets free fun o label sets => allowed o label (.inr ⟨a, among, sets⟩)

def Custom.unreporting : Custom where
  request r := ∀ outcome times took start, r ≠ .report outcome times took start
  label _ _ := True
  mute _ := True

namespace Entry

def changeCall? (n : Name) : Entry → Option String
  | .hook label m none => if m = n then some label else none
  | _ => none

/-- The report that was recorded for a command, or heard by the hook of reports. -/
def report? (n : Name) : Entry → Option Report
  | .recorded m _ r => if m = n then some r else none
  | .hook _ m (some r) => if m = n then some r else none
  | _ => none

end Entry

namespace Board

/-- A hook with a label was set for an occasion: at the start, by a move or by a hook. -/
def Offered (hooks : Hooks) (moves : List Move) (o : Occasion) (label : String) : Prop :=
  (∃ p hook, hooks.get? p = some hook ∧ hook.Offers p o label) ∨
    ∃ p hook, .setHook p hook ∈ moves ∧ hook.Offers p o label

/-- Anything may be asked, by hooks that were set, and there is one for every occasion. -/
def Offered.custom (hooks : Hooks) (moves : List Move) : Custom where
  request _ := True
  label := Offered hooks moves
  mute _ := False

/-- A board with a hook for every occasion keeps to the custom of what was offered. -/
theorem Offered.keep {hooks : Hooks} (full : ∀ o, (hooks.get? o).isSome) (moves : List Move) :
    hooks.Keep (custom hooks moves) where
  kept p hook found :=
    hook.keeps_of_offers (fun _ => trivial) fun _ _ offers => .inl ⟨p, hook, found, offers⟩
  unmuted o missing := by
    have present := full o
    rw [missing] at present
    cases present

/-- Every move of a run keeps to the custom of what the run offers. -/
theorem Offered.keeps (hooks : Hooks) {moves : List Move} {m : Move} (among : m ∈ moves) :
    m.Keeps (custom hooks moves) := by
  cases m with
  | advance d => trivial
  | setHook p hook =>
      exact hook.keeps_of_offers (fun _ => trivial) fun _ _ offers => .inr ⟨p, hook, among, offers⟩
  | request n r => trivial

/-! ### What the journal tells in a row -/

def statesEntered (n : Name) (journal : List Note) : List State :=
  (journal.filterMap fun x => (x.entry.shift? n).map (·.target)).reverse

def changeCalls (n : Name) (journal : List Note) : List String :=
  (journal.filterMap (·.entry.changeCall? n)).reverse

/-- The change that the last note of a journal tells of. -/
def announced? (n : Name) (journal : List Note) : Option Shift :=
  journal.head?.bind (·.entry.shift? n)

/-- A note in view of the notes before it: right after a change a hook of the state that
was entered is called, and nowhere else. -/
structure Mirroring (n : Name) (custom : Custom) (x : Note) (earlier : List Note) : Prop where
  called : Option.Rel (fun shift label => custom.label (.entered shift.target) label)
    (announced? n earlier) (x.entry.changeCall? n)
  precedes : ∀ shift, x.entry.shift? n = some shift →
    (stateTold n earlier).Precedes shift.target
  seen : ∀ text s, x.entry = .action n text (.state s) → s = stateTold n earlier

/-- The state told is the one that the last note announces. -/
theorem stateTold_of_announced {n : Name} {journal : List Note} {shift : Shift}
    (announced : announced? n journal = some shift) : stateTold n journal = shift.target := by
  obtain ⟨x, first, told⟩ := Option.bind_eq_some_iff.mp announced
  obtain ⟨rest, rfl⟩ := List.head?_eq_some_iff.mp first
  simp [stateTold, told]

section Mirroring

variable {n : Name} {custom : Custom} {due : Option Shift} {open_ : List Report}
  {journal : List Note} {x : Note}

/-- A note that is neither a change nor the call of its hook. -/
theorem Mirroring.plain (settled : announced? n journal = none)
    (uncalled : x.entry.changeCall? n = none) (unshifted : x.entry.shift? n = none)
    (seen : ∀ text s, x.entry = .action n text (.state s) → s = stateTold n journal) :
    Mirroring n custom x journal where
  called := by
    rw [settled, uncalled]
    exact .none
  precedes shift told := by simp [unshifted] at told
  seen := seen

/-- If no hook is missing, the change that is due is the one that was just told, and every
note mirrors the notes before it. -/
theorem Echoes.mirroring (unmuted : ∀ o, ¬ custom.mute o)
    (echoes : Echoes n custom [] due open_ journal) :
    announced? n journal = due ∧ Historic (Mirroring n custom) journal := by
  induction echoes with
  | nil => exact ⟨rfl, trivial⟩
  | asked _ ih | rearmed _ ih | recorded _ _ ih =>
      obtain ⟨settled, before⟩ := ih
      exact ⟨rfl, .plain settled rfl rfl (by simp), before⟩
  | action _ seen ih =>
      obtain ⟨settled, before⟩ := ih
      refine ⟨rfl, .plain settled rfl rfl ?_, before⟩
      rintro _ s ⟨⟩
      exact seen s rfl
  | reported _ _ ih =>
      obtain ⟨settled, before⟩ := ih
      exact ⟨rfl, .plain settled rfl rfl (by simp), before⟩
  | @shifted _ _ _ shift _ precedes _ ih =>
      obtain ⟨settled, before⟩ := ih
      have told : Entry.shift? n (.remark n (.told (.shifted shift))) = some shift := if_pos rfl
      refine ⟨told, ⟨?_, ?_, by simp⟩, before⟩
      -- Nothing was due before the change, so every earlier hook was called.
      · rw [settled]
        exact .none
      · intro other same
        obtain rfl := Option.some.inj (told.symm.trans same)
        exact precedes
  | @entered _ _ _ label shift _ fits ih =>
      obtain ⟨announced, before⟩ := ih
      have called : Entry.changeCall? n (.hook label n none) = some label := if_pos rfl
      refine ⟨rfl, ⟨?_, by simp [Entry.shift?], by simp⟩, before⟩
      rw [announced, called]
      exact .some fits
  | unreported _ mute _ => exact absurd mute (unmuted _)
  | unentered _ mute _ => exact absurd mute (unmuted _)

theorem statesEntered_cons (n : Name) (x : Note) (journal : List Note) :
    statesEntered n (x :: journal) =
      statesEntered n journal ++ ((x.entry.shift? n).map (·.target)).toList := by
  unfold statesEntered
  cases told : x.entry.shift? n <;> simp [told]

theorem changeCalls_cons (n : Name) (x : Note) (journal : List Note) :
    changeCalls n (x :: journal) = changeCalls n journal ++ (x.entry.changeCall? n).toList := by
  unfold changeCalls
  cases called : x.entry.changeCall? n <;> simp [called]

/-- The calls of hooks are the changes, but for one that was just told. -/
theorem mirrored_of_mirroring (mirroring : Historic (Mirroring n custom) journal) :
    ∃ states, statesEntered n journal = states ++ ((announced? n journal).map (·.target)).toList ∧
      List.Forall₂ (fun s label => custom.label (.entered s) label) states
        (changeCalls n journal) := by
  induction journal with
  | nil => exact ⟨[], rfl, .nil⟩
  | cons x rest ih =>
      obtain ⟨here, before⟩ := mirroring
      obtain ⟨states, entered, mirrored⟩ := ih before
      refine ⟨statesEntered n rest, statesEntered_cons n x rest, ?_⟩
      rw [entered, changeCalls_cons]
      refine List.rel_append mirrored ?_
      have called := here.called
      generalize announced? n rest = due, x.entry.changeCall? n = call at called
      cases called with
      | some fits => exact .cons fits .nil
      | none => exact .nil

/-- The state told is the last state that was entered, or closed where none was. -/
theorem stateTold_eq_head (n : Name) (journal : List Note) :
    (journal.filterMap (fun x => (x.entry.shift? n).map (·.target)) ++ [State.closed]).head? =
      some (stateTold n journal) := by
  induction journal with
  | nil => rfl
  | cons x rest ih => cases told : x.entry.shift? n <;> simp_all [stateTold]

/-- The states that are entered are a path from the closed state. -/
theorem path_of_mirroring (mirroring : Historic (Mirroring n custom) journal) :
    (.closed :: statesEntered n journal).IsChain State.Precedes := by
  have backwards : (journal.filterMap (fun x => (x.entry.shift? n).map (·.target)) ++
      [State.closed]).IsChain fun s before => before.Precedes s := by
    induction journal with
    | nil => exact .singleton _
    | cons x rest ih =>
        obtain ⟨here, before⟩ := mirroring
        cases told : x.entry.shift? n with
        | none => simpa [told] using ih before
        | some shift =>
            simp only [List.filterMap_cons, told, Option.map_some, List.cons_append]
            refine List.isChain_cons.mpr ⟨fun s first => ?_, ih before⟩
            obtain rfl := Option.some.inj ((stateTold_eq_head n rest).symm.trans first)
            exact here.precedes shift told
  have forwards := List.isChain_reverse.mpr backwards
  simpa [statesEntered] using forwards

end Mirroring

/-! ### Who hears what was recorded -/

/-- Each outcome that was recorded for a command is heard by one hook, with a label of a
kind: by a later one, before that of any outcome recorded earlier. -/
inductive AllHeard (n : Name) (kind : String → Prop) : List Note → Prop where
  | nil : AllHeard n kind []
  | other {x : Note} {journal : List Note} : x.entry.report? n = none → AllHeard n kind journal →
      AllHeard n kind (x :: journal)
  | heard {t t' : Instant} {label : String} {caller : Option CallKey} {r : Report}
      {between earlier : List Note} : kind label → AllHeard n kind between →
      AllHeard n kind earlier → AllHeard n kind
        (⟨t', .hook label n (some r)⟩ :: (between ++ ⟨t, .recorded n caller r⟩ :: earlier))

/-- A journal where some reports are yet to be heard, the latest first. -/
def Pending (n : Name) (kind : String → Prop) : List Report → List Note → Prop
  | [], journal => AllHeard n kind journal
  | r :: open_, journal => ∃ between t caller earlier,
      journal = between ++ ⟨t, .recorded n caller r⟩ :: earlier ∧ AllHeard n kind between ∧
        Pending n kind open_ earlier

section AllHeard

variable {n : Name} {kind : String → Prop} {open_ : List Report} {journal block : List Note}

theorem AllHeard.append (heard : AllHeard n kind block) (before : AllHeard n kind journal) :
    AllHeard n kind (block ++ journal) := by
  induction heard with
  | nil => exact before
  | other unreported _ ih => exact .other unreported ih
  | heard fits inner _ _ ih =>
      simp only [List.cons_append, List.append_assoc]
      exact .heard fits inner ih

/-- A block in which everything is heard leaves the same open. -/
theorem Pending.append (pending : Pending n kind open_ journal) (heard : AllHeard n kind block) :
    Pending n kind open_ (block ++ journal) := by
  cases open_ with
  | nil => exact heard.append pending
  | cons r open_ =>
      obtain ⟨between, t, caller, earlier, rfl, inner, rest⟩ := pending
      exact ⟨block ++ between, t, caller, earlier, by simp, heard.append inner, rest⟩

theorem Pending.other {x : Note} (pending : Pending n kind open_ journal)
    (unreported : x.entry.report? n = none) : Pending n kind open_ (x :: journal) :=
  pending.append (.other unreported .nil)

/-- If no hook is missing, the reports that are open are those that were not yet heard, of
all that is told from the base on. -/
theorem Echoes.pending {custom : Custom} {base : List Note} {due : Option Shift}
    (unmuted : ∀ o, ¬ custom.mute o) (echoes : Echoes n custom base due open_ journal) :
    ∃ block, journal = block ++ base ∧ Pending n (custom.label .reported) open_ block := by
  induction echoes with
  | nil => exact ⟨[], rfl, .nil⟩
  | asked _ ih | rearmed _ ih | action _ _ ih | shifted _ _ _ ih | entered _ _ ih =>
      obtain ⟨block, rfl, pending⟩ := ih
      exact ⟨_ :: block, rfl, pending.other rfl⟩
  | recorded _ _ ih =>
      obtain ⟨block, rfl, pending⟩ := ih
      exact ⟨_ :: block, rfl, [], _, _, _, rfl, .nil, pending⟩
  | @reported _ _ t' label r _ fits ih =>
      obtain ⟨_, rfl, between, t, caller, earlier, rfl, inner, rest⟩ := ih
      have closes : AllHeard n (custom.label .reported)
          (⟨t', .hook label n (some r)⟩ :: (between ++ [⟨t, .recorded n caller r⟩])) :=
        .heard fits inner .nil
      exact ⟨_, rfl, by simpa using rest.append closes⟩
  | unreported _ mute _ => exact absurd mute (unmuted _)
  | unentered _ mute _ => exact absurd mute (unmuted _)

/-- What is told from the base on is heard, once nothing is due. -/
theorem Echoes.allHeard {custom : Custom} {base : List Note} (unmuted : ∀ o, ¬ custom.mute o)
    (echoes : Echoes n custom base none [] journal) :
    ∃ block, journal = block ++ base ∧ AllHeard n (custom.label .reported) block :=
  echoes.pending unmuted

end AllHeard

/-! ### What a report adds -/

/-- A journal after an outcome was reported: it was recorded and heard by a hook with a label
of a kind, and so was all that hooks reported in between and afterwards. -/
inductive HeardOnce (n : Name) (kind : String → Prop) (now : Instant) (caller : Option CallKey)
    (r : Report) (before : List Note) : List Note → Prop where
  | intro {label : String} {between later : List Note} : kind label → AllHeard n kind between →
      AllHeard n kind later → HeardOnce n kind now caller r before
        (later ++ ⟨now, .hook label n (some r)⟩ ::
          (between ++ ⟨now, .recorded n caller r⟩ :: before))

/-- A journal after an outcome was reported a number of times by nobody's call. -/
inductive HeardTimes (n : Name) (kind : String → Prop) (now : Instant) (r : Report) :
    Nat → List Note → List Note → Prop where
  | zero {journal : List Note} : HeardTimes n kind now r 0 journal journal
  | succ {times : Nat} {before between journal : List Note} :
      HeardOnce n kind now none r before between → HeardTimes n kind now r times between journal →
        HeardTimes n kind now r (times + 1) before journal

/-- Whoever reports to the circuit of a command is heard, once for each report. -/
structure Hears (n : Name) (kind : String → Prop) (b : Board) : Prop where
  once : ∀ level caller r,
    HeardOnce n kind b.now caller r b.journal (report (ring level) caller n r b).journal
  often : ∀ level r times,
    HeardTimes n kind b.now r times b.journal (reportMany (ring level) n r times b).journal
  served : ∀ level outcome times took start,
    HeardTimes n kind b.now ⟨outcome, start.getD b.now, took⟩ times b.journal
      (serve (ring level) n (.report outcome times took start) b).1.journal

section Hears

variable {n : Name} {custom : Custom} {base : List Note} {b : Board}

/-- What follows a change takes no time. -/
theorem now_follow (level : Nat) (n : Name) (news : Option News) (b : Board) :
    (follow (ring level) n news b).now = b.now :=
  (follow_calm (ring_calm level) n news b).trail.now

/-- Calling the hook of a report is told first, and then all that it does is heard. -/
theorem Echoing.heard_ring (unmuted : ∀ o, ¬ custom.mute o)
    (echoing : Echoing n custom base none [] b) (level : Nat) (r : Report) :
    ∃ label later, custom.label .reported label ∧
      AllHeard n (custom.label .reported) later ∧
      (ring level .reported n (some r) b).journal =
        later ++ ⟨b.now, .hook label n (some r)⟩ :: b.journal := by
  cases set : b.hooks.get? .reported with
  | none => exact absurd (echoing.keep.unmuted _ set) (unmuted _)
  | some hook =>
      have kept := echoing.keep.kept _ hook set
      have called : Echoing n custom (b.note (.hook hook.label n (some r))).journal none []
          (ring level .reported n (some r) b) := by
        refine ring_echoing (fun l _ => ring_attentive n custom l) (fun missing => ?_)
          fun other same => ?_
        · rw [set] at missing
          cases missing
        · obtain rfl := Option.some.inj (set.symm.trans same)
          exact ⟨echoing.anew rfl, kept⟩
      obtain ⟨later, told, heard⟩ := called.echoes.allHeard unmuted
      exact ⟨hook.label, later, kept.label, heard, told⟩

/-- A report is recorded, then the change that it causes is told and its hook is called, and
last the hook of reports. -/
theorem Echoing.heardOnce (unmuted : ∀ o, ¬ custom.mute o)
    (echoing : Echoing n custom base none [] b) (level : Nat) (caller : Option CallKey) (r : Report)
    (allowed : custom.Allows (.absorb caller r)) :
    HeardOnce n (custom.label .reported) b.now caller r b.journal
      (Board.report (ring level) caller n r b).journal := by
  obtain ⟨c, found, _⟩ := echoing.told
  rw [report_eq_follow (ring level) caller r found, perform_absorb]
  -- The journal is read from the record on: what comes in between is all heard.
  have recorded := echoing.anew (x := .recorded n caller r) rfl
  have told := (recorded.hear (d := .absorb caller r) found allowed).follow
    (ring_attentive n custom level)
  obtain ⟨between, split, inner⟩ := told.echoes.allHeard unmuted
  obtain ⟨label, later, fits, outer, called⟩ := told.heard_ring unmuted level r
  rw [now_follow, split] at called
  exact called ▸ .intro fits inner outer

/-- One report after the other is heard, each once. -/
theorem Echoing.heardTimes (unmuted : ∀ o, ¬ custom.mute o)
    (echoing : Echoing n custom base none [] b) (level : Nat) (r : Report)
    (allowed : custom.Allows (.absorb none r)) (times : Nat) :
    HeardTimes n (custom.label .reported) b.now r times b.journal
      (Board.reportMany (ring level) n r times b).journal := by
  induction times generalizing b with
  | zero => exact .zero
  | succ times ih =>
      have first := echoing.heardOnce unmuted level none r allowed
      have rest := ih (echoing.report (ring_attentive n custom level) none r allowed)
      rw [(report_none_calm (ring_calm level) n r b).trail.now] at rest
      exact .succ first rest

/-- If nobody asks for it, nothing is reported. -/
theorem Echoes.silent {due : Option Shift} {open_ : List Report} {journal : List Note}
    (echoes : Echoes n custom [] due open_ journal)
    (unasked : ∀ caller r, ¬ custom.Allows (.absorb caller r)) :
    open_ = [] ∧ ∀ x ∈ journal, x.entry.report? n = none := by
  induction echoes with
  | nil => exact ⟨rfl, by simp⟩
  | asked _ ih | rearmed _ ih | action _ _ ih | shifted _ _ _ ih | entered _ _ ih =>
      exact ⟨ih.1, List.forall_mem_cons.mpr ⟨rfl, ih.2⟩⟩
  | recorded _ asked => exact absurd asked (unasked _ _)
  | reported _ _ ih => cases ih.1
  | unreported _ _ ih => cases ih.1
  | unentered _ _ ih => exact ih

/-- If no hook is missing and anybody may report, every report is heard. -/
theorem Echoing.hears (unmuted : ∀ o, ¬ custom.mute o)
    (allowed : ∀ caller r, custom.Allows (.absorb caller r))
    (echoing : Echoing n custom base none [] b) : b.Hears n (custom.label .reported) := by
  constructor
  case once =>
    intro level caller r
    exact echoing.heardOnce unmuted level caller r (allowed caller r)
  case often =>
    intro level r times
    exact echoing.heardTimes unmuted level r (allowed none r) times
  case served =>
    intro level outcome times took start
    obtain ⟨c, found, _⟩ := echoing.told
    simp only [Board.serve, found]
    exact echoing.heardTimes unmuted level _ (allowed none _) times

end Hears

/-! ### Every run -/

/-- The hooks of a circuit tell what happened to it, each thing once and in order. -/
structure HooksMirror (n : Name) (hooks : Hooks) (moves : List Move) (b : Board) : Prop where
  /-- The journal tells how the circuit stands. -/
  told : ∃ c, b.circuits.get? n = some c ∧ c.state = stateTold n b.journal
  /-- It told so whenever a hook looked. -/
  seen : ∀ later earlier t text s,
    b.journal = later ++ ⟨t, .action n text (.state s)⟩ :: earlier → s = stateTold n earlier
  /-- The states follow each other as they can. -/
  path : (.closed :: statesEntered n b.journal).IsChain State.Precedes
  /-- The hooks of changes were called for the states that were entered, in order. -/
  mirrored : List.Forall₂ (fun s label => Offered hooks moves (.entered s) label)
    (statesEntered n b.journal) (changeCalls n b.journal)
  /-- Of two notes in a row, the later one tells of the call of a hook of changes just when
  the earlier one tells of the change. -/
  called : ∀ later earlier x y, b.journal = later ++ y :: x :: earlier →
    Option.Rel (fun shift label => Offered hooks moves (.entered shift.target) label)
      (x.entry.shift? n) (y.entry.changeCall? n)
  /-- A hook of changes is called while the circuit is in the state that the hook is for. -/
  entered : ∀ later earlier t label, b.journal = later ++ ⟨t, .hook label n none⟩ :: earlier →
    Offered hooks moves (.entered (stateTold n earlier)) label
  /-- No change is left without a call. -/
  settled : announced? n b.journal = none
  /-- Each outcome that was recorded is heard by a hook of reports, and nothing else is. -/
  heard : AllHeard n (Offered hooks moves .reported) b.journal
  /-- The hooks that are set now were offered, and there is one for every occasion. -/
  kept : b.hooks.Keep (Offered.custom hooks moves)
  /-- A report that is made is recorded once and heard once, after the run, or in the middle
  of a request, where hooks may have done any deeds and set any hooks that were offered. -/
  reported : ∀ kind during, Course kind b during → during.hooks.Keep (Offered.custom hooks moves) →
    during.Hears n (Offered hooks moves .reported)
  /-- If nobody reports, no hook hears of a report. -/
  unreported : hooks.Keep .unreporting → (∀ m ∈ moves, m.Keeps .unreporting) →
    ∀ x ∈ b.journal, x.entry.report? n = none
  /-- The change that a report causes is told right after its record, before it is heard. -/
  caused : ∀ later earlier t shift,
    b.journal = later ++ ⟨t, .remark n (.told (.shifted shift))⟩ :: earlier →
      (shift = .recovered ∨ ∃ o, shift = .relapsed o) →
      ∃ caller r rest, earlier = ⟨t, .recorded n caller r⟩ :: rest ∧
        (shift = .recovered ∧ r.outcome = .success ∨
          shift = .relapsed r.outcome ∧ r.outcome.isExecutionError = true)

/-- If a circuit has a hook for every occasion, they mirror it, whatever is done to it,
and whatever hooks do in answer. -/
theorem hooksMirror (n : Name) (s : Settings) {hooks : Hooks} (full : ∀ o, (hooks.get? o).isSome)
    (start : Instant) (level : Nat) (moves : List Move) :
    ((fresh n s hooks start).runAt level moves).HooksMirror n hooks moves := by
  have echoing := (echoing_fresh n s (Offered.keep full moves) start).runAt level
    fun m among => Offered.keeps hooks among
  have silent : hooks.Keep .unreporting → (∀ m ∈ moves, m.Keeps .unreporting) →
      ∀ x ∈ ((fresh n s hooks start).runAt level moves).journal, x.entry.report? n = none := by
    intro keep keeps
    refine ((echoes_runAt n s keep start level keeps).silent ?_).2
    rintro caller r ⟨outcome, times, took, begun, asked⟩
    exact asked outcome times took begun rfl
  have before : Circuit.Invariant.On n (Circuit.Deciding n s.sleepWindow) (fresh n s hooks start) :=
    ⟨_, Roster.get?_put_self _ _ _, Circuit.deciding_make n s start (by simp [fresh, putCircuit])
      (by simp [fresh, putCircuit])⟩
  obtain ⟨c, found, deciding⟩ := (Circuit.deciding n s.sleepWindow).runAt before level moves
  generalize (fresh n s hooks start).runAt level moves = b at *
  obtain ⟨settled, mirroring⟩ := echoing.echoes.mirroring fun _ => id
  obtain ⟨block, whole, heard⟩ := echoing.echoes.allHeard fun _ => id
  constructor
  case told => exact ⟨c, found, deciding.probing.state⟩
  case seen =>
    intro later earlier t text s split
    rw [split] at mirroring
    exact mirroring.judged.seen text s rfl
  case path => exact path_of_mirroring mirroring
  case mirrored =>
    obtain ⟨states, entered, mirrored⟩ := mirrored_of_mirroring mirroring
    rw [settled, Option.map_none, Option.toList_none, List.append_nil] at entered
    exact entered ▸ mirrored
  case called =>
    intro later earlier x y split
    rw [split] at mirroring
    exact mirroring.judged.called
  case entered =>
    intro later earlier t label split
    rw [split] at mirroring
    have called := mirroring.judged.called
    rw [Entry.changeCall?, if_pos rfl] at called
    cases announced : announced? n earlier with
    | none =>
        rw [announced] at called
        cases called
    | some shift =>
        rw [announced] at called
        cases called with
        | some fits => exact stateTold_of_announced announced ▸ fits
  case settled => exact settled
  case heard =>
    rw [whole, List.append_nil]
    exact heard
  case kept => exact echoing.keep
  case reported =>
    intro kind during course keep
    obtain ⟨d, known, still⟩ :=
      (Circuit.deciding n s.sleepWindow).course course ⟨c, found, deciding⟩
    -- A hook in action tells on top of the journal as it then stands.
    have middle : Echoing n (Offered.custom hooks moves) during.journal none [] during :=
      ⟨.nil, ⟨d, known, still.probing.state⟩, fun m other => course.absent (echoing.only m other),
        keep⟩
    exact middle.hears (fun _ => id) fun _ _ => ⟨.success, 0, .zero, none, trivial⟩
  case unreported => exact silent
  case caused =>
    intro later earlier t shift split decides
    have warranted := deciding.warranted
    rw [split] at warranted
    cases warranted.judged shift (if_pos rfl) with
    | decided since _ _ _ cause => exact ⟨_, _, _, since, cause⟩
    | tripped | probing | forcedOpen | forcedClosed => simp at decides

/-- A hook of openings reports a success and sets another hook of closings, and a hook of
reports opens the circuit: so the success is heard before the failure that reopens the
half-open circuit, and the success that closes it is heard when the new hook of closings has
looked, and then the circuit is opened again. -/
theorem hooksMirror_of_reentry :
    let hooks : Hooks := {
      closed := some ⟨"closed", []⟩
      halfOpen := some ⟨"half-open", []⟩
      opened := some ⟨"opened", [.request "report" (.report .success 1 .zero none),
        .set "set" (.entered .closed) "closed again" [.request "look" .state]]⟩
      reported := some ⟨"reported", [.request "open" .forceOpen, .request "state" .state]⟩ }
    let moves : List Move := [.request "svc" .forceOpen, .advance (.ofMillis 5000),
      .request "svc" .allow, .request "svc" (.report .failure 1 .zero none),
      .advance (.ofMillis 5000), .request "svc" .allow,
      .request "svc" (.report .success 1 .zero none)]
    let b := (fresh "svc" {} hooks .origin).runAt 3 moves
    (∀ o, (hooks.get? o).isSome) ∧ b.HooksMirror "svc" hooks moves ∧
      statesEntered "svc" b.journal =
        [.opened, .halfOpen, .opened, .halfOpen, .closed, .opened] ∧
      changeCalls "svc" b.journal =
        ["opened", "half-open", "opened", "half-open", "closed again", "opened"] ∧
      (b.journal.filterMap (·.entry.report? "svc")).reverse.map (·.outcome) =
        [.success, .success, .failure, .success, .success, .failure, .success, .success,
          .success, .success] := by
  intro hooks moves b
  have full : ∀ o, (hooks.get? o).isSome := by
    rintro (s | _)
    · cases s <;> rfl
    · rfl
  refine ⟨full, hooksMirror "svc" {} full .origin 3 moves, ?_⟩
  clear full
  decide +kernel +revert

end Board

end Bulwark
