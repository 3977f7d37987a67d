import Bulwark.Proofs.Deciding

/-!
Hooks tell what happens to a circuit, and nothing else.

Hooks may ask the circuit that they were called for, report to it and force it, and
set hooks, and that calls hooks again. Still a journal is told in a fixed order: a
change is followed at once by the call of the hook of the state that is entered, and
an outcome that was recorded is heard by the hook of reports before anything that was
recorded earlier is (`Board.Echoes`). What hooks are called can be read off the
journal, since all that is asked and all hooks that are set keep to a custom
(`Custom`): so labels tell the occasions of hooks.

A journal may be read from any note on: what is told before it is a base that the order
does not ask about. So the order tells what one request adds, too.

* `Board.Echoing.follow`, `Board.Echoing.serve` and the lemmas between them: a request
  keeps that order, if calling hooks does.
* `Board.ring_attentive`: calling a hook does, with all its actions and all the hooks
  these call in turn, by induction on the level.
* `Board.echoes_runAt`: so the journal of a circuit is told in that order after every run.
-/

namespace Bulwark

/-- A circuit can go from one state to another. -/
inductive State.Precedes : State → State → Prop where
  /-- It trips, or is forced open. -/
  | trip : Precedes .closed .opened
  | probe : Precedes .opened .halfOpen
  | relapse : Precedes .halfOpen .opened
  | recover : Precedes .halfOpen .closed
  /-- It is forced closed. -/
  | release : Precedes .opened .closed

/-! ### What hooks keep to -/

/-- What is asked, and by what hooks. -/
structure Custom where
  /-- The requests that are made. -/
  request : Request → Prop
  /-- The labels of the hooks of an occasion. -/
  label : Occasion → String → Prop
  /-- The occasions that may lack a hook. -/
  mute : Occasion → Prop

/-- What a deed takes to be done: circuits are forced closed, and outcomes reported, at a
request for it alone. -/
def Custom.Allows (custom : Custom) : Circuit.Deed → Prop
  | .forceClosed => custom.request .forceClosed
  | .absorb _ _ => ∃ outcome times took start, custom.request (.report outcome times took start)
  | _ => True

/-- An action keeps to a custom, with all that the hooks do that it sets, however deep. -/
inductive Action.Keeps (custom : Custom) : Action → Prop where
  | request {text : String} {r : Request} : custom.request r → Keeps custom (.request text r)
  | set {text label : String} {o : Occasion} {actions : List Action} : custom.label o label →
      (∀ a ∈ actions, Keeps custom a) → Keeps custom (.set text o label actions)
  | unclear {text : String} : Keeps custom (.unclear text)

structure Hook.Keeps (custom : Custom) (o : Occasion) (hook : Hook) : Prop where
  label : custom.label o hook.label
  actions : ∀ a ∈ hook.actions, a.Keeps custom

/-- The hooks that are set keep to a custom, and there is one where it asks for one. -/
structure Hooks.Keep (custom : Custom) (hooks : Hooks) : Prop where
  kept : ∀ o hook, hooks.get? o = some hook → hook.Keeps custom o
  unmuted : ∀ o, hooks.get? o = none → custom.mute o

def Board.Move.Keeps (custom : Custom) : Board.Move → Prop
  | .advance _ => True
  | .setHook o hook => hook.Keeps custom o
  | .request _ r => custom.request r

theorem Hooks.Keep.put {custom : Custom} {hooks : Hooks} (keep : hooks.Keep custom) {o : Occasion}
    {hook : Hook} (kept : hook.Keeps custom o) : (hooks.put o hook).Keep custom where
  kept p other found := by
    rw [Hooks.get?_put] at found
    split at found
    · next same =>
        obtain rfl := Option.some.inj found
        exact same ▸ kept
    · exact keep.kept p other found
  unmuted p missing := by
    rw [Hooks.get?_put] at missing
    split at missing
    · cases missing
    · exact keep.unmuted p missing

def News.shift? : Option News → Option Shift
  | some (.shifted shift) => some shift
  | _ => none

namespace Circuit

variable {n : Name} {c : Circuit} {now : Instant} {d : Deed} {shift : Shift}

/-! ### Changes -/

/-- A deed leads from the state of a circuit to one that can come next. -/
theorem precedes_of_news (news : (c.undergo now d).news = some (.shifted shift)) :
    c.state.Precedes shift.target := by
  rcases change_cases news with ⟨closed, _, _, rfl⟩ | ⟨opened, rfl⟩ |
    (⟨_, unopened, rfl⟩ | ⟨_, unclosed, rfl⟩) | ⟨half, _, _, _, cause⟩
  · rw [closed]
    exact .trip
  · rw [opened]
    exact .probe
  · cases state : c.state with
    | closed => exact .trip
    | opened => exact absurd state unopened
    | halfOpen => exact .relapse
  · cases state : c.state with
    | closed => exact absurd state unclosed
    | opened => exact .release
    | halfOpen => exact .recover
  · rw [half]
    rcases cause with ⟨rfl, _⟩ | ⟨rfl, _⟩
    · exact .recover
    · exact .relapse

/-- A circuit is forced closed at nothing but the request for it. -/
theorem forceClosed_of_news (news : (c.undergo now d).news = some (.shifted .forcedClosed)) :
    d = .forceClosed := by
  rcases change_cases news with ⟨_, _, _, told⟩ | ⟨_, told⟩ | (⟨_, _, told⟩ | ⟨asked, _⟩) |
    ⟨_, _, _, _, cause⟩
  · cases told
  · cases told
  · cases told
  · exact asked
  · simp at cause

/-- The reports whose hook is yet to be called, after a deed. -/
def Deed.unheard (open_ : List Report) : Deed → List Report
  | .absorb _ r => r :: open_
  | _ => open_

/-- The state of a circuit after a deed is what the news tell, whatever else is told of it. -/
theorem state_of_news {n : Name} {journal : List Note}
    (told : c.state = Board.stateTold n journal) (now : Instant) (d : Deed) :
    (c.undergo now d).circuit.state = Board.stateTold n
      ((herald n (c.undergo now d).news).toList.map (Note.mk now) ++ journal) := by
  rw [state_undergo told now d, stateTold_entries]
  rcases (c.undergo now d).news with _ | ⟨shift⟩ | _
  · rfl
  · simp [herald, Board.stateTold, Entry.shift?]
  · exact (Board.stateTold_of_unshifted rfl).symm

end Circuit

namespace Board

/-! ### In what order a journal is told -/

/-- A journal of one circuit up to a moment, read from a base on, with the change whose hook
is called next, if there is one, and the reports whose hook is yet to be called, the latest
first. -/
inductive Echoes (n : Name) (custom : Custom) (base : List Note) :
    Option Shift → List Report → List Note → Prop where
  | nil : Echoes n custom base none [] base
  | asked {open_ journal t caller state answer} : Echoes n custom base none open_ journal →
      Echoes n custom base none open_ (⟨t, .asked n caller state answer⟩ :: journal)
  | rearmed {open_ journal t} : Echoes n custom base none open_ journal →
      Echoes n custom base none open_ (⟨t, .remark n (.told .rearmed)⟩ :: journal)
  /-- A hook's action was done. It saw the circuit in the state that the journal tells. -/
  | action {open_ journal t text reply} : Echoes n custom base none open_ journal →
      (∀ s, reply = .state s → s = stateTold n journal) →
      Echoes n custom base none open_ (⟨t, .action n text reply⟩ :: journal)
  | recorded {open_ journal t caller r} : Echoes n custom base none open_ journal →
      custom.Allows (.absorb caller r) →
      Echoes n custom base none (r :: open_) (⟨t, .recorded n caller r⟩ :: journal)
  | reported {open_ journal t label r} : Echoes n custom base none (r :: open_) journal →
      custom.label .reported label →
      Echoes n custom base none open_ (⟨t, .hook label n (some r)⟩ :: journal)
  | shifted {open_ journal t shift} : Echoes n custom base none open_ journal →
      (stateTold n journal).Precedes shift.target →
      (shift = .forcedClosed → custom.Allows .forceClosed) →
      Echoes n custom base (some shift) open_ (⟨t, .remark n (.told (.shifted shift))⟩ :: journal)
  | entered {open_ journal t label shift} : Echoes n custom base (some shift) open_ journal →
      custom.label (.entered shift.target) label →
      Echoes n custom base none open_ (⟨t, .hook label n none⟩ :: journal)
  /-- There was no hook to call. -/
  | unreported {open_ journal r} : Echoes n custom base none (r :: open_) journal →
      custom.mute .reported → Echoes n custom base none open_ journal
  | unentered {open_ journal shift} : Echoes n custom base (some shift) open_ journal →
      custom.mute (.entered shift.target) → Echoes n custom base none open_ journal

/-- A board with one circuit, whose journal is told in that order, under hooks that keep
to a custom. -/
structure Echoing (n : Name) (custom : Custom) (base : List Note) (due : Option Shift)
    (open_ : List Report) (b : Board) : Prop where
  echoes : Echoes n custom base due open_ b.journal
  told : ∃ c, b.circuits.get? n = some c ∧ c.state = stateTold n b.journal
  only : ∀ m, m ≠ n → b.circuits.get? m = none
  keep : b.hooks.Keep custom

/-- Calling hooks keeps the order: the hook of the change that is due is called, and that
of the latest report. -/
structure Attentive (n : Name) (custom : Custom) (ring : Ring) : Prop where
  entered : ∀ base shift open_ b, Echoing n custom base (some shift) open_ b →
    Echoing n custom base none open_ (ring (.entered shift.target) n none b)
  reported : ∀ base r open_ b, Echoing n custom base none (r :: open_) b →
    Echoing n custom base none open_ (ring .reported n (some r) b)

section Echoing

variable {n : Name} {custom : Custom} {base : List Note} {open_ : List Report} {b : Board}
  {c : Circuit} {d : Circuit.Deed} {news : Option News} {ring : Ring}

/-- From a note on that tells of no change, the journal may be read anew. -/
theorem Echoing.anew {due : Option Shift} (echoing : Echoing n custom base due open_ b) {x : Entry}
    (untold : x.shift? n = none) : Echoing n custom (b.note x).journal none [] (b.note x) := by
  obtain ⟨c, found, told⟩ := echoing.told
  constructor
  case echoes => exact .nil
  case told => exact ⟨c, found, told.trans (stateTold_of_unshifted untold).symm⟩
  case only => exact echoing.only
  case keep => exact echoing.keep

/-- A circuit takes its step and the news of it are told. -/
theorem Echoing.hear (echoing : Echoing n custom base none open_ b)
    (found : b.circuits.get? n = some c)
    (allowed : custom.Allows d) :
    Echoing n custom base (News.shift? (c.undergo b.now d).news) open_
      ((b.putCircuit n (c.undergo b.now d).circuit).hear n (c.undergo b.now d).news) := by
  obtain ⟨e, known, told⟩ := echoing.told
  obtain rfl := Option.some.inj (known.symm.trans found)
  constructor
  case echoes =>
    rcases news : (e.undergo b.now d).news with _ | ⟨shift⟩ | _
    · exact echoing.echoes
    · refine .shifted echoing.echoes (told ▸ Circuit.precedes_of_news news) ?_
      rintro rfl
      exact Circuit.forceClosed_of_news news ▸ allowed
    · exact .rearmed echoing.echoes
  case told => exact ⟨_, Roster.get?_put_self _ _ _, Circuit.state_of_news told b.now d⟩
  case only =>
    intro m other
    exact (Roster.get?_put_of_ne _ _ (Ne.symm other)).trans (echoing.only m other)
  case keep => exact echoing.keep

/-- A deed itself is told before its news. -/
theorem Echoing.perform (echoing : Echoing n custom base none open_ b)
    (found : b.circuits.get? n = some c)
    (allowed : custom.Allows d) :
    Echoing n custom base (News.shift? (c.undergo b.now d).news) (d.unheard open_)
      (b.perform n c d) := by
  cases d with
  | ask caller =>
      have asked : Echoing n custom base none open_
          (b.note (.asked n caller c.state (c.allow b.now).answer)) :=
        { echoing with echoes := .asked echoing.echoes }
      rw [perform_ask]
      exact asked.hear (d := .ask caller) found trivial
  | absorb caller r =>
      have recorded : Echoing n custom base none (r :: open_) (b.note (.recorded n caller r)) :=
        { echoing with echoes := .recorded echoing.echoes allowed }
      rw [perform_absorb]
      exact recorded.hear (d := .absorb caller r) found allowed
  | look | read | forceOpen | forceClosed =>
      rw [perform_of_untold rfl]
      exact echoing.hear found allowed

/-- What is due after a change is done by what follows it. -/
theorem Echoing.follow (attentive : Attentive n custom ring)
    (echoing : Echoing n custom base (News.shift? news) open_ b) :
    Echoing n custom base none open_ (follow ring n news b) := by
  rcases news with _ | ⟨shift⟩ | _
  · exact echoing
  · exact attentive.entered base shift open_ b echoing
  · exact echoing

/-! ### Requests -/

/-- A step that writes nothing of its own leaves nothing due. -/
theorem Echoing.take (attentive : Attentive n custom ring)
    (echoing : Echoing n custom base none open_ b) (found : b.circuits.get? n = some c)
    (untold : d.writes? n c b.now = none) (unheard : d.unheard open_ = open_)
    (allowed : custom.Allows d) :
    Echoing n custom base none open_ (take ring n (c.undergo b.now d) b) := by
  have done := echoing.perform found allowed
  rw [unheard] at done
  rw [take_eq_follow, ← perform_of_untold untold]
  exact done.follow attentive

/-- A question leaves nothing due, whoever asks. -/
theorem Echoing.allow (attentive : Attentive n custom ring)
    (echoing : Echoing n custom base none open_ b) (caller : Option CallKey) :
    Echoing n custom base none open_ (allow ring caller n b).1 := by
  obtain ⟨c, found, _⟩ := echoing.told
  rw [allow_eq_follow ring caller found]
  exact (echoing.perform (d := .ask caller) found trivial).follow attentive

theorem Echoing.allowMany (attentive : Attentive n custom ring)
    (echoing : Echoing n custom base none open_ b) (askers : Nat) :
    Echoing n custom base none open_ (allowMany ring n askers b).1 := by
  induction askers generalizing b with
  | zero => exact echoing
  | succ askers ih => exact ih (echoing.allow attentive none)

/-- A report is recorded, the hook of the change it causes is called, and last its own. -/
theorem Echoing.report (attentive : Attentive n custom ring)
    (echoing : Echoing n custom base none open_ b) (caller : Option CallKey) (r : Report)
    (allowed : custom.Allows (.absorb caller r)) :
    Echoing n custom base none open_ (report ring caller n r b) := by
  obtain ⟨c, found, _⟩ := echoing.told
  rw [report_eq_follow ring caller r found]
  have recorded := echoing.perform (d := .absorb caller r) found allowed
  exact attentive.reported base r open_ _ (recorded.follow attentive)

theorem Echoing.reportMany (attentive : Attentive n custom ring)
    (echoing : Echoing n custom base none open_ b) (r : Report)
    (allowed : custom.Allows (.absorb none r)) (times : Nat) :
    Echoing n custom base none open_ (reportMany ring n r times b) := by
  induction times generalizing b with
  | zero => exact echoing
  | succ times ih => exact ih (echoing.report attentive none r allowed)

/-- A request that the custom allows leaves nothing due. -/
theorem Echoing.serve (attentive : Attentive n custom ring)
    (echoing : Echoing n custom base none open_ b) {m : Name} {request : Request}
    (allowed : custom.request request) :
    Echoing n custom base none open_ (serve ring m request b).1 := by
  by_cases other : m = n
  case neg =>
    simp only [Board.serve, echoing.only m other]
    exact echoing
  subst other
  obtain ⟨c, found, _⟩ := echoing.told
  simp only [Board.serve, found]
  cases request with
  | allow => exact echoing.allow attentive none
  | isOpen => exact echoing.take attentive (d := .look) found rfl rfl trivial
  | state | name | describe => exact echoing
  | tally => exact echoing.perform (d := .read) found trivial
  | forceOpen => exact echoing.take attentive (d := .forceOpen) found rfl rfl trivial
  | forceClosed =>
      exact echoing.take attentive (d := .forceClosed) found rfl rfl allowed
  | report outcome times took start =>
      exact echoing.reportMany attentive _ ⟨_, _, _, _, allowed⟩ times
  | allowMany askers => exact echoing.allowMany attentive askers

/-- Who asks for the state of the circuit sees it, and changes nothing. -/
theorem Echoing.seen (echoing : Echoing n custom base none open_ b) {request : Request} {s : State}
    (reply : (Board.serve ring n request b).2 = .state s) :
    s = stateTold n (Board.serve ring n request b).1.journal := by
  obtain ⟨c, found, told⟩ := echoing.told
  cases request with
  | state =>
      simp only [Board.serve, found] at reply ⊢
      exact (Reply.state.inj reply).symm.trans told
  | _ => simp [Board.serve, found] at reply

/-! ### Hooks -/

/-- An action is done before it is noted. -/
theorem Echoing.noteAction {action : Action} {reply : Reply}
    (echoing : Echoing n custom base none open_ b)
    (seen : ∀ s, reply = .state s → s = stateTold n b.journal) :
    Echoing n custom base none open_ (b.note (.action n action.text reply)) where
  echoes := .action echoing.echoes seen
  told := echoing.told
  only := echoing.only
  keep := echoing.keep

/-- An action that keeps to the custom leaves nothing due. -/
theorem Echoing.act (attentive : Attentive n custom ring)
    (echoing : Echoing n custom base none open_ b) {action : Action} (keeps : action.Keeps custom) :
    Echoing n custom base none open_ (act ring n b action) := by
  cases keeps with
  | request allowed =>
      exact (echoing.serve attentive allowed).noteAction fun s reply => echoing.seen reply
  | set label actions =>
      have put : Echoing n custom base none open_ (b.setHook _ ⟨_, _⟩) :=
        { echoing with keep := echoing.keep.put ⟨label, actions⟩ }
      exact put.noteAction (by simp)
  | unclear => exact echoing.noteAction (by simp)

/-- The actions of a hook leave nothing due, by induction on their list. -/
theorem Echoing.acts (attentive : Attentive n custom ring)
    (echoing : Echoing n custom base none open_ b) {actions : List Action}
    (keeps : ∀ a ∈ actions, a.Keeps custom) :
    Echoing n custom base none open_ (actions.foldl (Board.act ring n) b) := by
  induction actions generalizing b with
  | nil => exact echoing
  | cons action rest ih =>
      exact ih (echoing.act attentive (keeps action List.mem_cons_self))
        fun a among => keeps a (List.mem_cons_of_mem _ among)

/-- The call of a hook is noted, and then the hook does its actions. -/
theorem ring_echoing {level : Nat} {o : Occasion} {r : Option Report}
    (below : ∀ l, l + 1 = level → Attentive n custom (Board.ring l))
    (missed : b.hooks.get? o = none → Echoing n custom base none open_ b)
    (noted : ∀ hook, b.hooks.get? o = some hook →
      Echoing n custom base none open_ (b.note (.hook hook.label n r)) ∧ hook.Keeps custom o) :
    Echoing n custom base none open_ (Board.ring level o n r b) := by
  cases set : b.hooks.get? o with
  | none =>
      rw [Board.ring, set]
      exact missed set
  | some hook =>
      obtain ⟨called, keeps⟩ := noted hook set
      rw [Board.ring, set]
      cases level with
      | zero => exact called
      | succ level => exact called.acts (below level rfl) keeps.actions

end Echoing

/-- Calling a hook keeps the order if that does on the level below. -/
theorem Attentive.of_below {n : Name} {custom : Custom} {level : Nat}
    (below : ∀ l, l + 1 = level → Attentive n custom (Board.ring l)) :
    Attentive n custom (Board.ring level) := by
  constructor
  case entered =>
    intro base shift open_ b echoing
    refine ring_echoing below (fun missing => ?_) fun hook set => ?_
    · exact { echoing with echoes := .unentered echoing.echoes (echoing.keep.unmuted _ missing) }
    · have kept := echoing.keep.kept _ hook set
      exact ⟨{ echoing with echoes := .entered echoing.echoes kept.label }, kept⟩
  case reported =>
    intro base r open_ b echoing
    refine ring_echoing below (fun missing => ?_) fun hook set => ?_
    · exact { echoing with echoes := .unreported echoing.echoes (echoing.keep.unmuted _ missing) }
    · have kept := echoing.keep.kept _ hook set
      exact ⟨{ echoing with echoes := .reported echoing.echoes kept.label }, kept⟩

/-- Calling a hook keeps the order on every level: its actions call hooks of the level
below. -/
theorem ring_attentive (n : Name) (custom : Custom) (level : Nat) :
    Attentive n custom (ring level) := by
  induction level with
  | zero => exact .of_below fun l below => absurd below (Nat.succ_ne_zero l)
  | succ level ih =>
      refine .of_below fun l below => ?_
      obtain rfl := Nat.succ.inj below
      exact ih

/-! ### Runs -/

section Runs

variable {n : Name} {custom : Custom} {base : List Note} {b : Board}

/-- One move of a run leaves nothing due, at any depth of hooks. -/
theorem Echoing.moveAt (echoing : Echoing n custom base none [] b) (level : Nat) {m : Move}
    (keeps : m.Keeps custom) : Echoing n custom base none [] (b.moveAt level m).1 := by
  cases m with
  | advance d => exact { echoing with }
  | setHook o hook => exact { echoing with keep := echoing.keep.put keeps }
  | request m r => exact echoing.serve (ring_attentive n custom level) keeps

/-- A run leaves nothing due, move after move. -/
theorem Echoing.runAt (echoing : Echoing n custom base none [] b) (level : Nat) {moves : List Move}
    (keep : ∀ m ∈ moves, m.Keeps custom) : Echoing n custom base none [] (b.runAt level moves) := by
  induction moves generalizing b with
  | nil => exact echoing
  | cons m rest ih =>
      exact ih (echoing.moveAt level (keep m List.mem_cons_self))
        fun other among => keep other (List.mem_cons_of_mem _ among)

/-- On a fresh board nothing is due. -/
theorem echoing_fresh (n : Name) (s : Settings) {hooks : Hooks} (keep : hooks.Keep custom)
    (start : Instant) : Echoing n custom [] none [] (fresh n s hooks start) where
  echoes := .nil
  told := ⟨_, Roster.get?_put_self _ _ _, rfl⟩
  only _ other := (Roster.get?_put_of_ne _ _ (Ne.symm other)).trans rfl
  keep := keep

/-- Whatever is done to a circuit in keeping with a custom, its journal is told in order. -/
theorem echoes_runAt (n : Name) (s : Settings) {hooks : Hooks} (keep : hooks.Keep custom)
    (start : Instant) (level : Nat) {moves : List Move} (keeps : ∀ m ∈ moves, m.Keeps custom) :
    Echoes n custom [] none [] ((fresh n s hooks start).runAt level moves).journal :=
  ((echoing_fresh n s keep start).runAt level keeps).echoes

end Runs

end Board

end Bulwark
