import Bulwark.Draft
import Bulwark.Proofs.Frozen

/-!
Settings follow the history of changes.

Overrides replace what was stored before them as a whole, the defaults are replaced as a
whole, and settings are resolved when they are asked for. So of a history of changes only
the overrides that were stored last for a command count (`Policy.own?`), and those from
which the defaults were made last (`Policy.general?`). Each setting is the first that is set
in these two, or that of the library (`Settings.Layered`).

* `Policy.settings_after`: the settings of a command after a history.
* `Policy.same_of_last`: histories that leave the same come to the same, whatever follows.
* `Draft.consistent`: what follows for the order of changes, and for engines that were told
  the same before they were built or after.
-/

namespace Bulwark

/-- The first of two layers that sets something says what it is, or else a default. -/
def Overrides.pick {α : Type} (field : Overrides → Option α) (own general : Option Overrides)
    (default : α) : α := ((own.bind field).or (general.bind field)).getD default

/-- Settings of which each is set by overrides of the command, or else by general ones, or
else by the library. -/
structure Settings.Layered (s : Settings) (own general : Option Overrides) : Prop where
  timeout : s.timeout = Overrides.pick (·.timeout) own general (.ofMillis 1000)
  maxConcurrent : s.maxConcurrent = Overrides.pick (·.maxConcurrent) own general 10
  errorThresholdPct : s.errorThresholdPct = Overrides.pick (·.errorThresholdPct) own general 50
  volumeThreshold : s.volumeThreshold = Overrides.pick (·.volumeThreshold) own general 20
  sleepWindow : s.sleepWindow = Overrides.pick (·.sleepWindow) own general (.ofMillis 5000)
  /-- The length of the window and its division come from one layer. -/
  window : (s.rollingWindow, s.windowBuckets) =
    Overrides.pick (·.window) own general (.ofMillis 10000, 10)

namespace Overrides

variable {own general : Option Overrides}

/-- Resolving one layer after the other picks the first that sets something. -/
theorem getD_eq_pick {α : Type} (field : Overrides → Option α) (unset : field none = .none)
    (default : α) :
    (field (own.getD none)).getD ((field (general.getD none)).getD default) =
      pick field own general default := by
  cases own with
  | none => cases general <;> simp [pick, unset]
  | some o =>
      cases set : field o with
      | none => cases general <;> simp [pick, unset, set]
      | some a => simp [pick, set]

/-- What is set together is picked together. -/
theorem getD_map_eq_pick {α β : Type} (field : Overrides → Option α)
    (unset : field none = .none) (part : α → β) (default : α) :
    ((field (own.getD none)).map part).getD (((field (general.getD none)).map part).getD
      (part default)) = part (pick field own general default) := by
  rw [← getD_eq_pick field unset]
  cases field (own.getD none) <;> cases field (general.getD none) <;> rfl

/-- Settings that are resolved from two layers. -/
theorem layered_resolve (own general : Option Overrides) :
    ((own.getD none).resolve ((general.getD none).resolve .library)).Layered own general where
  timeout := getD_eq_pick _ rfl _
  maxConcurrent := getD_eq_pick _ rfl _
  errorThresholdPct := getD_eq_pick _ rfl _
  volumeThreshold := getD_eq_pick _ rfl _
  sleepWindow := getD_eq_pick _ rfl _
  window := by
    let library : Duration × Nat := (.ofMillis 10000, 10)
    exact Prod.ext (getD_map_eq_pick Overrides.window rfl Prod.fst library)
      (getD_map_eq_pick Overrides.window rfl Prod.snd library)

end Overrides

namespace Policy

/-! ### What a history leaves -/

def Change.stored (n : Name) : Change → List Overrides
  | .setDefaults _ => []
  | .configure m o => if m = n then [o] else []
  | .configureAll items => (items.filter (·.1 = n)).map (·.2)

def Change.default? : Change → Option Overrides
  | .setDefaults o => some o
  | .configure _ _ | .configureAll _ => none

def own? (n : Name) (history : List Change) : Option Overrides :=
  (history.flatMap (·.stored n)).getLast?

def general? (history : List Change) : Option Overrides :=
  (history.filterMap (·.default?)).getLast?

def after (p : Policy) (history : List Change) : Policy := history.foldl change p

variable {h h' : List Change}

theorem own?_append (n : Name) (h h' : List Change) :
    own? n (h ++ h') = (own? n h').or (own? n h) := by
  rw [own?, List.flatMap_append, List.getLast?_append]
  rfl

theorem general?_append (h h' : List Change) :
    general? (h ++ h') = (general? h').or (general? h) := by
  rw [general?, List.filterMap_append, List.getLast?_append]
  rfl

@[simp] theorem own?_nil (n : Name) : own? n [] = none := rfl

@[simp] theorem general?_nil : general? [] = none := rfl

theorem own?_cons (n : Name) (c : Change) (h : List Change) :
    own? n (c :: h) = (own? n h).or (c.stored n).getLast? := by
  rw [own?, List.flatMap_cons, List.getLast?_append]
  rfl

theorem general?_cons (c : Change) (h : List Change) :
    general? (c :: h) = (general? h).or c.default? := by
  have single : general? [c] = c.default? := by cases c <;> rfl
  rw [← single]
  exact general?_append [c] h

theorem getLast?_stored_configure (n m : Name) (o : Overrides) :
    ((Change.configure m o).stored n).getLast? = if m = n then some o else none := by
  rw [Change.stored]
  split <;> rfl

/-- Several overrides are stored one after the other. -/
theorem getLast?_stored_configureAll (n : Name) (items : List (Name × Overrides)) :
    ((Change.configureAll items).stored n).getLast? =
      own? n (items.map fun item => .configure item.1 item.2) := by
  induction items with
  | nil => rfl
  | cons item rest ih =>
      rw [List.map_cons, own?_cons, ← ih, getLast?_stored_configure]
      simp only [Change.stored]
      by_cases same : item.1 = n
      · simp [same, List.getLast?_cons]
      · simp [same]

theorem general?_map_configure (items : List (Name × Overrides)) :
    general? (items.map fun item => .configure item.1 item.2) = none := by
  simp [general?, List.filterMap_map, Change.default?]

/-! ### What becomes of settings -/

/-- A command has the overrides that a change stores for it last, or those that it had. -/
theorem get?_configure (p : Policy) (n m : Name) (o : Overrides) :
    (p.configure m o).overrides.get? n =
      ((Change.configure m o).stored n).getLast?.or (p.overrides.get? n) := by
  rw [getLast?_stored_configure, configure, Roster.get?_put]
  split <;> rfl

theorem get?_configureAll (p : Policy) (n : Name) (items : List (Name × Overrides)) :
    (p.configureAll items).overrides.get? n =
      ((Change.configureAll items).stored n).getLast?.or (p.overrides.get? n) := by
  induction items generalizing p with
  | nil => rfl
  | cons item rest ih =>
      refine (ih (p.configure item.1 item.2)).trans ?_
      rw [get?_configure, getLast?_stored_configureAll n (item :: rest), List.map_cons, own?_cons,
        ← getLast?_stored_configureAll, Option.or_assoc]

/-- A history leaves a command the overrides that it stored last, if it stored any. -/
theorem get?_after (p : Policy) (h : List Change) (n : Name) :
    (p.after h).overrides.get? n = (own? n h).or (p.overrides.get? n) := by
  induction h generalizing p with
  | nil => rfl
  | cons c rest ih =>
      refine (ih (p.change c)).trans ?_
      rw [own?_cons, Option.or_assoc]
      congr 1
      cases c with
      | setDefaults o => rfl
      | configure m o => exact p.get?_configure n m o
      | configureAll items => exact p.get?_configureAll n items

/-- Storing overrides leaves the defaults alone. -/
theorem defaults_configureAll (p : Policy) (items : List (Name × Overrides)) :
    (p.configureAll items).defaults = p.defaults := by
  induction items generalizing p with
  | nil => rfl
  | cons item rest ih => exact ih (p.configure item.1 item.2)

/-- A history leaves the defaults that it made last, if it made any. -/
theorem defaults_after (p : Policy) (h : List Change) :
    (p.after h).defaults = ((general? h).map (·.resolve .library)).getD p.defaults := by
  induction h generalizing p with
  | nil => rfl
  | cons c rest ih =>
      refine (ih (p.change c)).trans ?_
      rw [general?_cons]
      cases general? rest with
      | some o => rfl
      | none =>
          cases c with
          | setDefaults o | configure m o => rfl
          | configureAll items => exact p.defaults_configureAll items

/-- The settings of a command are its own overrides, filled up by the defaults. -/
theorem settings_eq (p : Policy) (n : Name) :
    p.settings n = ((p.overrides.get? n).getD .none).resolve p.defaults := by
  unfold settings
  cases p.overrides.get? n <;> rfl

/-- From a new policy, the settings of a command are resolved from the overrides that were
stored for it last, on the defaults that were made last. -/
theorem settings_after (h : List Change) (n : Name) :
    (Policy.after {} h).settings n =
      ((own? n h).getD .none).resolve (((general? h).getD .none).resolve .library) := by
  rw [settings_eq, get?_after, defaults_after, Roster.get?_nil, Option.or_none]
  cases general? h <;> rfl

/-! ### Histories that come to the same -/

/-- Two histories come to the same: whatever the policy was before them, and whatever is
changed after them, every command has the same settings. -/
def Same (h h' : List Change) : Prop :=
  ∀ (p : Policy) (later : List Change) (n : Name),
    (p.after (h ++ later)).settings n = (p.after (h' ++ later)).settings n

/-- Histories that leave the same come to the same. -/
theorem same_of_last (own : ∀ n, own? n h = own? n h') (general : general? h = general? h') :
    Same h h' := by
  intro p later n
  rw [settings_eq, settings_eq, get?_after, get?_after, defaults_after, defaults_after,
    own?_append, own?_append, general?_append, general?_append, own, general]

/-- Overrides replace those that were stored for the same command, whatever they set. -/
theorem same_replaced (n : Name) (o o' : Overrides) (between : List Change) :
    Same (.configure n o :: between ++ [.configure n o']) (between ++ [.configure n o']) := by
  refine same_of_last (fun m => ?_) ?_
  · simp only [own?_append, own?_cons, own?_nil, getLast?_stored_configure, Option.none_or]
    split <;> simp
  · simp [general?_append, general?_cons, Change.default?]

/-- New defaults replace the old ones, whatever they set. -/
theorem same_replaced_defaults (o o' : Overrides) (between : List Change) :
    Same (.setDefaults o :: between ++ [.setDefaults o']) (between ++ [.setDefaults o']) := by
  refine same_of_last (fun m => ?_) ?_
  · simp [own?_append, own?_cons, Change.stored]
  · simp [general?_append, general?_cons, Change.default?]

/-- Changes come to the same in either order if no command has overrides from both, and the
defaults are not made by both. -/
theorem same_swapped {c d : Change} (own : ∀ n, c.stored n = [] ∨ d.stored n = [])
    (general : c.default? = none ∨ d.default? = none) : Same [c, d] [d, c] := by
  refine same_of_last (fun n => ?_) ?_
  · rcases own n with none_ | none_ <;> simp [own?_cons, none_]
  · rcases general with none_ | none_ <;> simp [general?_cons, none_]

/-- Storing the overrides of several commands is storing them one after the other. -/
theorem same_configureAll (items : List (Name × Overrides)) :
    Same [.configureAll items] (items.map fun item => .configure item.1 item.2) := by
  refine same_of_last (fun n => ?_) ?_
  · rw [own?_cons, getLast?_stored_configureAll, own?_nil, Option.none_or]
  · rw [general?_map_configure]
    rfl

/-- The settings of a command from a new policy are layered. -/
theorem layered_after (h : List Change) (n : Name) :
    ((Policy.after {} h).settings n).Layered (own? n h) (general? h) := by
  rw [settings_after]
  exact Overrides.layered_resolve _ _

/-- Of what was stored first nothing is kept. -/
example :
    let changes : List Change := [.configure "svc" { timeout := some ⟨5⟩ },
      .setDefaults { maxConcurrent := some 3 }, .configure "svc" { sleepWindow := some ⟨7⟩ }]
    (Policy.after {} changes).settings "svc" = { maxConcurrent := 3, sleepWindow := ⟨7⟩ } := by
  decide

end Policy

namespace Draft

def Word.change? : Word → Option Policy.Change
  | .setDefaults o => some (.setDefaults o)
  | .configure n o => some (.configure n o)
  | .setHooks _ => none

/-- What was said about settings before an engine was built, and after. -/
def history (words : List Word) (steps : List Step) : List Policy.Change :=
  words.filterMap Word.change? ++ steps.filterMap Step.change?

theorem of_concat (words : List Word) (x : Word) : of (words ++ [x]) = (of words).add x := by
  simp [of, List.foldl_append]

/-- A draft keeps the defaults that were set last, if any were. -/
theorem defaults_of (words : List Word) :
    (of words).defaults = (Policy.general? (words.filterMap Word.change?)).getD .none := by
  induction words using List.reverseRecOn with
  | nil => rfl
  | append_singleton words x ih =>
      rw [of_concat, List.filterMap_append, Policy.general?_append]
      cases x with
      | setDefaults o => rfl
      | configure n o | setHooks hooks => exact ih

/-- A draft keeps for each command the overrides that were given last, among others. -/
theorem own?_items (words : List Word) (n : Name) :
    Policy.own? n ((of words).items.map fun item => .configure item.1 item.2) =
      Policy.own? n (words.filterMap Word.change?) := by
  induction words using List.reverseRecOn with
  | nil => rfl
  | append_singleton words x ih =>
      rw [of_concat, List.filterMap_append, Policy.own?_append, ← ih]
      cases x with
      | configure m o =>
          simp only [add, List.map_append, Policy.own?_append]
          rfl
      | setDefaults o | setHooks hooks => rfl

/-- A policy that is built from a draft resolves settings as one that was changed word by
word. -/
theorem settings_build (words : List Word) (later : List Policy.Change) (n : Name) :
    ((of words).build.policy.after later).settings n =
      (Policy.after {} (words.filterMap Word.change? ++ later)).settings n := by
  have built : (of words).build.policy.after later = Policy.after {}
      (.setDefaults (of words).defaults :: .configureAll (of words).items :: later) := rfl
  rw [built, Policy.settings_after, Policy.settings_after]
  have own : Policy.own? n (.setDefaults (of words).defaults :: .configureAll (of words).items ::
      later) = Policy.own? n (words.filterMap Word.change? ++ later) := by
    rw [Policy.own?_append, ← own?_items, Policy.own?_cons, Policy.own?_cons,
      Policy.getLast?_stored_configureAll]
    simp [Policy.Change.stored]
  have general : (Policy.general? (.setDefaults (of words).defaults ::
      .configureAll (of words).items :: later)).getD .none =
        (Policy.general? (words.filterMap Word.change? ++ later)).getD .none := by
    rw [Policy.general?_append, Policy.general?_cons, Policy.general?_cons, defaults_of]
    cases Policy.general? later <;> cases Policy.general? (words.filterMap Word.change?) <;> rfl
  rw [own, general]

/-- The settings that an engine answers are those of its history. -/
theorem step_settings (words : List Word) (steps : List Step) (n : Name) :
    (((of words).build.run steps).step (.settings n)).2 =
      .settings ((Policy.after {} (history words steps)).settings n) := by
  have asked : (((of words).build.run steps).step (.settings n)).2 =
      .settings (((of words).build.run steps).policy.settings n) := rfl
  have resolved := settings_build words (steps.filterMap Step.change?) n
  rw [asked, Engine.policy_run]
  exact congrArg Answer.settings resolved

/-- How settings follow what was said about them, before an engine was built and after. -/
structure Consistent (words : List Word) (steps : List Step) : Prop where
  /-- Each setting is set by the overrides stored last for the command, or else by those
  made the defaults last, or else by the library. -/
  answered : ∀ n, ∃ s, (((of words).build.run steps).step (.settings n)).2 = .settings s ∧
    s.Layered (Policy.own? n (history words steps)) (Policy.general? (history words steps))
  /-- So it is for a policy on its own. -/
  resolved : ∀ h n, ((Policy.after {} h).settings n).Layered (Policy.own? n h) (Policy.general? h)
  /-- Nothing is merged with what it replaces. -/
  replaced : ∀ n o o' between, Policy.Same (.configure n o :: between ++ [.configure n o'])
    (between ++ [.configure n o'])
  replaced_defaults : ∀ o o' between, Policy.Same (.setDefaults o :: between ++ [.setDefaults o'])
    (between ++ [.setDefaults o'])
  /-- Defaults may be set before overrides or after. -/
  commute_defaults : ∀ o c, c.default? = none → Policy.Same [.setDefaults o, c] [c, .setDefaults o]
  /-- So may the overrides of different commands. -/
  commute : ∀ n m o o', n ≠ m →
    Policy.Same [.configure n o, .configure m o'] [.configure m o', .configure n o]
  batch : ∀ items, Policy.Same [.configureAll items]
    (items.map fun item => .configure item.1 item.2)
  /-- An engine that was built as it was told answers as one that was told afterwards. -/
  built : ∀ n, (((of words).build.run steps).step (.settings n)).2 =
    (((of []).build.run ((words.filterMap Word.change?).map Step.change ++ steps)).step
      (.settings n)).2

/-- Settings follow what was said about them. -/
theorem consistent (words : List Word) (steps : List Step) : Consistent words steps := by
  constructor
  case answered =>
    intro n
    exact ⟨_, step_settings words steps n, Policy.layered_after _ n⟩
  case resolved => exact Policy.layered_after
  case replaced => exact Policy.same_replaced
  case replaced_defaults => exact Policy.same_replaced_defaults
  case commute_defaults =>
    intro o c unset
    exact Policy.same_swapped (fun _ => .inl rfl) (.inr unset)
  case commute =>
    intro n m o o' differ
    refine Policy.same_swapped (fun l => ?_) (.inl rfl)
    by_cases same : n = l
    · exact .inr (if_neg (by rw [← same]; exact Ne.symm differ))
    · exact .inl (if_neg same)
  case batch => exact Policy.same_configureAll
  case built =>
    intro n
    have told : history [] ((words.filterMap Word.change?).map Step.change ++ steps) =
        history words steps := by
      simp [history, List.filterMap_append, List.filterMap_map, Function.comp_def, Step.change?]
    rw [step_settings, step_settings, told]

end Draft

end Bulwark
