import Bulwark.Proofs.Sided

/-!
Steps narrowed to the commands that are kept.

Steps that concern other commands alone are left out (`Step.keeps`), and of those that
concern several commands only the share of those that are kept is done (`Step.narrow`).

* `Engine.Parted.narrows`: what a step does, restricted, is what the narrowed step does to
  the restricted engine.
* `Engine.Parted.narrows_step`: the same holds once everything has gone on.
-/

namespace Bulwark

/-! ### Steps that are narrowed -/

namespace Step

def specs : Step → List (CallSpec Script)
  | .call spec => [spec]
  | .calls specs => specs
  | _ => []

def keeps (s : Scope) : Step → Bool
  | .call spec => s.commands spec.command
  | .finish id _ | .poll id | .await id | .drop id => s.handles id
  | .change (.configure n _) | .settings n | .circuit n _ | .create n | .get n
  | .describeCommand n | .clonePool n | .createMany n _ | .pool n _ _ => s.commands n
  | .calls _ | .advance _ | .change (.setDefaults _) | .change (.configureAll _) | .names
  | .describe | .clone | .setHook _ _ => true

/-- What a step does for the commands that are kept. -/
def narrow (s : Scope) : Step → Step
  | .calls specs => .calls (specs.filter fun spec => s.commands spec.command)
  | .change (.configureAll items) =>
      .change (.configureAll (items.filter fun item => s.commands item.1))
  | st => st

/-- A step respects the sides, and its calls have ids that have not been seen. -/
structure Suits (s : Scope) (seen : List String) (st : Step) : Prop where
  distinct : (st.specs.map (·.id)).Nodup
  unseen : ∀ spec ∈ st.specs, spec.id ∉ seen
  fits : ∀ spec ∈ st.specs, s.Fits (s.commands spec.command) spec.calls
  told : ∀ id next, st = .finish id next → ∀ side, s.knows side id = true → s.Fits side next.calls
  tickets : ∀ n handle r, st = .pool n handle (some r) → ∀ t, r.ticket? = some t →
    s.tickets t = s.commands n
  silent : ∀ o hook, st = .setHook o hook → hook.actions = []

end Step

namespace Engine

/-- A step does to the restricted engine, narrowed, what it does to the whole one, and
nothing if it concerns other commands alone. What a step does is told by `act`. -/
structure Narrows (act : Engine → Step → Engine × Answer) (s : Scope) (seen : List String)
    (st : Step) (e : Engine) : Prop where
  parted : (act e st).1.Parted s seen
  kept : st.keeps s = true → (act (e.within s) (st.narrow s)).1 = (act e st).1.within s
  /-- The engine in words tells of all commands. -/
  answer : st.keeps s = true → st ≠ .names → st ≠ .describe →
    (act (e.within s) (st.narrow s)).2 = (act e st).2
  other : st.keeps s = false → (act e st).1.within s = e.within s

variable {s : Scope} {seen seen' : List String} {e : Engine} {st : Step}

theorem Parted.mono (parted : e.Parted s seen) (more : seen ⊆ seen') : e.Parted s seen' :=
  { parted with
    queue := fun spec member =>
      ⟨(parted.queue spec member).1, more (parted.queue spec member).2⟩
    handles := fun entry member =>
      ⟨more (parted.handles entry member).1, (parted.handles entry member).2⟩ }

/-- A step that concerns one side is narrowed. -/
theorem Parted.narrows_of_on (parted : e.Parted s seen) (on : st.On s seen (st.keeps s))
    (whole : st.narrow s = st) : Narrows begin s seen st e := by
  obtain ⟨follows, same⟩ := (parted.follows (st.keeps s)).begin on
  refine ⟨follows.parted, ?_, ?_, follows.still⟩
  · intro kept
    have view := follows.view
    simp only [kept, if_true] at view
    rw [whole]
    exact view
  · intro kept _ _
    simp only [kept, if_true] at same
    rw [whole]
    exact same

/-- Code does not wait under an id that is of no call. -/
theorem manual?_of_unknown {id : String}
    (unknown : ∀ entry ∈ e.desks, ∀ c ∈ entry.2.calls, c.id ≠ id) : e.manual? id = none := by
  refine Option.eq_none_iff_forall_ne_some.mpr fun w found => ?_
  rw [manual?_eq] at found
  obtain ⟨entry, member, there⟩ := List.exists_of_findSome?_eq_some found
  obtain ⟨_, c, listed, same⟩ := Desk.mem_of_manual? there
  exact unknown entry member c listed same

/-- A step that changes nothing in the engine nor in the restricted one. -/
theorem Parted.narrows_of_idle (parted : e.Parted s seen) (kept : st.keeps s = true)
    (idle : (e.begin st).1 = e) (idleWithin : ((e.within s).begin (st.narrow s)).1 = e.within s)
    (answer : st ≠ .names → st ≠ .describe →
      ((e.within s).begin (st.narrow s)).2 = (e.begin st).2) : Narrows begin s seen st e := by
  refine ⟨idle.symm ▸ parted, fun _ => idleWithin.trans ?_, fun _ => answer, ?_⟩
  · rw [idle]
  · intro other
    rw [kept] at other
    cases other

/-- Calls are made one by one, and those of other commands leave no trace. -/
theorem Parted.within_startCalls (parted : e.Parted s seen) {specs : List (CallSpec Script)}
    (fits : ∀ spec ∈ specs, s.Fits (s.commands spec.command) spec.calls ∧ spec.id ∈ seen) :
    (specs.foldl startCall e).Parted s seen ∧
      (specs.foldl startCall e).within s =
        (specs.filter fun spec => s.commands spec.command).foldl startCall (e.within s) := by
  induction specs generalizing e with
  | nil => exact ⟨parted, rfl⟩
  | cons spec rest ih =>
      obtain ⟨own, known⟩ := fits spec List.mem_cons_self
      have started := (parted.follows (s.commands spec.command)).startCall own known
      obtain ⟨after, same⟩ :=
        ih started.parted fun other member => fits other (List.mem_cons_of_mem _ member)
      refine ⟨after, same.trans ?_⟩
      by_cases kept : s.commands spec.command = true
      · have view := started.view
        simp only [kept, if_true] at view
        rw [List.filter_cons_of_pos (by exact kept), List.foldl_cons, view]
      · rw [List.filter_cons_of_neg (by exact kept), started.still (eq_false_of_ne_true kept)]

/-- Overrides are replaced one by one, and those of other commands leave no trace. -/
theorem within_configureAll (p : Name → Bool) (items : List (Name × Overrides)) (policy : Policy) :
    { policy.configureAll items with
      overrides := (policy.configureAll items).overrides.only p } =
      ({ policy with overrides := policy.overrides.only p } : Policy).configureAll
        (items.filter fun item => p item.1) := by
  induction items generalizing policy with
  | nil => rfl
  | cons item rest ih =>
      have first := ih (policy.configure item.1 item.2)
      refine first.trans ?_
      by_cases kept : p item.1 = true
      · rw [List.filter_cons_of_pos (by exact kept)]
        simp [Policy.configureAll, Policy.configure, Roster.only_put _ kept]
      · rw [List.filter_cons_of_neg (by exact kept)]
        simp [Policy.configure, Roster.only_put_of_not _ (eq_false_of_ne_true kept)]

/-- An id that has not been seen is the name of no handle. -/
theorem Parted.has_of_unseen (parted : e.Parted s seen) {id : String} (unseen : id ∉ seen) :
    e.handles.has id = false ∧ (e.within s).handles.has id = false := by
  have absent : e.handles.get? id = none := by
    refine Option.eq_none_iff_forall_ne_some.mpr fun h found => unseen ?_
    exact (parted.handles _ (Roster.mem_of_get? found)).1
  simp [Roster.has, within, Roster.get?_only, absent]

/-- Several calls are made if their ids are not in use and differ. -/
theorem begin_calls_of_fresh {specs : List (CallSpec Script)}
    (distinct : (specs.map (·.id)).Nodup)
    (fresh : ∀ spec ∈ specs, e.handles.has spec.id = false) :
    e.begin (.calls specs) = (specs.foldl startCall e, .started) := by
  have unused : (specs.any fun spec => e.handles.has spec.id) = false := by
    simpa using fresh
  simp [begin, unused, distinct]

theorem Parted.narrows_calls (parted : e.Parted s seen) {specs : List (CallSpec Script)}
    (suits : (Step.calls specs).Suits s seen) :
    Narrows begin s (seen ++ specs.map (·.id)) (.calls specs) e := by
  obtain ⟨distinct, unseen, fits, -, -, -⟩ := suits
  simp only [Step.specs] at distinct unseen fits
  have fresh := fun spec member => parted.has_of_unseen (unseen spec member)
  have begun := begin_calls_of_fresh distinct fun spec member => (fresh spec member).1
  have begunWithin : (e.within s).begin ((Step.calls specs).narrow s) =
      ((specs.filter fun spec => s.commands spec.command).foldl startCall (e.within s),
        .started) := by
    refine begin_calls_of_fresh ?_ fun spec member => ?_
    · exact distinct.sublist (List.filter_sublist.map _)
    · exact (fresh spec (List.mem_filter.mp member).1).2
  have more := parted.mono (List.subset_append_left seen (specs.map (·.id)))
  obtain ⟨after, same⟩ := more.within_startCalls fun spec member =>
    ⟨fits spec member, List.mem_append_right _ (List.mem_map_of_mem member)⟩
  refine ⟨?_, ?_, ?_, by simp [Step.keeps]⟩
  · rw [begun]
    exact after
  · intro _
    rw [begun, begunWithin]
    exact same.symm
  · intro _ _ _
    rw [begun, begunWithin]

/-- Telling code to go on under an id of no call finds nobody. -/
theorem Parted.narrows_finish_of_unknown (parted : e.Parted s seen) {id : String}
    (unknown : ∀ side, s.knows side id = false) (next : Script) :
    Narrows begin s seen (.finish id next) e := by
  have absent : ∀ entry ∈ e.desks, ∀ c ∈ entry.2.calls, c.id ≠ id := by
    rintro entry member c listed rfl
    have known := (parted.calls entry member c listed).id
    rw [unknown] at known
    cases known
  have nobody := manual?_of_unknown absent
  have nobodyWithin : (e.within s).manual? id = none :=
    manual?_of_unknown fun entry member => absent entry (List.mem_filter.mp member).1
  have kept : s.handles id = true := by
    simpa [Scope.handles, Scope.knows] using unknown false
  refine parted.narrows_of_idle kept ?_ ?_ fun _ _ => ?_
  · simp only [begin, instruct, nobody]
  · simp only [Step.narrow, begin, instruct, nobodyWithin]
  · simp only [Step.narrow, begin, instruct, nobody, nobodyWithin]

theorem Parted.narrows_change (parted : e.Parted s seen) (c : Policy.Change) :
    Narrows begin s seen (.change c) e := by
  cases c with
  | configure n o => exact parted.narrows_of_on rfl rfl
  | setDefaults o =>
      exact ⟨{ parted with }, fun _ => rfl, fun _ _ _ => rfl, by simp [Step.keeps]⟩
  | configureAll items =>
      refine ⟨{ parted with }, fun _ => ?_, fun _ _ _ => rfl, by simp [Step.keeps]⟩
      have policies := within_configureAll s.commands items e.policy
      simp only [within, begin, Step.narrow, Policy.change, policies]

theorem Parted.narrows_setHook (parted : e.Parted s seen) (o : Occasion) {hook : Hook}
    (quiet : hook.actions = []) : Narrows begin s seen (.setHook o hook) e := by
  refine ⟨{ parted with silent := ?_ }, fun _ => rfl, fun _ _ _ => rfl, by simp [Step.keeps]⟩
  intro occasion set found
  have put : (e.board.hooks.put o hook).get? occasion = some set := found
  rw [Hooks.get?_put] at put
  split at put
  · obtain rfl := Option.some.inj put
    exact quiet
  · exact parted.silent occasion set put

/-- Every step that respects the sides is narrowed to what it does for the commands that
are kept. -/
theorem Parted.narrows (parted : e.Parted s seen) (ordered : e.Ordered .ahead none)
    (orderedWithin : (e.within s).Ordered .ahead none) (atRest : e.queue = [])
    (suits : st.Suits s seen) : Narrows begin s (seen ++ st.specs.map (·.id)) st e := by
  have more := parted.mono (List.subset_append_left seen (st.specs.map (·.id)))
  cases st with
  | call spec =>
      exact more.narrows_of_on ⟨suits.fits spec List.mem_cons_self, by simp [Step.specs]⟩ rfl
  | calls specs => exact parted.narrows_calls suits
  | advance d =>
      obtain ⟨after, same⟩ := more.within_advance ordered.punctual orderedWithin.punctual atRest d
      exact ⟨after, fun _ => same.symm, fun _ _ _ => rfl, by simp [Step.keeps]⟩
  | finish id next =>
      by_cases known : ∃ side, s.knows side id = true
      · obtain ⟨side, here⟩ := known
        obtain rfl := Scope.handles_of_knows here
        exact more.narrows_of_on ⟨here, suits.told id next rfl _ here⟩ rfl
      · refine more.narrows_finish_of_unknown (fun side => ?_) next
        exact eq_false_of_ne_true fun here => known ⟨side, here⟩
  | change c => exact more.narrows_change c
  | pool n handle request =>
      refine more.narrows_of_on ⟨rfl, ?_⟩ rfl
      rintro r rfl
      exact suits.tickets n handle r rfl
  | setHook o hook => exact more.narrows_setHook o (suits.silent o hook rfl)
  | names | describe | clone =>
      exact more.narrows_of_idle rfl rfl rfl (by simp [Step.narrow, begin])
  | poll | await | drop | settings | circuit | create | get | describeCommand | clonePool
    | createMany => exact more.narrows_of_on rfl rfl

/-- The same holds once everything has gone on. -/
theorem Parted.narrows_step (parted : e.Parted s seen) (ordered : e.Ordered .ahead none)
    (orderedWithin : (e.within s).Ordered .ahead none) (atRest : e.queue = [])
    (suits : st.Suits s seen) : Narrows step s (seen ++ st.specs.map (·.id)) st e := by
  have begun := parted.narrows ordered orderedWithin atRest suits
  have rested := (ordered.step atRest st).2
  refine ⟨(begun.parted.within_settle _).1, ?_, begun.answer, ?_⟩
  · intro kept
    have restedWithin := (orderedWithin.step (within_queue_nil atRest) (st.narrow s)).2
    simp only [step, begun.kept kept] at restedWithin ⊢
    exact (begun.parted.within_rest rested restedWithin).2.symm
  · intro out
    have same := begun.other out
    have idle : ((e.begin st).1.within s).queue = [] := by
      rw [same]
      exact within_queue_nil atRest
    have still : ((e.begin st).1.within s).rest = (e.begin st).1.within s :=
      settle_of_queue_nil idle _
    have view := (begun.parted.within_rest rested (still.symm ▸ idle)).2
    exact view.trans (still.trans same)

end Engine

end Bulwark
