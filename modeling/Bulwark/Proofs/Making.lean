import Bulwark.Proofs.Frame

/-!
Creating commands and making calls.

A command is created, and a call made, next to all that is there (`Engine.Grows`):
no call, no turn and no ticket is lost, and nothing is told of other calls. A new
call has its two turns in the queue.

* `Ordered.create`: creating a command keeps everything in order.
* `Ordered.execute`: so does making a call, and the new call is in order too.
* `Acting.execute`: code that makes a call in its turn is owed the verdict.
-/

namespace Bulwark.Engine

variable {r : Regime} {e e' : Engine} {k j : CallKey} {c d : Call} {t : Tale}
  {busy : Option Part} {away : Option CallKey}

/-- The second engine has all that the first has: the same time, tickets, turns
and calls, and the same is told of those calls. -/
structure Grows (e e' : Engine) : Prop where
  now : e'.now = e.now
  queue : e.queue ⊆ e'.queue
  tickets : e'.tickets = e.tickets
  calls : ∀ i d, e.call? i = some d → e'.call? i = some d
  tales : ∀ i, (e.call? i).isSome → e'.tale i = e.tale i

theorem Grows.trans {e'' : Engine} (first : Grows e e') (second : Grows e' e'') :
    Grows e e'' where
  now := second.now.trans first.now
  queue := fun _ queued => second.queue (first.queue queued)
  tickets := second.tickets.trans first.tickets
  calls i d here := second.calls i d (first.calls i d here)
  tales i present := by
    obtain ⟨d, here⟩ := Option.isSome_iff_exists.mp present
    rw [second.tales i (by rw [first.calls i d here]; rfl), first.tales i present]

theorem Grows.sustains (grown : Grows e e') : Sustains e e' where
  now := grown.now
  queue := grown.queue
  owes := by
    rintro i w ⟨inner, here, unread, waits⟩
    exact ⟨inner, grown.calls i inner here, unread, waits⟩

/-- A call in whose turn another call is made. -/
theorem Acting.grow (acting : e.Acting r k c t busy) (grown : Grows e e')
    (rest : e'.Ordered r (some k)) : e'.Acting r k c t busy where
  rest := rest
  here := grown.calls k c acting.here
  tale := by
    rw [grown.tales k (by rw [acting.here]; rfl), acting.tale]
  tended p free := (acting.tended p free).mono grown.sustains

/-! ### Commands -/

/-- Nothing happens if a command cannot be created. -/
theorem create_of_defect {n : Name} {defect : Defect} (wrong : (e.create n).2 = some defect) :
    (e.create n).1 = e := by
  unfold create at wrong ⊢
  split
  · rfl
  · next absent =>
      simp only [absent] at wrong
      split at wrong
      · next found => simp only [found]
      · simp at wrong

/-- A new command has no calls. -/
theorem call?_create (e : Engine) (n : Name) (i : CallKey) :
    (e.create n).1.call? i = e.call? i := by
  unfold create
  split
  · rfl
  · next absent =>
      dsimp only
      split
      · rfl
      · by_cases same : n = i.command
        · subst same
          simp [call?, absent]
        · simp [call?, Roster.get?_put_of_ne _ _ same]

theorem tale_create (e : Engine) (n : Name) (i : CallKey) :
    (e.create n).1.tale i = e.tale i := by
  unfold create
  split
  · rfl
  · dsimp only
    split <;> rfl

/-- An engine only grows by a new command. -/
theorem Grows.create (e : Engine) (n : Name) : Grows e (e.create n).1 := by
  refine ⟨?_, ?_, ?_, fun i d here => (call?_create e n i).trans here, fun i _ => tale_create e n i⟩
  all_goals
    unfold Engine.create
    split
    · first | rfl | exact fun _ => id
    · dsimp only
      split <;> first | rfl | exact fun _ => id

/-- A command that could be created is in use. -/
theorem desks_create {n : Name} (usable : (e.create n).2 = none) :
    ((e.create n).1.desks.get? n).isSome := by
  unfold create at usable ⊢
  split
  · next found => simp [found]
  · next absent =>
      simp only [absent] at usable
      split at usable
      · simp at usable
      · next sound => simp [sound]

/-- A new command leaves the calls orderly. -/
theorem Orderly.create (orderly : e.Orderly) (n : Name) : (e.create n).1.Orderly := by
  unfold Engine.create
  split
  · exact orderly
  · next absent =>
      dsimp only
      split
      · exact orderly
      · next sound =>
          -- No ticket was ever taken from a pool that is only made now.
          have untouched : e.handed n = 0 := by
            apply List.countP_eq_zero.mpr
            intro x taken
            have used := orderly.origin x taken
            simp only [decide_eq_true_eq]
            rintro rfl
            simp [absent] at used
          constructor
          case distinct => exact Roster.nodup_names_put orderly.distinct _ _
          case equipped =>
            intro m used
            simp only [desks_remark, Roster.get?_put] at used
            simp only [Engine.remark, Engine.note, Board.note, Board.putCircuit, Roster.get?_put]
            split
            · rfl
            · next differ => exact orderly.equipped m (by simpa [differ] using used)
          case usable =>
            intro m desk found
            simp only [desks_remark, Roster.get?_put] at found
            split at found
            · obtain rfl := Option.some.inj found
              exact (Settings.defect?_eq_none_iff _).mp sound
            · exact orderly.usable m desk found
          case balanced =>
            intro m desk found
            simp only [desks_remark, Roster.get?_put] at found
            split at found
            · next same =>
                subst same
                obtain rfl := Option.some.inj found
                refine ⟨rfl, ?_⟩
                simpa [Pool.full, Desk.seated, handed] using untouched
            · have before := orderly.balanced m desk found
              exact ⟨before.capacity, before.balance⟩
          case blank =>
            intro i unknown
            apply orderly.blank i
            have same := call?_create e n i
            simp only [Engine.create, absent, sound] at same
            exact same.symm.trans unknown
          case labelled => exact orderly.labelled
          case origin =>
            intro x taken
            have used := orderly.origin x taken
            simp only [desks_remark, Roster.get?_put]
            split
            · rfl
            · exact used

theorem Ordered.create (ordered : e.Ordered r away) (n : Name) :
    (e.create n).1.Ordered r away where
  orderly := ordered.orderly.create n
  kept i d other here :=
    (ordered.kept i d other ((call?_create e n i).symm.trans here)).mono (Grows.create e n).sustains
      (tale_create e n i)

/-! ### Calls -/

/-- A call that could not be made changes nothing. -/
theorem execute_of_error {spec : CallSpec Script} {error : CallError}
    (failed : e.execute spec = (e', .error error)) : e' = e := by
  unfold execute at failed
  split at failed
  · exact (Prod.mk.inj failed).1.symm
  · split at failed
    · next before defect made =>
        have same := create_of_defect (congrArg Prod.snd made)
        rw [made] at same
        rw [← (Prod.mk.inj failed).1, ← same]
    · simp at failed

/-- How a call is made. -/
theorem execute_of_ok {spec : CallSpec Script} {i : CallKey}
    (made : e.execute spec = (e', .ok i)) :
    ∃ base desk, base = (e.create spec.command).1 ∧ base.desks.get? spec.command = some desk ∧
      i = ⟨spec.command, desk.calls.length⟩ ∧
      e' = (((base.updateDesk spec.command fun desk =>
        { desk with calls := desk.calls ++ [.make spec e.now] }).note
          (.issued i spec.id spec.fallback.isSome)).enqueue (.poll i (.code .operation))).enqueue
            (.poll i .watch) := by
  unfold execute at made
  split at made
  · simp at made
  · split at made
    · simp at made
    · next base created =>
        have used := desks_create (congrArg Prod.snd created)
        obtain ⟨desk, found⟩ := Option.isSome_iff_exists.mp used
        rw [created] at found
        have now : base.now = e.now := by simpa [created] using (Grows.create e spec.command).now
        obtain ⟨rfl, key⟩ := Prod.mk.inj made
        obtain rfl := Except.ok.inj key
        refine ⟨base, desk, by rw [created], found, by simp [found], by simp [now]⟩

theorem call?_updateDesk_append {n : Name} {desk : Desk} (found : e.desks.get? n = some desk)
    (c : Call) (i : CallKey) :
    (e.updateDesk n fun desk => { desk with calls := desk.calls ++ [c] }).call? i =
      if i = ⟨n, desk.calls.length⟩ then some c else e.call? i := by
  obtain ⟨m, l⟩ := i
  simp only [call?, get?_updateDesk, CallKey.mk.injEq]
  by_cases same : m = n
  · subst same
    simp only [if_true, found, Option.map_some, Option.bind_some, true_and]
    by_cases last : l = desk.calls.length
    · simp [last]
    · rw [if_neg last]
      rcases Nat.lt_or_gt_of_ne last with before | beyond
      · rw [List.getElem?_append_left before]
      · rw [List.getElem?_eq_none (by simp; omega), List.getElem?_eq_none (by omega)]
  · simp [same]

/-- A call that is added to its desk and holds no ticket leaves the others orderly. -/
theorem Orderly.updateDesk_append (orderly : e.Orderly) (n : Name) {c : Call}
    (free : c.slot ≠ .holding) :
    (e.updateDesk n fun desk => { desk with calls := desk.calls ++ [c] }).Orderly where
  distinct := nodup_updateDesk orderly.distinct _ _
  equipped m used := by
    rw [board_updateDesk]
    apply orderly.equipped m
    rw [get?_updateDesk] at used
    split at used <;> simpa using used
  usable m desk found := by
    rw [get?_updateDesk] at found
    split at found
    · obtain ⟨old, before, rfl⟩ := Option.map_eq_some_iff.mp found
      exact orderly.usable m old before
    · exact orderly.usable m desk found
  balanced m desk found := by
    rw [get?_updateDesk] at found
    split at found
    · obtain ⟨old, before, rfl⟩ := Option.map_eq_some_iff.mp found
      have counted := orderly.balanced m old before
      refine ⟨counted.capacity, ?_⟩
      simpa [Desk.seated, handed, List.countP_append, free] using counted.balance
    · have counted := orderly.balanced m desk found
      exact ⟨counted.capacity, by simpa [handed] using counted.balance⟩
  blank i unknown := by
    rw [tale_updateDesk]
    apply orderly.blank i
    cases used : e.desks.get? n with
    | none => simpa [updateDesk, used] using unknown
    | some desk =>
        rw [call?_updateDesk_append used] at unknown
        split at unknown
        · simp at unknown
        · exact unknown
  labelled := by simpa using orderly.labelled
  origin x taken := by
    have used := orderly.origin x (by simpa using taken)
    rw [get?_updateDesk]
    split <;> simpa using used

/-- A call that has just been made is in order: both its tasks have their turns. -/
theorem Kept.make {spec : CallSpec Script} {start : Instant} {i : CallKey}
    (worker : Turn.poll i (.code .operation) ∈ e.queue) (watch : Turn.poll i .watch ∈ e.queue)
    (tale : e.tale i = { rescuable := spec.fallback.isSome }) :
    e.Kept r i (.make spec start) := by
  have fresh : (Call.make spec start).rescue.Fresh spec.fallback.isSome := by
    cases found : spec.fallback <;> simp [Call.make, found, Rescue.Fresh]
  constructor
  case sound => constructor <;> simp [Call.make, Work.phase]
  case told =>
    rw [tale]
    exact ⟨⟨rfl, rfl⟩, by simp [Tale.events]⟩
  case resolution =>
    rw [tale]
    exact .unclaimed fresh rfl
  case tended =>
    intro p
    rcases p with stage | _
    · cases stage with
      | operation => exact worker
      | fallback =>
          simp only [Tended]
          split
          · next found => simp [found, Rescue.Fresh] at fresh
          · trivial
    · exact watch

/-- Making a call keeps everything in order, and the new call is in order too. -/
theorem Ordered.execute (ordered : e.Ordered r away) {spec : CallSpec Script} {i : CallKey}
    (made : e.execute spec = (e', .ok i)) :
    e'.Ordered r away ∧ Grows e e' ∧ e.call? i = none ∧
      e'.call? i = some (.make spec e.now) := by
  obtain ⟨base, desk, created, found, key, rfl⟩ := execute_of_ok made
  have basis : base.Ordered r away := created ▸ ordered.create spec.command
  have first : Grows e base := created ▸ Grows.create e spec.command
  have before : e.call? i = none := by
    rw [← call?_create e spec.command, ← created, key, call?_of_desk found]
    simp
  let c := Call.make spec e.now
  let filed := base.updateDesk spec.command fun desk => { desk with calls := desk.calls ++ [c] }
  let noted := filed.note (.issued i spec.id spec.fallback.isSome)
  let after := (noted.enqueue (.poll i (.code .operation))).enqueue (.poll i .watch)
  have call : ∀ j, after.call? j = if j = i then some c else base.call? j := by
    intro j
    rw [key]
    exact call?_updateDesk_append found c j
  have unknown : base.call? i = none := by
    rw [created, call?_create, before]
  have tale : ∀ j, after.tale j =
      if j = i then { rescuable := spec.fallback.isSome } else base.tale j := by
    intro j
    by_cases self : j = i
    · subst self
      have blank := basis.orderly.blank j unknown
      simp [after, noted, filed, tale_note, Entry.call?, Tale.add, blank]
    · simp [after, noted, filed, tale_note, Entry.call?, self, Ne.symm self]
  have grown : Grows base after := by
    constructor
    case now => exact now_updateDesk ..
    case queue => simp [after, noted, filed]
    case tickets => exact tickets_updateDesk ..
    case calls =>
      intro j d here
      rw [call, if_neg (by rintro rfl; simp [unknown] at here), here]
    case tales =>
      intro j present
      rw [tale, if_neg (by rintro rfl; simp [unknown] at present)]
  have orderly : noted.Orderly := by
    refine (basis.orderly.updateDesk_append spec.command (by simp [c, Call.make])).besides
      (besides_note _) fun j absent => tale_note_of_ne _ fun about => ?_
    obtain rfl : i = j := by simpa [Entry.call?] using about
    have present := call i
    simp only [if_true] at present
    exact absurd (absent.symm.trans present) (by simp)
  refine ⟨?_, first.trans grown, before, (call i).trans (if_pos rfl)⟩
  constructor
  case orderly =>
    exact (orderly.besides (besides_enqueue _) fun _ _ => rfl).besides (besides_enqueue _)
      fun _ _ => rfl
  case kept =>
    intro j d other here
    rw [call] at here
    split at here
    · next self =>
        subst self
        obtain rfl := Option.some.inj here
        exact .make (by simp) (by simp) (by rw [tale, if_pos rfl])
    · next differ =>
        exact (basis.kept j d other here).mono grown.sustains (by rw [tale, if_neg differ])

/-! ### Waiting for a call -/

/-- Code that made a call waits for the verdict of that call. -/
theorem Ordered.await (ordered : e.Ordered r away) {i : CallKey} (here : e.call? i = some d)
    (nobody : d.waiter = none) (w : CallKey × Stage) :
    (e.updateCall i fun c => { c with waiter := some w }).Ordered r away ∧
      Sustains e (e.updateCall i fun c => { c with waiter := some w }) := by
  have same : Sustains e (e.updateCall i fun c => { c with waiter := some w }) := by
    refine ⟨now_updateCall .., by simp, ?_⟩
    rintro j x ⟨inner, found, unread, waits⟩
    have differ : j ≠ i := by
      rintro rfl
      obtain rfl : d = inner := Option.some.inj (here.symm.trans found)
      simp [nobody] at waits
    exact ⟨inner, (call?_updateCall_of_ne e differ _).trans found, unread, waits⟩
  refine ⟨⟨ordered.orderly.deskwork (deskwork_of_slot fun _ => rfl), ?_⟩, same⟩
  intro j b other found
  rw [call?_updateCall] at found
  split at found
  · next self =>
      obtain ⟨before, known, rfl⟩ := Option.map_eq_some_iff.mp found
      have kept := (ordered.kept j before other known).mono same (tale_updateCall ..)
      constructor
      case sound => exact kept.sound.congr rfl rfl rfl rfl
      case told => exact ⟨kept.told.work, kept.told.late⟩
      case resolution => exact kept.resolution
      case tended => exact kept.tended
  · exact (ordered.kept j b other found).mono same (tale_updateCall ..)

/-- In a turn of a call, its code makes a call and waits for the verdict. -/
theorem Acting.execute (acting : e.Acting r k c t busy) {spec : CallSpec Script} {i : CallKey}
    (made : e.execute spec = (e', .ok i)) (stage : Stage) :
    (e'.updateCall i fun c => { c with waiter := some (k, stage) }).Acting r k c t busy ∧
      (e'.updateCall i fun c => { c with waiter := some (k, stage) }).Owes i (k, stage) := by
  obtain ⟨rest, grown, fresh, here⟩ := acting.rest.execute made
  have grew := acting.grow grown rest
  have differ : k ≠ i := by
    rintro rfl
    simp [acting.here] at fresh
  obtain ⟨rest, same⟩ := rest.await here rfl (k, stage)
  refine ⟨⟨rest, ?_, ?_, fun p free => (grew.tended p free).mono same⟩, ?_⟩
  · rw [call?_updateCall_of_ne _ differ, grew.here]
  · rw [tale_updateCall, grew.tale]
  · exact ⟨_, (call?_updateCall_self ..).trans (congrArg (Option.map _) here), rfl, rfl⟩

end Bulwark.Engine
