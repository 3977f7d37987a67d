import Bulwark.Proofs.Outcomes

/-!
The verdict of a call tells what the call reported.

A call delivers last, after all that it reported was recorded in the window of its
command and, where a hook listens to reports, after that hook was called with each
report (`Leads.heard_before_delivery`). The verdict is `ok` iff the call succeeded, itself
or through its fallback, and otherwise an error that can be told by the first
report: what kept the call from running, that its time was up, or what its
operation failed with, even if that is an error of another call.
-/

namespace Bulwark

/-- A verdict agrees with what a call reported, and with what its code failed with. -/
structure Tale.Delivers (t : Tale) (v : Verdict) : Prop where
  /-- The verdict is delivered once, after everything was reported. -/
  last : ∃ before, t.beats = before ++ [.delivered v] ∧ ∀ w, .delivered w ∉ before
  ok_iff : v = .ok ↔ t.events = [.success] ∨ t.events.getLast? = some .fallbackSuccess
  /-- An error is told by what was reported first. -/
  error : ∀ e, v = .error e → ∃ p, t.events.head? = some p ∧
    (e.isCircuitOpen = true ↔ p = .shortCircuited) ∧
    (e.isMaxConcurrency = true ↔ p = .rejected) ∧
    (e.isTimeout = true ↔ p = .timeout) ∧
    ((∃ fault, e.rootCause = .operation fault) ↔ p = .failure)
  /-- The error of the operation is the operation's own. -/
  own : ∀ e fault, v = .error e → e.rootCause = .operation fault → t.ends = [some fault]
  /-- A failed fallback is told by what was reported last. -/
  fallback_iff : ∀ e, v = .error e →
    (e.isFallbackFailure = true ↔ t.events.getLast? = some .fallbackFailure)
  /-- The error of a failed fallback holds what it failed with and what it was handed. -/
  both : ∀ e, v = .error e → e.isFallbackFailure = true → ∃ failed cause,
    e = .fallback failed cause ∧ .rescueEnded (some failed) ∈ t.beats ∧ .rescue cause ∈ t.beats

namespace Tale

variable {t : Tale}

/-- What a call can be blamed for is neither a success nor the outcome of a fallback. -/
theorem Cause.failed {o : Outcome} {cause : CallError} (blame : t.Cause o cause) :
    o ≠ .success ∧ o ≠ .fallbackSuccess ∧ o ≠ .fallbackFailure := by
  cases blame <;> simp

/-- The error that a first report stands for can be told by it. -/
theorem Cause.told {o : Outcome} {cause : CallError} (blame : t.Cause o cause) :
    ((cause.isCircuitOpen = true ↔ o = .shortCircuited) ∧
      (cause.isMaxConcurrency = true ↔ o = .rejected) ∧ (cause.isTimeout = true ↔ o = .timeout) ∧
      ((∃ fault, cause.rootCause = .operation fault) ↔ o = .failure)) ∧
    (∀ fault, cause.rootCause = .operation fault → t.ends = [some fault]) ∧
    cause.isFallbackFailure = false := by
  cases blame with
  | shortCircuited idle =>
      simp [CallError.isCircuitOpen, CallError.isMaxConcurrency, CallError.isTimeout,
        CallError.rootCause, CallError.isFallbackFailure]
  | rejected idle =>
      simp [CallError.isCircuitOpen, CallError.isMaxConcurrency, CallError.isTimeout,
        CallError.rootCause, CallError.isFallbackFailure]
  | timeout =>
      simp [CallError.isCircuitOpen, CallError.isMaxConcurrency, CallError.isTimeout,
        CallError.rootCause, CallError.isFallbackFailure]
  | failure ended =>
      simp [CallError.isCircuitOpen, CallError.isMaxConcurrency, CallError.isTimeout,
        CallError.rootCause, CallError.isFallbackFailure, ended]

end Tale

/-- A delivered verdict agrees with what was reported. -/
theorem Resolution.delivers {t : Tale} {claimed : Bool} {rescue : Rescue} {v : Verdict}
    (resolution : Resolution t claimed rescue (some v)) : t.Delivers v := by
  cases resolution with
  | @succeeded r _ fresh success ended beats =>
      have events : t.events = [.success] := by
        simp [Tale.events, beats, Beat.outcome?, success]
      exact ⟨⟨[.reported r], beats, by simp⟩, by simp [events], by simp, by simp, by simp, by simp⟩
  | @denied r cause blame unrescued beats =>
      obtain ⟨first, own, plain⟩ := blame.told
      have events : t.events = [r.outcome] := by simp [Tale.events, beats, Beat.outcome?]
      have failed := blame.failed
      refine ⟨⟨[.reported r], beats, by simp⟩, ?_, ?_, ?_, ?_, ?_⟩
      · simp [events, failed]
      · rintro e ⟨⟩
        exact ⟨r.outcome, by simp [events], first⟩
      · rintro e fault ⟨⟩ root
        exact own fault root
      · rintro e ⟨⟩
        simp [events, plain, failed]
      · rintro e ⟨⟩ fallback
        simp [plain] at fallback
  | @rescued r s cause blame rescuable success beats =>
      have events : t.events = [r.outcome, .fallbackSuccess] := by
        simp [Tale.events, beats, List.filterMap_cons, Beat.outcome?, success]
      refine ⟨⟨[.reported r, .rescue cause, .rescueEnded none, .reported s], beats, by simp⟩,
        by simp [events], by simp, by simp, by simp, by simp⟩
  | @lost r s cause fault blame rescuable failure beats =>
      obtain ⟨first, own, _⟩ := blame.told
      have events : t.events = [r.outcome, .fallbackFailure] := by
        simp [Tale.events, beats, List.filterMap_cons, Beat.outcome?, failure]
      refine ⟨⟨[.reported r, .rescue cause, .rescueEnded (some fault), .reported s], beats,
        by simp⟩, by simp [events], ?_, ?_, ?_, ?_⟩
      · rintro e ⟨⟩
        exact ⟨r.outcome, by simp [events], first⟩
      · rintro e f ⟨⟩ root
        exact own f root
      · rintro e ⟨⟩
        simp [events, CallError.isFallbackFailure]
      · rintro e ⟨⟩ _
        exact ⟨fault, cause, rfl, by simp [beats], by simp [beats]⟩

namespace Engine

variable {e e₀ : Engine} {k : CallKey} {c : Call}

/-! ### What the caller sees -/

/-- The first answer that a handle gives is the verdict of its call. -/
theorem poll_iff {id : String} {h : Handle} (held : e.handles.get? id = some h)
    (source : h.source = .call k) (unread : h.spent = false) (here : e.call? k = some c)
    (v : Verdict) : (e.pollHandle id).2 = .verdict v ↔ c.verdict = some v := by
  have seen : e.verdict? h = c.verdict := by simp [verdict?, source, here]
  simp only [pollHandle, held, unread, Bool.false_eq_true, if_false, seen]
  cases verdict : c.verdict with
  | none => simp
  | some w =>
      dsimp only
      split <;> simp

/-- To await a handle of one's own yields the verdict exactly when there is one. -/
theorem await_iff {id : String} {h : Handle} (held : e.handles.get? id = some h)
    (source : h.source = .call k) (unread : h.spent = false) (mine : h.awaited = false)
    (here : e.call? k = some c) (v : Verdict) :
    (e.awaitHandle id).2 = .verdict v ↔ c.verdict = some v := by
  have seen : e.verdict? h = c.verdict := by simp [verdict?, source, here]
  simp only [awaitHandle, held, unread, mine, Bool.false_eq_true, if_false, seen]
  cases verdict : c.verdict with
  | none => simp
  | some w => simp

/-! ### What hooks heard -/

/-- Where a hook listens to reports, it was called with every report of a call before
the verdict of that call was delivered. -/
theorem Leads.heard_before_delivery (run : Leads e₀ e)
    (listens : (e₀.board.hooks.get? .reported).isSome) {after between earlier : List Note}
    {delivered told : Instant} {v : Verdict} {r : Report}
    (journal : e.board.journal = after ++ ⟨delivered, .resolved k v⟩ :: between ++
      ⟨told, .recorded k.command (some k) r⟩ :: earlier)
    (since : e₀.board.journal <:+ earlier) :
    ∃ heard label, ⟨heard, .hook label k.command (some r)⟩ ∈ between := by
  obtain ⟨_, new, grown, echoed⟩ := run.heeded listens
  obtain ⟨rest, rfl⟩ := since
  have part : new = after ++ ⟨delivered, .resolved k v⟩ :: between ++
      ⟨told, .recorded k.command (some k) r⟩ :: rest := by
    have whole : new ++ e₀.board.journal = (after ++ ⟨delivered, .resolved k v⟩ :: between ++
        ⟨told, .recorded k.command (some k) r⟩ :: rest) ++ e₀.board.journal := by
      rw [← grown, journal]
      simp
    exact List.append_cancel_right whole
  obtain ⟨late, heard, label, early, split, silent⟩ := echoed _ told k r rest part
  rcases List.append_eq_append_iff.mp split with ⟨middle, _, here⟩ | ⟨middle, _, here⟩
  · cases middle with
    | nil => simp at here
    | cons n middle =>
        obtain ⟨_, rfl⟩ := List.cons.inj here
        exact ⟨heard, label, by simp⟩
  · cases middle with
    | nil => simp at here
    | cons n middle =>
        obtain ⟨_, rfl⟩ := List.cons.inj here
        exact absurd rfl (silent ⟨delivered, .resolved k v⟩ (by simp))

/-- What the caller of a call sees is what the call reported. -/
structure Faithful (e : Engine) (k : CallKey) (c : Call) : Prop where
  told : ∀ v, c.verdict = some v → (e.tale k).Delivers v
  /-- A handle of the call is ready iff the verdict is delivered, and shows it. -/
  shown : ∀ id h, e.handles.get? id = some h → h.source = .call k → h.spent = false →
    ∀ v, ((e.pollHandle id).2 = .verdict v ↔ c.verdict = some v) ∧
      (h.awaited = false → ((e.awaitHandle id).2 = .verdict v ↔ c.verdict = some v))
  /-- Every report of the call that the journal tells of was recorded in the window of
  the command when it was told. -/
  recorded : ∀ told n r earlier,
    ⟨told, .recorded n (some k) r⟩ :: earlier <:+ e.board.journal →
      n = k.command ∧ ∃ e₀, Reached e₀ ∧ Recorded e₀ e n (some k) r told earlier
  /-- A hook that listened to reports since some moment was called with every report
  of the call before the verdict was delivered. -/
  heard : ∀ e₀, Leads e₀ e → (e₀.board.hooks.get? .reported).isSome →
    ∀ after delivered v between told r earlier,
      e.board.journal = after ++ ⟨delivered, .resolved k v⟩ :: between ++
        ⟨told, .recorded k.command (some k) r⟩ :: earlier →
      e₀.board.journal <:+ earlier →
      ∃ heard label, ⟨heard, .hook label k.command (some r)⟩ ∈ between

/-- At every moment of every run, the caller of a call sees what the call reported. -/
theorem Reached.faithful (reached : e.Reached) (here : e.call? k = some c) :
    e.Faithful k c := by
  have kept := reached.ordered.kept k c (by simp) here
  constructor
  case told =>
    intro v delivered
    have resolution := kept.resolution
    rw [delivered] at resolution
    exact resolution.delivers
  case shown =>
    intro id h held source unread v
    exact ⟨poll_iff held source unread here v,
      fun mine => await_iff held source unread mine here v⟩
  case recorded =>
    intro told n r earlier past
    obtain ⟨defaults, items, hooks, run⟩ := reached
    obtain ⟨own, recorded⟩ := run.recorded List.nil_suffix past
    exact ⟨own, _, ⟨defaults, items, hooks, .refl⟩, recorded⟩
  case heard =>
    intro e₀ run listens after delivered v between told r earlier journal since
    exact run.heard_before_delivery listens journal since

/-- The time of a call is up that was made by the operation of another call, whose
fallback fails after that. -/
theorem faithful_of_nested :
    let e := (build {} [("inner", { timeout := some (.ofMillis 200) })]
      { reported := some ⟨"heard", []⟩ }).run [
        .call ⟨"a", "outer",
          .nested ⟨"b", "inner", .after (.ofMillis 900) .succeed, none, .detached⟩,
          some (.fail (.plain ⟨"worse", []⟩)), .detached⟩,
        .advance (.ofMillis 300)]
    ∃ c, e.call? ⟨"outer", 0⟩ = some c ∧ c.verdict =
        some (.error (.fallback (.plain ⟨"worse", []⟩) (.operation (.call .timeout)))) ∧
      e.Faithful ⟨"outer", 0⟩ c :=
  ⟨_, rfl, rfl, (reached_run ..).faithful rfl⟩

end Engine

end Bulwark
