import Bulwark.Proofs.Padded

/-!
One circuit under hooks that do no actions.

Where hooks do no actions, a request is a list of deeds (`Request.deeds`), done to the
circuit one after another, and its answer is a matter of the circuit alone
(`Circuit.reply`). So a board with one circuit is told by that circuit and the time
(`Board.Lone`), and what is known of two circuits that undergo the same deeds is known of
two boards that make the same moves (`Board.Paired`).

* `Board.Lone.serve`, `Board.Lone.reply`: what a request does, and what it is answered.
* `Board.Paired.move`: a relation of circuits that every deed keeps is kept by every move.
-/

namespace Bulwark

def Request.deeds (now : Instant) : Request → List Circuit.Deed
  | .allow => [.ask none]
  | .isOpen => [.look]
  | .tally => [.read]
  | .forceOpen => [.forceOpen]
  | .forceClosed => [.forceClosed]
  | .report o times took start => .replicate times (.absorb none ⟨o, start.getD now, took⟩)
  | .allowMany askers => .replicate askers (.ask none)
  | .state | .name | .describe => []

namespace Circuit

def undergoAll (now : Instant) (c : Circuit) (deeds : List Deed) : Circuit :=
  deeds.foldl (fun c d => (c.undergo now d).circuit) c

def admitted (now : Instant) : Nat → Circuit → Nat
  | 0, _ => 0
  | askers + 1, c =>
    let count := admitted now askers (c.allow now).circuit
    if (c.allow now).answer then count + 1 else count

def reply (n : Name) (now : Instant) (c : Circuit) : Request → Reply
  | .allow => .yes (c.allow now).answer
  | .isOpen => .yes (c.isOpen now).answer
  | .state => .state c.state
  | .tally => .tally (c.window.tally now)
  | .forceOpen => .yes (c.forceOpen now).answer
  | .forceClosed => .yes (c.forceClosed now).answer
  | .name => .text n
  | .describe => .text (c.describe n)
  | .report _ _ _ _ => .done
  | .allowMany askers => .count (c.admitted now askers)

end Circuit

namespace Board

/-! ### One board -/

/-- A board with one circuit, under hooks that do no actions. -/
structure Lone (n : Name) (now : Instant) (c : Circuit) (b : Board) : Prop where
  now : b.now = now
  silent : b.hooks.Silent
  only : ∀ m, m ≠ n → b.circuits.get? m = none
  found : b.circuits.get? n = some c

namespace Lone

variable {n : Name} {now : Instant} {c e : Circuit} {b b' : Board}

/-- The circuit changes, and the journal goes on. -/
theorem put (lone : Lone n now c b) (retold : Retold (b.putCircuit n e) b') :
    Lone n now e b' where
  now := retold.now.trans lone.now
  silent := retold.hooks ▸ lone.silent
  only m other := by
    rw [retold.circuits]
    exact (Roster.get?_put_of_ne _ _ (Ne.symm other)).trans (lone.only m other)
  found := by
    rw [retold.circuits]
    exact Roster.get?_put_self _ _ _

theorem allow (lone : Lone n now c b) (caller : Option CallKey) :
    Lone n now (c.allow now).circuit (allow bell caller n b).1 := by
  obtain rfl := lone.now
  exact lone.put (retold_allow lone.silent lone.found caller)

/-- Without hooks, of those who ask at once as many are admitted as the circuit alone admits. -/
theorem allowMany (lone : Lone n now c b) (askers : Nat) :
    Lone n now (c.undergoAll now (.replicate askers (.ask none))) (allowMany bell n askers b).1 ∧
      (Board.allowMany bell n askers b).2 = c.admitted now askers := by
  induction askers generalizing b c with
  | zero => exact ⟨lone, rfl⟩
  | succ askers ih =>
      obtain ⟨last, count⟩ := ih (lone.allow none)
      have answer : (Board.allow bell none n b).2 = (c.allow now).answer := by
        simp only [Board.allow, lone.found, lone.now]
      refine ⟨last, ?_⟩
      simp only [Board.allowMany, Circuit.admitted, answer, count]

theorem report (lone : Lone n now c b) (caller : Option CallKey) (r : Report) :
    Lone n now (c.absorb r.outcome now).circuit (report bell caller n r b) := by
  obtain rfl := lone.now
  exact lone.put (retold_report lone.silent lone.found caller r)

theorem reportMany (lone : Lone n now c b) (r : Report) (times : Nat) :
    Lone n now (c.undergoAll now (.replicate times (.absorb none r)))
      (reportMany bell n r times b) := by
  induction times generalizing b c with
  | zero => exact lone
  | succ times ih => exact ih (lone.report none r)

/-- A request does its deeds to the circuit, one after another. -/
theorem serve (lone : Lone n now c b) (r : Request) :
    Lone n now (c.undergoAll now (r.deeds now)) (serve bell n r b).1 := by
  have taken : ∀ step, Lone n now step.circuit (take bell n step b) :=
    fun step => lone.put (retold_take lone.silent n step)
  simp only [Board.serve, lone.found, lone.now]
  cases r with
  | allow => exact lone.allow none
  | isOpen => exact taken (c.isOpen now)
  | state | name | describe => exact lone
  | tally => exact lone.put (.refl _)
  | forceOpen => exact taken (c.forceOpen now)
  | forceClosed => exact taken (c.forceClosed now)
  | report o times took start => exact lone.reportMany ⟨o, start.getD now, took⟩ times
  | allowMany askers => exact (lone.allowMany askers).1

/-- The answer to a request is a matter of the circuit alone. -/
theorem reply (lone : Lone n now c b) (r : Request) :
    (Board.serve bell n r b).2 = c.reply n now r := by
  cases r with
  | allowMany askers =>
      simp only [Board.serve, lone.found]
      exact congrArg Reply.count (lone.allowMany askers).2
  | _ => simp only [Board.serve, Board.allow, lone.found, lone.now, Circuit.reply]

end Lone

/-- A fresh board has its circuit and nothing else. -/
theorem lone_fresh (n : Name) (s : Settings) {hooks : Hooks} (silent : hooks.Silent)
    (start : Instant) : Lone n start (.make s start) (fresh n s hooks start) where
  now := rfl
  silent := silent
  only _ other := (Roster.get?_put_of_ne _ _ (Ne.symm other)).trans rfl
  found := Roster.get?_put_self _ _ _

/-! ### Two boards -/

/-- Two boards with one circuit each under one clock, whose circuits are related. -/
def Paired (n : Name) (related : Circuit → Circuit → Prop) (x y : Board) : Prop :=
  ∃ now c e, Lone n now c x ∧ Lone n now e y ∧ related c e

namespace Paired

variable {n : Name} {related : Circuit → Circuit → Prop} {x y : Board}

/-- A relation that every deed keeps is kept by a request. -/
theorem serve (paired : Paired n related x y)
    (kept : ∀ now d c e, related c e → related (c.undergo now d).circuit (e.undergo now d).circuit)
    (k : Name) (r : Request) : Paired n related (serve bell k r x).1 (serve bell k r y).1 := by
  obtain ⟨now, c, e, left, right, same⟩ := paired
  by_cases other : k = n
  case neg =>
    simp only [Board.serve, left.only k other, right.only k other]
    exact ⟨now, c, e, left, right, same⟩
  subst other
  refine ⟨now, _, _, left.serve r, right.serve r, ?_⟩
  clear left right
  induction r.deeds now generalizing c e with
  | nil => exact same
  | cons d rest ih => exact ih _ _ (kept now d c e same)

theorem move (paired : Paired n related x y)
    (kept : ∀ now d c e, related c e → related (c.undergo now d).circuit (e.undergo now d).circuit)
    {m : Move} (tame : m.Tame) : Paired n related (x.move m).1 (y.move m).1 := by
  cases m with
  | advance d =>
      obtain ⟨now, c, e, left, right, same⟩ := paired
      refine ⟨now.later d, c, e, ?_, ?_, same⟩
      · exact { left with now := congrArg (·.later d) left.now }
      · exact { right with now := congrArg (·.later d) right.now }
  | setHook o hook =>
      obtain ⟨now, c, e, left, right, same⟩ := paired
      have idle := tame o hook rfl
      refine ⟨now, c, e, ?_, ?_, same⟩
      · exact { left with silent := left.silent.put o idle }
      · exact { right with silent := right.silent.put o idle }
  | request k r => exact paired.serve kept k r

/-- Related circuits that answer alike do so on their boards. -/
theorem replies (paired : Paired n related x y) {m : Move}
    (alike : ∀ k r now c e, m = .request k r → related c e → c.reply n now r = e.reply n now r) :
    (x.move m).2 = (y.move m).2 := by
  obtain ⟨now, c, e, left, right, same⟩ := paired
  cases m with
  | advance d => rfl
  | setHook o hook => rfl
  | request k r =>
      by_cases other : k = n
      case neg => simp only [Board.move, Board.serve, left.only k other, right.only k other]
      subst other
      simp only [Board.move, left.reply, right.reply]
      exact alike k r now c e rfl same

end Paired

end Board

end Bulwark
