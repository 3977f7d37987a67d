import Bulwark.Hook

/-!
The board: the circuits of all commands under one clock.

Requests reach a circuit through the board. The board writes the journal and
calls the hooks, and hooks may make further requests, of which those may call
hooks again. This ends because actions are done only on three levels: a hook
called while three hooks are doing their actions is noted but does nothing.

Within a request the circuit changes first; the journal and the hook of the
change come next, and the hook of a report last.
-/

namespace Bulwark

/-- Circuits under one clock, with their hooks and the journal. The journal
stands newest first. -/
structure Board where
  now : Instant := .origin
  circuits : Roster Circuit := []
  hooks : Hooks := {}
  journal : List Note := []
  deriving Repr, Inhabited

/-- What calls the hook of an occasion for a command, with the report if there
is one. -/
abbrev Ring := Occasion → Name → Option Report → Board → Board

namespace Board

def note (b : Board) (e : Entry) : Board := { b with journal := ⟨b.now, e⟩ :: b.journal }

def putCircuit (b : Board) (name : Name) (c : Circuit) : Board :=
  { b with circuits := b.circuits.put name c }

/-- Tells the news of a circuit, and calls the hook of a change. -/
def tell (ring : Ring) (name : Name) (news : Option News) (b : Board) : Board :=
  match news with
  | none => b
  | some .rearmed => b.note (.remark name (.told .rearmed))
  | some (.shifted shift) =>
      ring (.entered shift.target) name none (b.note (.remark name (.told (.shifted shift))))

def take (ring : Ring) (name : Name) (step : Circuit.Step) (b : Board) : Board :=
  tell ring name step.news (b.putCircuit name step.circuit)

/-- Asks a circuit to let a request through. A command without a circuit lets
nothing through. -/
def allow (ring : Ring) (caller : Option CallKey) (name : Name) (b : Board) : Board × Bool :=
  match b.circuits.get? name with
  | none => (b, false)
  | some c =>
    let step := c.allow b.now
    (take ring name step (b.note (.asked name caller c.state step.answer)), step.answer)

/-- Asks a circuit a number of times, and counts how often it lets a request
through. -/
def allowMany (ring : Ring) (name : Name) : Nat → Board → Board × Nat
  | 0, b => (b, 0)
  | n + 1, b =>
    let (after, answer) := allow ring none name b
    let (last, count) := allowMany ring name n after
    (last, if answer then count + 1 else count)

/-- Reports an outcome to a circuit: it records the outcome and lets it decide a
half-open circuit, then the hook of the report is called. -/
def report (ring : Ring) (caller : Option CallKey) (name : Name) (r : Report) (b : Board) : Board :=
  match b.circuits.get? name with
  | none => b
  | some c =>
    let step := c.absorb r.outcome b.now
    ring .reported name (some r) (take ring name step (b.note (.recorded name caller r)))

def reportMany (ring : Ring) (name : Name) (r : Report) : Nat → Board → Board
  | 0, b => b
  | n + 1, b => reportMany ring name r n (report ring none name r b)

def serve (ring : Ring) (name : Name) (request : Request) (b : Board) : Board × Reply :=
  match b.circuits.get? name with
  | none => (b, .refused)
  | some c =>
    match request with
    | .allow => let (after, answer) := allow ring none name b; (after, .yes answer)
    | .isOpen => let step := c.isOpen b.now; (take ring name step b, .yes step.answer)
    | .state => (b, .state c.state)
    | .tally =>
        (b.putCircuit name { c with window := c.window.prune b.now }, .tally (c.window.tally b.now))
    | .forceOpen => let step := c.forceOpen b.now; (take ring name step b, .yes step.answer)
    | .forceClosed => let step := c.forceClosed b.now; (take ring name step b, .yes step.answer)
    | .name => (b, .text name)
    | .describe => (b, .text (c.describe name))
    | .report outcome times took start =>
        (reportMany ring name ⟨outcome, start.getD b.now, took⟩ times b, .done)
    | .allowMany askers =>
        let (after, count) := allowMany ring name askers b; (after, .count count)

def setHook (b : Board) (occasion : Occasion) (hook : Hook) : Board :=
  { b with hooks := b.hooks.put occasion hook }

/-- Does one action of a hook that was called for a command, and notes what it
answered. -/
def act (ring : Ring) (name : Name) (b : Board) (action : Action) : Board :=
  let (after, reply) :=
    match action with
    | .request _ r => serve ring name r b
    | .set _ occasion label actions => (b.setHook occasion ⟨label, actions⟩, .done)
    | .unclear _ => (b, .refused)
  after.note (.action name action.text reply)

/-- Calls the hook of an occasion. The level says on how many further levels
hooks do their actions. -/
def ring : Nat → Ring
  | level, occasion, name, report, b =>
    match b.hooks.get? occasion with
    | none => b
    | some hook =>
      let noted := b.note (.hook hook.label name report)
      match level with
      | 0 => noted
      | below + 1 => hook.actions.foldl (act (ring below) name) noted

/-- Calls hooks, with actions on three levels. -/
def bell : Ring := ring 3

def advance (b : Board) (d : Duration) : Board := { b with now := b.now.later d }

inductive Move where
  | advance (d : Duration)
  | setHook (occasion : Occasion) (hook : Hook)
  | request (name : Name) (r : Request)
  deriving Repr, Inhabited

def move (b : Board) : Move → Board × Reply
  | .advance d => (b.advance d, .done)
  | .setHook occasion hook => (b.setHook occasion hook, .done)
  | .request name r => serve bell name r b

def run (b : Board) (moves : List Move) : Board := moves.foldl (fun b m => (b.move m).1) b

/-- What the callers see of the journal from a number of notes on, in order. -/
def entriesSince (b : Board) (seen : Nat) : List Entry :=
  ((b.journal.take (b.journal.length - seen)).reverse.map (·.entry)).filter (·.isPublic)

/-- The log lines of the journal from a number of notes on, in order. -/
def linesSince (b : Board) (seen : Nat) : List Line :=
  (b.journal.take (b.journal.length - seen)).reverse.filterMap (·.entry.line?)

end Board

end Bulwark
