import Bulwark.Engine.Run
import Bulwark.Engine.View

/-!
Schedules: what callers do with an engine, step by step.

A schedule is a list of steps. After each step every task that can go on does,
until all of them wait for the time or to be told how to go on. A step that
makes no sense where it stands is refused and changes nothing.

A caller reads the verdict of a call from its handle. A poll asks without
waiting: once it has given the verdict away, later polls say `ok`. Waiting for
the verdict takes the handle, and it is a misuse if a poll had given the verdict
away before. The verdict of an awaited call stays with the task that awaited it,
and every poll shows it.
-/

namespace Bulwark

inductive Step where
  | call (spec : CallSpec Script)
  /-- Makes several calls before anything runs. -/
  | calls (specs : List (CallSpec Script))
  | advance (d : Duration)
  /-- Tells code that waits for it how to go on. -/
  | finish (id : String) (next : Script)
  | poll (id : String)
  /-- Waits for the verdict, as far as that is possible without waiting. -/
  | await (id : String)
  | drop (id : String)
  | change (c : Policy.Change)
  | settings (command : Name)
  /-- Asks the circuit of a command, which is created first, even if what is
  asked cannot be understood. -/
  | circuit (command : Name) (request : Option Request)
  | create (command : Name)
  | get (command : Name)
  | describeCommand (command : Name)
  /-- Asks the pool of a command through one of its handles. -/
  | pool (command : Name) (handle : Nat) (request : Option PoolRequest)
  /-- Makes a further handle of the pool of a command. -/
  | clonePool (command : Name)
  /-- Several callers at once create a command. -/
  | createMany (command : Name) (callers : Nat)
  | names
  | describe
  /-- Goes on with a clone, which shares everything. -/
  | clone
  | setHook (occasion : Occasion) (hook : Hook)
  deriving Repr, Inhabited

inductive Answer where
  | started
  | done
  | refused
  | nothing
  | yes (b : Bool)
  | verdict (v : Verdict)
  /-- The handle had given its verdict away. -/
  | misused
  | settings (s : Settings)
  | created (v : View)
  | defective (d : Defect)
  | command (v : View)
  | circuit (r : Reply)
  | pool (r : PoolReply) (p : Pool)
  /-- A new handle, by its number. -/
  | handle (number : Nat)
  /-- How many succeeded, all of them with the same command. -/
  | raced (succeeded : Nat)
  | names (sorted : List Name)
  | text (s : String)
  deriving DecidableEq, Repr, Inhabited

namespace Engine

def verdict? (e : Engine) (h : Handle) : Option Verdict :=
  match h.source with
  | .pending => none
  | .failed error => some (.error error)
  | .call k => (e.call? k).bind (·.verdict)

/-- Starts a call under an id that is not in use. -/
def startCall (e : Engine) (spec : CallSpec Script) : Engine :=
  match spec.mode with
  | .awaited =>
      { e with handles := e.handles.put spec.id { source := .pending, awaited := true } }.enqueue
        (.launch spec)
  | _ =>
      let (after, made) := e.execute spec
      let source := match made with
        | .ok k => Source.call k
        | .error error => Source.failed error
      { after with handles := after.handles.put spec.id { source := source } }

def pollHandle (e : Engine) (id : String) : Engine × Answer :=
  match e.handles.get? id with
  | none => (e, .refused)
  | some h =>
    if h.spent then (e, .verdict .ok)
    else match e.verdict? h with
      | none => (e, .nothing)
      | some v =>
        if h.awaited then (e, .verdict v)
        else ({ e with handles := e.handles.put id { h with spent := true } }, .verdict v)

def awaitHandle (e : Engine) (id : String) : Engine × Answer :=
  match e.handles.get? id with
  | none => (e, .refused)
  | some h =>
    let gone := { e with handles := e.handles.erase id }
    if h.awaited then (gone, .refused)
    else if h.spent then (gone, .misused)
    else match e.verdict? h with
      | none => (e, .nothing)
      | some v => (gone, .verdict v)

def dropHandle (e : Engine) (id : String) : Engine × Answer :=
  match e.handles.get? id with
  | none => (e, .refused)
  | some _ => ({ e with handles := e.handles.erase id }, .done)

/-- Asks the circuit of a command, which is created first. -/
def askCircuit (e : Engine) (command : Name) (request : Option Request) : Engine × Answer :=
  match e.create command, request with
  | (e, some defect), _ => (e, .verdict (.error (.config defect)))
  | (e, none), none => (e, .refused)
  | (e, none), some request =>
      let (board, reply) := e.board.serve Board.bell command request
      ({ e with board := board }, .circuit reply)

/-- Serves a request to the pool of a command by hand, through a handle that
exists. Tickets are known by name across all commands, and a ticket goes back to
the pool it came from. -/
def servePool (e : Engine) (command : Name) (handle : Nat) (request : Option PoolRequest) :
    Engine × Answer :=
  match e.desks.get? command, request with
  | none, _ => (e, .nothing)
  | some _, none => (e, .refused)
  | some desk, some request =>
    if desk.handles ≤ handle then (e, .refused) else
    let answer (e : Engine) (r : PoolReply) : Engine × Answer :=
      (e, .pool r (((e.desks.get? command).map (·.pool)).getD desk.pool))
    match request with
    | .acquire ticket =>
        if e.tickets.has ticket then (e, .refused)
        else match desk.pool.acquire? with
          | none => answer e (.yes false)
          | some pool =>
              answer { e.updateDesk command fun desk => { desk with pool := pool } with
                tickets := e.tickets.put ticket command } (.yes true)
    | .release ticket =>
        match e.tickets.get? ticket with
        | none => answer e (.yes false)
        | some origin =>
            answer { e.updateDesk origin fun desk => { desk with pool := desk.pool.release } with
              tickets := e.tickets.erase ticket } (.yes true)
    | .race takers => answer e (.won (desk.pool.race takers))
    | .state => answer e .nothing
    | .describe => answer e (.text desk.pool.describe)

def clonePool (e : Engine) (command : Name) : Engine × Answer :=
  match e.desks.get? command with
  | none => (e, .nothing)
  | some desk =>
      (e.updateDesk command fun desk => { desk with handles := desk.handles + 1 },
        .handle desk.handles)

/-- Does a step, before anything goes on. -/
def begin (e : Engine) : Step → Engine × Answer
  | .call spec =>
      if e.handles.has spec.id then (e, .refused) else (e.startCall spec, .started)
  | .calls specs =>
      if specs.any (fun spec => e.handles.has spec.id) || !(specs.map (·.id)).Nodup then
        (e, .refused)
      else (specs.foldl startCall e, .started)
  | .advance d => (e.advance d, .done)
  | .finish id next =>
      match e.instruct id next with
      | (e, true) => (e, .yes true)
      | (e, false) => (e, .nothing)
  | .poll id => e.pollHandle id
  | .await id => e.awaitHandle id
  | .drop id => e.dropHandle id
  | .change c => ({ e with policy := e.policy.change c }, .done)
  | .settings command => (e, .settings (e.policy.settings command))
  | .circuit command request => e.askCircuit command request
  | .create command =>
      match e.create command with
      | (e, some defect) => (e, .defective defect)
      | (e, none) => (e, ((e.view? command).map .created).getD .nothing)
  | .get command => (e, ((e.view? command).map .command).getD .nothing)
  | .describeCommand command => (e, ((e.describeCommand? command).map .text).getD .nothing)
  | .pool command handle request => e.servePool command handle request
  | .clonePool command => e.clonePool command
  | .createMany command callers =>
      match callers, e.create command with
      | 0, _ => (e, .raced 0)
      | _, (e, some _) => (e, .raced 0)
      | n, (e, none) => (e, .raced n)
  | .names => (e, .names e.names)
  | .describe => (e, .text e.describe)
  | .clone => (e, .done)
  | .setHook occasion hook => ({ e with board := e.board.setHook occasion hook }, .done)

def step (e : Engine) (s : Step) : Engine × Answer :=
  let (begun, answer) := e.begin s
  (begun.rest, answer)

def run (e : Engine) (steps : List Step) : Engine :=
  steps.foldl (fun e s => (e.step s).1) e

/-- A new engine with given defaults, overrides and hooks. -/
def build (defaults : Overrides) (items : List (Name × Overrides)) (hooks : Hooks) : Engine where
  board := { hooks := hooks }
  policy := .build defaults items

end Engine

end Bulwark
