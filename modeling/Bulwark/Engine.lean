import Bulwark.Board
import Bulwark.Call
import Bulwark.Policy

/-!
The engine: commands in use, their calls, and the tasks that look after them.

A command is created when it is first used, under the settings that the policy
gives it then, and is never replaced. Tasks take turns: those that can go on
stand in a queue, first come, first served, and a turn lasts until the task has
to wait or is done.

A call resolves once. Whoever claims it reports to the circuit first, then runs
the fallback if there is one, reports how that went, and delivers the verdict
last.
-/

namespace Bulwark

structure Desk where
  settings : Settings
  pool : Pool
  /-- The handles of the pool that callers can name: the first, and its clones. -/
  handles : Nat := 1
  calls : List Call := []
  deriving Repr, Inhabited

/-- The next turn of a task. -/
inductive Turn where
  /-- The task of an awaited call makes the call. -/
  | launch (spec : CallSpec Script)
  | poll (call : CallKey) (part : Part)
  deriving Repr, Inhabited

/-- Where the verdict of a handle comes from. -/
inductive Source where
  /-- The task of an awaited call has not made the call yet. -/
  | pending
  | call (k : CallKey)
  /-- The call could not be set up. -/
  | failed (e : CallError)
  deriving DecidableEq, Repr, Inhabited

/-- What a caller holds of a call. -/
structure Handle where
  source : Source
  /-- The handle has given its verdict away. -/
  spent : Bool := false
  /-- The verdict was awaited by a task, which keeps it. -/
  awaited : Bool := false
  deriving DecidableEq, Repr, Inhabited

/-- Commands in use, with the tasks that look after their calls. -/
structure Engine where
  board : Board := {}
  policy : Policy := {}
  desks : Roster Desk := []
  queue : List Turn := []
  handles : Roster Handle := []
  /-- Tickets taken by hand, and the commands from whose pools they are. -/
  tickets : Roster Name := []
  deriving Repr, Inhabited

inductive Progress where
  | succeeded
  | failed (fault : Fault)
  | waits (wait : Wait)
  deriving Repr, Inhabited

def panicMessage (message : Option String) : String :=
  message.getD "<non-string panic payload>"

/-- A panic of the code of a stage is an error like any other. -/
def panicFault (stage : Stage) (message : Option String) : Fault :=
  .plain { message := stage.label ++ " panicked: " ++ panicMessage message }

theorem panicFault_operation (message : Option String) :
    panicFault .operation message = .plain {
      message := "operation panicked: " ++ message.getD "<non-string panic payload>"
      sources := [] } := by
  have words : Stage.operation.label ++ " panicked: " = "operation panicked: " := by decide
  rw [panicFault, words, panicMessage]

theorem panicFault_fallback (message : Option String) :
    panicFault .fallback message = .plain {
      message := "fallback panicked: " ++ message.getD "<non-string panic payload>"
      sources := [] } := by
  have words : Stage.fallback.label ++ " panicked: " = "fallback panicked: " := by decide
  rw [panicFault, words, panicMessage]

namespace Engine

/-! ### Looking up and writing down -/

def now (e : Engine) : Instant := e.board.now

def note (e : Engine) (entry : Entry) : Engine := { e with board := e.board.note entry }

def remark (e : Engine) (command : Name) (r : Remark) : Engine := e.note (.remark command r)

def enqueue (e : Engine) (t : Turn) : Engine := { e with queue := e.queue ++ [t] }

def call? (e : Engine) (k : CallKey) : Option Call :=
  (e.desks.get? k.command).bind (·.calls[k.number]?)

def updateDesk (e : Engine) (command : Name) (f : Desk → Desk) : Engine :=
  match e.desks.get? command with
  | none => e
  | some desk => { e with desks := e.desks.put command (f desk) }

def updateCall (e : Engine) (k : CallKey) (f : Call → Call) : Engine :=
  e.updateDesk k.command fun desk => { desk with calls := desk.calls.modify k.number f }

/-! ### Setting up -/

/-- Creates a command unless it is in use, and says what is wrong with its
settings if that cannot be done. -/
def create (e : Engine) (command : Name) : Engine × Option Defect :=
  match e.desks.get? command with
  | some _ => (e, none)
  | none =>
    let settings := e.policy.settings command
    match settings.defect? with
    | some defect => (e, some defect)
    | none =>
      let desk : Desk := { settings := settings, pool := .full settings.maxConcurrent }
      let board := e.board.putCircuit command (.make settings e.now)
      (({ e with desks := e.desks.put command desk, board := board }).remark command .created, none)

/-- Makes a call: both its tasks are queued, the worker's first. Without a
runtime, or without usable settings, nothing is started. -/
def execute (e : Engine) (spec : CallSpec Script) : Engine × Except CallError CallKey :=
  match spec.mode with
  | .offRuntime => (e, .error .noRuntime)
  | _ =>
    match e.create spec.command with
    | (e, some defect) => (e, .error (.config defect))
    | (e, none) =>
      let number := ((e.desks.get? spec.command).map (·.calls.length)).getD 0
      let k : CallKey := ⟨spec.command, number⟩
      let made := e.updateDesk spec.command fun desk =>
        { desk with calls := desk.calls ++ [.make spec e.now] }
      let started := made.note (.issued k spec.id spec.fallback.isSome)
      ((started.enqueue (.poll k (.code .operation))).enqueue (.poll k .watch), .ok k)

/-! ### Reporting and delivering -/

def report (e : Engine) (k : CallKey) (outcome : Outcome) (took : Duration) : Engine :=
  match e.call? k with
  | none => e
  | some c =>
    { e with board := e.board.report Board.bell (some k) k.command ⟨outcome, c.start, took⟩ }

/-- Gives code that waits its turn, and a script to go on with. -/
def wake (e : Engine) (k : CallKey) (stage : Stage) (next : Script) : Engine :=
  (e.updateCall k (·.setWait stage (.turn next))).enqueue (.poll k (.code stage))

/-- Delivers the verdict of a call, and wakes the code that waits for it. -/
def deliver (e : Engine) (k : CallKey) (verdict : Verdict) : Engine :=
  match e.call? k with
  | none => e
  | some c =>
    let delivered :=
      (e.updateCall k fun c => { c with verdict := some verdict }).note (.resolved k verdict)
    match c.waiter with
    | none => delivered
    | some (outer, stage) => delivered.wake outer stage (.ofVerdict verdict)

/-- Notes how far an operation has come. -/
def mark (e : Engine) (k : CallKey) (stage : Stage) (m : Mark) : Engine :=
  match stage, e.call? k with
  | .operation, some c => e.note (.operation k c.id m)
  | _, _ => e

/-- The code that waits to be told how to go on, under the id of its call. -/
def manual? (e : Engine) (id : String) : Option (CallKey × Stage) :=
  e.desks.findSome? fun (command, desk) =>
    desk.calls.zipIdx.findSome? fun (c, number) =>
      if c.id = id then
        [Stage.operation, Stage.fallback].findSome? fun stage =>
          if c.isManual stage then some (⟨command, number⟩, stage) else none
      else none

/-- Tells the code that waits for it how to go on. The answer says whether there
was any. -/
def instruct (e : Engine) (id : String) (next : Script) : Engine × Bool :=
  match e.manual? id with
  | none => (e, false)
  | some (k, stage) => (e.wake k stage next, true)

/-- Makes room for code that is to be told under the id of a call how to go on:
code that waits under the same id is told to succeed. -/
def clearManual (e : Engine) (k : CallKey) : Engine :=
  match e.call? k with
  | none => e
  | some c => (e.instruct c.id .succeed).1

/-- Lets the code of a stage go on until it waits or ends. -/
def play (e : Engine) (k : CallKey) (stage : Stage) (s : Script) : Engine × Progress :=
  match s with
  | .succeed => (e.mark k stage .succeeded, .succeeded)
  | .fail fault => (e.mark k stage .failed, .failed fault)
  | .panic message =>
      (e.remark k.command (.panicCaught stage (panicMessage message)),
        .failed (panicFault stage message))
  | .after d next => (e, .waits (.timer (e.now.due d) next))
  | .manual => (e.clearManual k, .waits .manual)
  | .nested spec =>
    match e.execute spec with
    | (e, .ok inner) =>
        (e.updateCall inner fun c => { c with waiter := some (k, stage) }, .waits (.call inner))
    | (e, .error error) => (e.mark k stage .failed, .failed (.call error))

/-! ### The fallback -/

def endRescue (e : Engine) (k : CallKey) (outcome : Outcome) (took : Duration)
    (verdict : Verdict) : Engine :=
  let ended := e.updateCall k fun c => { c with rescue := .none }
  (ended.report k outcome took).deliver k verdict

def playRescue (e : Engine) (k : CallKey) (cause : CallError) (took : Duration) (s : Script) :
    Engine :=
  match e.play k .fallback s with
  | (e, .waits wait) => e.updateCall k fun c => { c with rescue := .running cause took wait }
  | (e, .succeeded) => (e.note (.ended k .fallback none)).endRescue k .fallbackSuccess took .ok
  | (e, .failed fault) =>
      (e.note (.ended k .fallback (some fault))).endRescue k .fallbackFailure took
        (.error (.fallback fault cause))

/-- Resolves a call that went wrong: through its fallback if it has one. -/
def resolve (e : Engine) (k : CallKey) (cause : CallError) (took : Duration) : Engine :=
  match e.call? k with
  | none => e
  | some c =>
    match c.rescue with
    | .unused fallback =>
        ((e.updateCall k fun c => { c with rescue := .none }).note
          (.fallback k c.id cause)).playRescue k cause took fallback
    | _ => e.deliver k (.error cause)

/-! ### The worker -/

/-- The worker is done: a watch that waits for it gets a turn. -/
def dismiss (e : Engine) (k : CallKey) : Engine :=
  match e.call? k with
  | none => e
  | some c =>
    match c.watch with
    | .armed _ =>
        (e.updateCall k fun c => { c with work := .done, watch := .dismissed }).enqueue
          (.poll k .watch)
    | _ => e.updateCall k fun c => { c with work := .done }

/-- Claims a call. The answer says whether nobody had. -/
def claim (e : Engine) (k : CallKey) : Engine × Bool :=
  match e.call? k with
  | none => (e, false)
  | some c =>
    if c.claimed then (e, false)
    else (e.updateCall k fun c => { c with claimed := true }, true)

/-- A call that is not let through is resolved at once, unless it is claimed. -/
def turnAway (e : Engine) (k : CallKey) (r : Remark) (outcome : Outcome) (cause : CallError) :
    Engine :=
  match (e.dismiss k).claim k with
  | (e, false) => e
  | (e, true) => ((e.remark k.command r).report k outcome .zero).resolve k cause .zero

/-- The operation of a call ended after running for some time. -/
def endOperation (e : Engine) (k : CallKey) (took : Duration) (fault : Option Fault) : Engine :=
  match ((e.note (.ended k .operation fault)).dismiss k).claim k, fault with
  | (e, true), none => (e.report k .success took).deliver k .ok
  | (e, true), some fault => (e.report k .failure took).resolve k (.operation fault) took
  | (e, false), none => e
  | (e, false), some fault => e.remark k.command (.lateFailure fault)

def playOperation (e : Engine) (k : CallKey) (since : Instant) (s : Script) : Engine :=
  match e.play k .operation s with
  | (e, .waits wait) => e.updateCall k fun c => { c with work := .running since wait }
  | (e, .succeeded) => e.endOperation k (since.elapsed e.now) none
  | (e, .failed fault) => e.endOperation k (since.elapsed e.now) (some fault)

def ask (e : Engine) (k : CallKey) : Engine × Bool :=
  let (board, answer) := e.board.allow Board.bell (some k) k.command
  ({ e with board := board }, answer)

/-- The worker goes on after the circuit has answered: let through, it takes a
ticket and starts the operation. -/
def enter (e : Engine) (k : CallKey) (answer : Bool) (operation : Script) : Engine :=
  if answer then
    match e.call? k, e.desks.get? k.command with
    | some c, some desk =>
      match c.slot with
      | .shut => e.dismiss k
      | _ =>
        match desk.pool.acquire? with
        | none => e.turnAway k .rejected .rejected .maxConcurrency
        | some pool =>
          let seated := e.updateDesk k.command fun desk => { desk with pool := pool }
          ((seated.updateCall k fun c => { c with slot := .holding }).mark k .operation
            .started).playOperation k e.now operation
    | _, _ => e
  else e.turnAway k .shortCircuited .shortCircuited .circuitOpen

/-- The first turn of the worker. A call that the watch has claimed meanwhile is
left alone. -/
def start (e : Engine) (k : CallKey) (operation : Script) : Engine :=
  match e.call? k with
  | none => e
  | some c =>
    if c.claimed then e.dismiss k
    else let (e, answer) := e.ask k; e.enter k answer operation

/-- The worker asks the circuit and is held up before it goes on. -/
def hold (e : Engine) (k : CallKey) (operation : Script) : Engine :=
  let (e, answer) := e.ask k
  e.updateCall k fun c => { c with work := .asked answer operation }

def goOn (e : Engine) (k : CallKey) : Engine :=
  match e.call? k with
  | none => e
  | some c =>
    match c.work with
    | .asked answer operation => e.enter k answer operation
    | _ => e

/-! ### The watch -/

/-- Gives back the ticket of a call, if it holds one, and keeps it from taking
one later. -/
def vacate (e : Engine) (k : CallKey) : Engine :=
  match e.call? k with
  | none => e
  | some c =>
    let shut := e.updateCall k fun c => { c with slot := .shut, watch := .done }
    match c.slot with
    | .holding => shut.updateDesk k.command fun desk => { desk with pool := desk.pool.release }
    | _ => shut

/-- The time of a call is up. -/
def expire (e : Engine) (k : CallKey) : Engine :=
  match (e.vacate k).claim k with
  | (e, false) => e
  | (e, true) =>
    let timeout := ((e.desks.get? k.command).map (·.settings.timeout)).getD .zero
    ((e.remark k.command (.deadlineExceeded timeout)).report k .timeout .zero).resolve k .timeout
      .zero

def pollWatch (e : Engine) (k : CallKey) : Engine :=
  match e.call? k, e.desks.get? k.command with
  | some c, some desk =>
    match c.watch with
    | .queued =>
        if c.isWorkDone then e.vacate k
        else e.updateCall k fun c =>
          { c with watch := .armed (e.now.due desk.settings.timeout) }
    | .dismissed => e.vacate k
    | .expired => e.expire k
    | _ => e
  | _, _ => e

/-! ### Turns -/

def pollCode (e : Engine) (k : CallKey) (stage : Stage) : Engine :=
  match e.call? k with
  | none => e
  | some c =>
    match stage, c.work, c.rescue with
    | .operation, .queued operation, _ => e.start k operation
    | .operation, .running since (.turn next), _ => e.playOperation k since next
    | .fallback, _, .running cause took (.turn next) => e.playRescue k cause took next
    | _, _, _ => e

def launch (e : Engine) (spec : CallSpec Script) : Engine :=
  let (after, made) := e.execute spec
  let source := match made with
    | .ok k => Source.call k
    | .error error => Source.failed error
  { after with handles := after.handles.put spec.id { source := source, awaited := true } }

def take (e : Engine) : Turn → Engine
  | .launch spec => e.launch spec
  | .poll k .watch => e.pollWatch k
  | .poll k (.code stage) => e.pollCode k stage

end Engine

end Bulwark
