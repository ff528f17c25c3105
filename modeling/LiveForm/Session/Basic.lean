import LiveForm.Form.Change
import LiveForm.Session.Task

/-!
# Sessions

A session lets time pass over a form. Tasks take turns: those that can go on stand in a queue, and a
round lets each that stands there at its start go on once. Time stands still while anybody stands in
the queue, and then jumps to the next instant at which something is due. A task that ends tells
those that listen to it, and what they hear comes in a later round.
-/

namespace LiveForm

/-- Who hears of the end of a task. -/
inductive Listener where
  /-- The form, which keeps the task in mind. -/
  | keeper (kept : Kept)
  /-- A task that waits for several. -/
  | gatherer (owner : Nat)
  /-- A task that waits for this one only. -/
  | follower (owner : Nat)

/-- What stands in the queue. -/
inductive Turn where
  /-- A task goes on with an answer. -/
  | resume (id : Nat) (answer : Answer)
  /-- The pause of a task is over. -/
  | wake (id : Nat) (answer : Answer)
  /-- A kept task has ended. -/
  | forget (kept : Kept) (id : Nat)
  /-- One of the tasks that another waits for has ended. -/
  | report (owner : Nat) (answer : Answer)
  /-- The time of the next save has come. -/
  | save

/-- The turn in which a listener hears of the end of a task. -/
def Listener.turn (id : Nat) (answer : Answer) : Listener → Turn
  | keeper kept => .forget kept id
  | gatherer owner => .report owner answer
  | follower owner => .resume owner answer

/-- What is left to wait for. -/
structure Gathering where
  left : Nat
  /-- All that ended so far passed. -/
  passed : Bool := true
  /-- Failures are waited through. -/
  tolerant : Bool

/-- A task that has not ended. -/
structure Live where
  task : Task
  listeners : List Listener := []
  gathering : Option Gathering := none

/-- The end of a pause. -/
structure Timer where
  due : Instant
  id : Nat
  answer : Answer

/-- A session. -/
structure Session where
  world : World
  live : Table Nat Live := []
  ended : Table Nat Answer := []
  validations : List Nat := []
  runs : List Nat := []
  queue : List Turn := []
  /-- The pauses, the first to end first. -/
  timers : List Timer := []
  /-- How many tasks there have been. -/
  count : Nat := 0

namespace Session

/-- The present. -/
def now (s : Session) : Instant :=
  s.world.now

/-- The kept tasks of a kind that go on. -/
def kept (s : Session) : Kept → List Nat
  | .validations => s.validations
  | .runs => s.runs

/-- Changes the kept tasks of a kind. -/
def withKept (s : Session) (kept : Kept) (f : List Nat → List Nat) : Session :=
  match kept with
  | .validations => { s with validations := f s.validations }
  | .runs => { s with runs := f s.runs }

/-- Puts a turn at the end of the queue. -/
def enqueue (s : Session) (t : Turn) : Session :=
  { s with queue := s.queue ++ [t] }

/-- Adds a task that does not stand in the queue. -/
def add (s : Session) (task : Task) (listeners : List Listener) : Nat × Session :=
  let id := s.count
  (id, { s with count := id + 1, live := Table.put id { task, listeners } s.live })

/-- Adds a task and puts it in the queue. -/
def spawn (s : Session) (task : Task) (listeners : List Listener) : Nat × Session :=
  let (id, s) := s.add task listeners
  (id, s.enqueue (.resume id (.ok .nothing)))

/-- Adds a task that the form keeps in mind. -/
def spawnKept (s : Session) (kept : Kept) (task : Task) (listeners : List Listener) : Session :=
  let (id, s) := s.spawn task (.keeper kept :: listeners)
  s.withKept kept (· ++ [id])

/-- Changes what is known of a task that has not ended. -/
def update (s : Session) (id : Nat) (f : Live → Live) : Session :=
  match Table.get? id s.live with
  | some l => { s with live := Table.put id (f l) s.live }
  | none => s

/-- The state in which a task goes on later. -/
def become (s : Session) (id : Nat) (task : Task) : Session :=
  s.update id fun l => { l with task }

/-- Puts a pause among the others. -/
def insertTimer (t : Timer) : List Timer → List Timer
  | [] => [t]
  | u :: rest => if t.due < u.due then t :: u :: rest else u :: insertTimer t rest

/-- Lets a task pause. A pause of no length only lets the others go first. -/
def pause (s : Session) (id duration : Nat) (answer : Answer) : Session :=
  if duration == 0 then s.enqueue (.resume id answer)
  else { s with timers := insertTimer ⟨s.now + duration, id, answer⟩ s.timers }

/-- Lets a task hear of the end of another. If that has ended, it hears of it in the next round. -/
def listen (s : Session) (owner id : Nat) : Session :=
  match Table.get? id s.ended with
  | some answer => s.enqueue (.report owner answer)
  | none => s.update id fun l => { l with listeners := l.listeners ++ [.gatherer owner] }

/-- Ends a task and tells its listeners. -/
def finish (s : Session) (id : Nat) (answer : Answer) : Session :=
  let listeners := ((Table.get? id s.live).map Live.listeners).getD []
  { s with
    live := Table.drop id s.live
    ended := Table.put id answer s.ended
    queue := s.queue ++ listeners.map (Listener.turn id answer) }

/-- Does what a task says that it does next. -/
def perform (s : Session) (id : Nat) : Next → Session
  | .pause duration answer task => (s.become id task).pause id duration answer
  | .gather children task =>
    let s := s.update id fun l =>
      { l with task, gathering := some { left := children.length, tolerant := false } }
    children.foldl (fun s child => (s.spawn child [.gatherer id]).2) s
  | .settle kind task =>
    let ids := s.kept kind
    let s := s.update id fun l =>
      { l with task, gathering := some { left := ids.length, tolerant := true } }
    ids.foldl (fun s child => s.listen id child) s
  | .follow assignment task =>
    (s.become id task).spawnKept .runs (.run (.ofAssignment assignment)) [.follower id]
  | .finish answer => s.finish id answer

/-- Lets a task go on with an answer. -/
def resume (s : Session) (id : Nat) (answer : Answer) : Session :=
  match Table.get? id s.live with
  | none => s
  | some l =>
    let (next, world) := l.task.step s.world (fun k => !(s.kept k).isEmpty) answer
    { s with world }.perform id next

/-- Tells a task that one of those it waits for has ended. -/
def report (s : Session) (owner : Nat) (answer : Answer) : Session :=
  match (Table.get? owner s.live).bind Live.gathering with
  | none => s
  | some g =>
    match answer, g.tolerant with
    | .error f, false =>
      (s.update owner fun l => { l with gathering := none }).enqueue (.resume owner (.error f))
    | answer, _ =>
      let passed := g.passed && (answer.toOption.map Reply.holds).getD true
      if g.left ≤ 1 then
        (s.update owner fun l => { l with gathering := none }).enqueue
          (.resume owner (.ok (.passed passed)))
      else
        s.update owner fun l =>
          { l with gathering := some { g with left := g.left - 1, passed } }

/-- The time of the next save has come. -/
def saveDue (s : Session) : Bool :=
  s.world.form.autoSave.timer.any (· ≤ s.now)

/-- Starts the run whose time has come, unless it has been put off. -/
def startRun (s : Session) : Session :=
  if !s.saveDue then s
  else
    let world := s.world.withAutoSave AutoSave.disarm
    match world.form.autoSave.start? with
    | none => { s with world }
    | some (assignment, autoSave) =>
      { s with world := world.withAutoSave fun _ => autoSave }.spawnKept .runs
        (.run (.ofAssignment assignment)) []

/-- Takes a turn. -/
def take (s : Session) : Turn → Session
  | .resume id answer => s.resume id answer
  | .wake id answer => s.enqueue (.resume id answer)
  | .forget kept id => s.withKept kept (·.filter (· != id))
  | .report owner answer => s.report owner answer
  | .save => s.startRun

/-! ### Time -/

/-- Puts what is due in the queue. -/
def expire (s : Session) : Session :=
  let due := s.timers.takeWhile (·.due ≤ s.now)
  { s with
    timers := s.timers.drop due.length
    queue := s.queue ++ due.map (fun t => .wake t.id t.answer) ++
      if s.saveDue then [.save] else [] }

/-- A round: everybody who stands in the queue has a turn. -/
def round (s : Session) : Session :=
  let s := s.expire
  s.queue.foldl take { s with queue := [] }

/-- The next instant at which something is due. -/
def nextDue? (s : Session) : Option Instant :=
  match s.timers.head?.map Timer.due, s.world.form.autoSave.timer with
  | some a, some b => some (min a b)
  | a, b => a.or b

/-- Nothing more happens at this instant. -/
def isQuiet (s : Session) : Bool :=
  s.queue.isEmpty && s.nextDue?.all (s.now < ·)

/-- Lets time pass up to an instant. -/
def passTo (s : Session) (t : Instant) : Session :=
  { s with world := { s.world with form := { s.world.form with clock := some (max s.now t) } } }

/-- Goes on by one round. Time passes if nothing else can happen. -/
def proceed (s : Session) : Session :=
  if !s.queue.isEmpty then s.round
  else
    match s.nextDue? with
    | none => s
    | some t => (s.passTo t).round

/-- Goes on until something holds, or for a number of rounds. -/
def runUntil (stop : Session → Bool) : Nat → Session → Session
  | 0, s => s
  | rounds + 1, s => if stop s then s else runUntil stop rounds s.proceed

/-- A number of rounds that no form needs at one go. -/
def enoughRounds : Nat := 1000000

/-- Lets everything happen that is due at this instant. -/
def drain (s : Session) : Session :=
  s.runUntil isQuiet enoughRounds

/-! ### What a user does -/

/-- A session with a new form. -/
def start (host : Host) (d : Definition) (registry : Registry) (settings : Settings)
    (record defaults : Value) (clock : Option Instant) : Except Fault Session := do
  let form ← Form.blank d registry settings record defaults clock
  let (r, world) := World.runForm { host, form } (Form.setUp host)
  let _ ← r
  return { world }

/-- Puts the validations that changes have begun in the queue. -/
def takeUp (s : Session) : Session :=
  let waiting := s.world.form.store.waiting
  let world := s.world.withStore fun store => { store with waiting := [] }
  waiting.foldl (fun s t => s.spawnKept .validations (.started t) []) { s with world }

/-- Does something to the form at once. -/
def act (s : Session) (op : FormOp α) : Except Fault α × Session :=
  let (r, world) := s.world.runForm op
  (r, { s with world }.takeUp)

/-- The tasks have ended. -/
def haveEnded (ids : List Nat) (s : Session) : Bool :=
  ids.all fun id => Table.has id s.ended

/-- What a task ended with. -/
def answerOf (s : Session) (id : Nat) : Answer :=
  (Table.get? id s.ended).getD (.ok .nothing)

/-- Waits for tasks, and for what is due when they have ended. -/
def await (s : Session) (ids : List Nat) : List Answer × Session :=
  let s := (s.runUntil (haveEnded ids) enoughRounds).drain
  (ids.map s.answerOf, s)

/-- Does a task at once and waits for it. -/
def run (s : Session) (task : Task) : Answer × Session :=
  let (id, s) := s.add task []
  let (_, s) := (s.resume id (.ok .nothing)).await [id]
  (s.answerOf id, s)

/-- Starts a task without waiting for it. -/
def launch (s : Session) (task : Task) : Nat × Session :=
  s.spawn task []

/-- Takes the log. -/
def takeLog (s : Session) : Log × Session :=
  (s.world.log, { s with world := { s.world with log := [] } })

end Session

end LiveForm
