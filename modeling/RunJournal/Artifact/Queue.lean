import RunJournal.Artifact.Upload

/-!
# Background uploads

An upload is submitted and then runs on its own, as a **task** with a number. The queue keeps the
numbers of the tasks that it may have to wait for; tasks that have finished are forgotten whenever
another is submitted. A **drain** takes over all numbers that the queue holds and looks at them one
after the other: at one that has finished it goes on to the next, and at one that has not it waits
until the deadline and then counts it as abandoned. An abandoned task still runs.

The queue changes in small steps (`QueueEvent`), so that tasks may finish at any moment, in the
midst of a drain too. `drainAll` is the drain in which every task finishes in time.
-/

namespace RunJournal

/-- An upload on its way. -/
structure Task where
  number : Nat
  upload : Upload
deriving DecidableEq, Repr

/-- A drain at work. -/
structure Drain where
  /-- The tasks it has not looked at yet. -/
  awaited : List Nat
  /-- Whether the deadline has passed. -/
  expired : Bool
  /-- The tasks it has given up. -/
  abandoned : List Nat
deriving DecidableEq, Repr

/-- Uploads in the background. -/
structure Queue where
  /-- The tasks that a drain would wait for, in the order of their submission. -/
  held : List Nat
  /-- The tasks that have not finished. -/
  running : List Task
  /-- How many tasks were submitted so far. -/
  submitted : Nat
  /-- The last drain, if there was one; it is over when it awaits nothing. -/
  drain : Option Drain
deriving DecidableEq, Repr

namespace Queue

/-- The queue before the first submission. -/
def empty : Queue := ⟨[], [], 0, none⟩

/-- Whether a task is still on its way. -/
def isRunning (q : Queue) (number : Nat) : Bool := q.running.any fun t => t.number == number

/-- How many of the tasks that are held are still on their way. -/
def inFlight (q : Queue) : Nat := (q.held.filter q.isRunning).length

/-- Whether a drain is at work. -/
def isDraining (q : Queue) : Bool := q.drain.any fun d => !d.awaited.isEmpty

/-- Submits an upload. -/
def submit (u : Upload) (q : Queue) : Queue :=
  { q with
    held := q.held.filter q.isRunning ++ [q.submitted]
    running := q.running ++ [⟨q.submitted, u⟩]
    submitted := q.submitted + 1 }

/-- Lets the task `number` finish, with what it leaves behind. -/
def finish (disk : Disk) (number : Nat) (q : Queue) (d : Delivery) : Queue × Delivery :=
  match q.running.find? fun t => t.number == number with
  | none => (q, d)
  | some t =>
    ({ q with running := q.running.filter fun t => t.number != number }, t.upload.run disk d)

/-- Starts a drain of all tasks that are held. -/
def startDrain (q : Queue) : Queue :=
  { q with held := [], drain := some ⟨q.held, false, []⟩ }

/-- Lets the deadline of the drain at work pass. -/
def expire (q : Queue) : Queue :=
  { q with drain := q.drain.map fun d => { d with expired := true } }

/-- Lets the drain at work look at its next task. -/
def await (q : Queue) : Queue :=
  match q.drain with
  | some ⟨number :: awaited, expired, abandoned⟩ =>
    if !q.isRunning number then { q with drain := some ⟨awaited, expired, abandoned⟩ }
    else if expired then { q with drain := some ⟨awaited, expired, abandoned ++ [number]⟩ }
    else q
  | _ => q

end Queue

/-- What may happen to a queue. -/
inductive QueueEvent where
  | submit (u : Upload)
  | finish (number : Nat)
  | startDrain
  | expire
  | await
deriving DecidableEq, Repr

/-- The queue after an event, and what its tasks have left behind. While a drain is at work nothing
is submitted and no other drain starts. -/
def Queue.step (disk : Disk) (e : QueueEvent) (q : Queue) (d : Delivery) : Queue × Delivery :=
  match e with
  | .submit u => (if q.isDraining then q else q.submit u, d)
  | .finish number => q.finish disk number d
  | .startDrain => (if q.isDraining then q else q.startDrain, d)
  | .expire => (q.expire, d)
  | .await => (q.await, d)

/-- The queue after a sequence of events, and what its tasks have left behind. -/
def Queue.run (disk : Disk) (events : List QueueEvent) (q : Queue) (d : Delivery) :
    Queue × Delivery :=
  events.foldl (fun (q, d) e => q.step disk e d) (q, d)

/-- How many tasks the last drain has given up. -/
def Queue.abandoned (q : Queue) : Nat := (q.drain.map fun d => d.abandoned.length).getD 0

/-- A drain in which all tasks finish in time, in the order of their submission. -/
def Queue.drainAll (disk : Disk) (q : Queue) (d : Delivery) : Queue × Delivery :=
  q.run disk (.startDrain :: q.running.map (fun t => .finish t.number) ++
    q.held.map fun _ => .await) d

end RunJournal
