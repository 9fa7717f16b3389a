import RunJournal.Proofs.Artifact.Contents
import RunJournal.Proofs.Artifact.ObjectPath

/-!
# Nothing is lost in the background

A queue forgets tasks: those that have finished when another is submitted, and all of them when a
drain starts. The history of a queue (`Queue.history`) forgets nothing. It says what was submitted,
what has finished, when drains started and when their deadlines passed, in the order in which it
came about, and `Queue.Follows` is the invariant that ties a queue to its history. Every event keeps
it (`Follows.step`), and so every schedule does (`follows_history`).

What a queue answers can then be told from its history (`background_uploads`): how many uploads are
in flight, that a drain which gives up no task has waited for all of them, and that a task which is
given up had not finished at the deadline. Once all tasks have finished, the bucket and the failures
depend on what was submitted, and not on the order in which it finished.

That holds for objects, and not for keys as they are written: a key that is no path of its own is
not found in the bucket (`accentedKey_not_kept`), and keys that differ in empty segments share one
object.
-/

namespace RunJournal

/-! ## Histories -/

/-- What can come about in a queue. -/
inductive Occurrence where
  | submitted (t : Task)
  | finished (t : Task)
  | drainStarted
  /-- The deadline of the drain at work has passed. -/
  | deadlinePassed
deriving DecidableEq

namespace Occurrence

/-- The task that was submitted. -/
def submitted? : Occurrence → Option Task
  | submitted t => some t
  | _ => none

/-- The task that has finished. -/
def finished? : Occurrence → Option Task
  | finished t => some t
  | _ => none

theorem submitted_ne (t : Task) : submitted t ≠ drainStarted := by rintro ⟨⟩

theorem finished_ne (t : Task) : finished t ≠ drainStarted := by rintro ⟨⟩

theorem deadlinePassed_ne : deadlinePassed ≠ drainStarted := by rintro ⟨⟩

end Occurrence

/-- What has come about in a queue, in order. -/
abbrev QueueHistory := List Occurrence

namespace QueueHistory

/-- The tasks that were submitted. -/
def submissions (log : QueueHistory) : List Task := log.filterMap Occurrence.submitted?

/-- The tasks that have finished, in the order in which they did. -/
def finishes (log : QueueHistory) : List Task := log.filterMap Occurrence.finished?

/-- The tasks that were submitted since a drain was last started. -/
def recent (log : QueueHistory) : List Task :=
  submissions (log.reverse.takeWhile (· != .drainStarted)).reverse

/-- Those of some tasks that have not finished. -/
def unfinished (log : QueueHistory) (tasks : List Task) : List Task :=
  tasks.filter fun t => t ∉ log.finishes

/-- The last drain was started after `before`, and what came about since then is `after`. -/
structure LastDrain (log before after : QueueHistory) : Prop where
  eq_append : log = before ++ .drainStarted :: after
  last : .drainStarted ∉ after

variable {log before after : QueueHistory} {t : Task} {o : Occurrence}

/-- What happens last may be a submission. -/
theorem submissions_concat (log : QueueHistory) (o : Occurrence) :
    submissions (log ++ [o]) = submissions log ++ o.submitted?.toList := by
  rw [submissions, List.filterMap_append]
  cases o <;> rfl

theorem finishes_concat (log : QueueHistory) (o : Occurrence) :
    finishes (log ++ [o]) = finishes log ++ o.finished?.toList := by
  rw [finishes, List.filterMap_append]
  cases o <;> rfl

theorem recent_drainStarted (log : QueueHistory) : recent (log ++ [.drainStarted]) = [] := by
  rw [recent, List.reverse_concat]
  rfl

/-- Anything but the beginning of a drain leaves what was submitted since the last one, and may add
to it. -/
theorem recent_concat (ho : o ≠ .drainStarted) :
    recent (log ++ [o]) = recent log ++ o.submitted?.toList := by
  have hgoesOn : (o != .drainStarted) = true := bne_iff_ne.mpr ho
  -- the history is read from its end back to the last drain
  rw [recent, List.reverse_concat, List.takeWhile_cons, hgoesOn]
  show submissions (o :: log.reverse.takeWhile (· != .drainStarted)).reverse = _
  rw [List.reverse_cons, submissions_concat, recent]

/-- What was submitted since the last drain was submitted. -/
theorem recent_sublist (log : QueueHistory) : (recent log).Sublist (submissions log) := by
  have hsublist := (List.takeWhile_sublist (· != .drainStarted) (l := log.reverse)).reverse
  rw [List.reverse_reverse] at hsublist
  exact hsublist.filterMap _

theorem recent_subset : recent log ⊆ submissions log := (recent_sublist log).subset

/-- No task that ended is forgotten. -/
theorem finishes_append_subset (log more : QueueHistory) :
    finishes log ⊆ finishes (log ++ more) := by
  rw [finishes, finishes, List.filterMap_append]
  exact List.subset_append_left _ _

/-- No submission is forgotten, and their order stays. -/
theorem submissions_append_sublist (log more : QueueHistory) :
    (submissions log).Sublist (submissions (log ++ more)) := by
  rw [submissions, submissions, List.filterMap_append]
  exact List.sublist_append_left _ _

/-- Before the first drain begins, none has begun. -/
theorem drainStarted_notMem_concat (h : .drainStarted ∉ log) (ho : o ≠ .drainStarted) :
    .drainStarted ∉ log ++ [o] := by
  rw [List.mem_append, List.mem_singleton]
  rintro (hmem | heq)
  · exact h hmem
  · exact ho heq.symm

/-- What comes about in a drain leaves its start where it is. -/
theorem LastDrain.concat (h : LastDrain log before after) (ho : o ≠ .drainStarted) :
    LastDrain (log ++ [o]) before (after ++ [o]) where
  eq_append := by
    rw [h.eq_append, List.append_assoc]
    rfl
  last := drainStarted_notMem_concat h.last ho

end QueueHistory

open QueueHistory

namespace Queue

/-- What an event brings about in a queue, if anything. -/
def occurrence? (q : Queue) : QueueEvent → Option Occurrence
  | .submit u => if q.isDraining then none else some (.submitted ⟨q.submitted, u⟩)
  | .finish number => (q.running.find? fun t => t.number == number).map .finished
  | .startDrain => if q.isDraining then none else some .drainStarted
  | .expire => if q.isDraining then some .deadlinePassed else none
  | .await => none

/-- What a schedule brings about in a queue. -/
def occurrences (disk : Disk) : List QueueEvent → Queue → Delivery → QueueHistory
  | [], _, _ => []
  | e :: rest, q, d =>
    (q.occurrence? e).toList ++ occurrences disk rest (q.step disk e d).1 (q.step disk e d).2

/-- What a schedule brings about in a new queue. -/
def history (disk : Disk) (schedule : List QueueEvent) : QueueHistory :=
  empty.occurrences disk schedule .none

/-! ## Queues and their histories -/

/-- The tasks of a queue are those of its history: they are numbered as they were submitted, those
that have not finished are running, and the others have delivered one after the other. -/
structure TasksFollow (disk : Disk) (log : QueueHistory) (q : Queue) (d : Delivery) : Prop where
  numbers : log.submissions.map Task.number = List.range q.submitted
  finished_subset : log.finishes ⊆ log.submissions
  finished_nodup : log.finishes.Nodup
  running : q.running = log.unfinished log.submissions
  delivery : d = runUploads disk (log.finishes.map Task.upload) .none

/-- A queue holds tasks that were submitted since the last drain, and all of those that have not
finished. -/
structure HeldFollow (log : QueueHistory) (q : Queue) : Prop where
  sublist : q.held.Sublist (log.recent.map Task.number)
  unfinished : ∀ t ∈ log.recent, t ∉ log.finishes → t.number ∈ q.held

/-- A task had not finished at the deadline of a drain that was started after `before`. -/
def UnfinishedAtDeadline (before after : QueueHistory) (t : Task) : Prop :=
  ∃ between rest, after = between ++ .deadlinePassed :: rest ∧ .deadlinePassed ∉ between ∧
    t ∉ finishes (before ++ .drainStarted :: between)

/-- What a drain has looked at, and what it has yet to look at. -/
structure DrainFollows (log before after : QueueHistory) (drain : Drain) : Prop where
  started : log.LastDrain before after
  taken : (drain.abandoned ++ drain.awaited).Sublist (before.recent.map Task.number)
  unfinished : ∀ t ∈ before.recent, t ∉ log.finishes →
    t.number ∈ drain.abandoned ++ drain.awaited
  expired : drain.awaited ≠ [] → drain.expired = true → .deadlinePassed ∈ after
  abandoned : ∀ t ∈ before.recent, t.number ∈ drain.abandoned →
    UnfinishedAtDeadline before after t

/-- The drain of a queue is the last that was started, if there was one. -/
structure LastFollows (log : QueueHistory) (drain? : Option Drain) : Prop where
  undrained : drain? = none → .drainStarted ∉ log
  drained : ∀ drain, drain? = some drain → ∃ before after, DrainFollows log before after drain

/-- A queue is as its history says. -/
structure Follows (disk : Disk) (log : QueueHistory) (q : Queue) (d : Delivery) : Prop where
  tasks : TasksFollow disk log q d
  held : HeldFollow log q
  drain : LastFollows log q.drain

variable {disk : Disk} {log before after : QueueHistory} {q q' : Queue} {d : Delivery}
  {drain : Drain}

theorem follows_empty (disk : Disk) : Follows disk [] empty .none where
  tasks := ⟨rfl, List.Subset.refl _, List.nodup_nil, rfl, rfl⟩
  held := ⟨List.Sublist.refl _, nofun⟩
  drain := ⟨fun _ => List.not_mem_nil, nofun⟩

namespace TasksFollow

/-- Every task has a number of its own. -/
theorem nodup (h : TasksFollow disk log q d) : (log.submissions.map Task.number).Nodup := by
  rw [h.numbers]
  exact List.nodup_range

/-- Tasks are told apart by their numbers. -/
theorem eq_of_number (h : TasksFollow disk log q d) {s t : Task} (hs : s ∈ log.submissions)
    (ht : t ∈ log.submissions) (hnumber : s.number = t.number) : s = t :=
  List.inj_on_of_nodup_map h.nodup hs ht hnumber

/-- A task is running when it was submitted and has not ended. -/
theorem mem_running_iff (h : TasksFollow disk log q d) {t : Task} :
    t ∈ q.running ↔ t ∈ log.submissions ∧ t ∉ log.finishes := by
  rw [h.running, unfinished, List.mem_filter, decide_eq_true_iff]

/-- A task is running until it has finished. -/
theorem isRunning_iff (h : TasksFollow disk log q d) {t : Task} (ht : t ∈ log.submissions) :
    q.isRunning t.number = true ↔ t ∉ log.finishes := by
  rw [isRunning, List.any_eq_true]
  constructor
  · rintro ⟨s, hs, hnumber⟩
    obtain ⟨hs, hunfinished⟩ := h.mem_running_iff.mp hs
    rwa [h.eq_of_number hs ht (eq_of_beq hnumber)] at hunfinished
  · intro hunfinished
    exact ⟨t, h.mem_running_iff.mpr ⟨ht, hunfinished⟩, beq_self_eq_true _⟩

/-- What is neither submitted nor finished does not concern the tasks. -/
theorem of_eq (h : TasksFollow disk log q d) {log' : QueueHistory}
    (hsubmissions : log'.submissions = log.submissions) (hfinishes : log'.finishes = log.finishes)
    (hrunning : q'.running = q.running) (hsubmitted : q'.submitted = q.submitted) :
    TasksFollow disk log' q' d where
  numbers := by rw [hsubmissions, hsubmitted, h.numbers]
  finished_subset := by
    rw [hsubmissions, hfinishes]
    exact h.finished_subset
  finished_nodup := hfinishes ▸ h.finished_nodup
  running := by rw [hrunning, h.running, unfinished, unfinished, hsubmissions, hfinishes]
  delivery := by rw [hfinishes, ← h.delivery]

/-- A submission gives the task the next number and lets it run. -/
theorem submit (h : TasksFollow disk log q d) (u : Upload) :
    TasksFollow disk (log ++ [.submitted ⟨q.submitted, u⟩]) (q.submit u) d := by
  let t : Task := ⟨q.submitted, u⟩
  have hsubmissions : submissions (log ++ [.submitted t]) = log.submissions ++ [t] :=
    submissions_concat ..
  have hfinishes : finishes (log ++ [.submitted t]) = log.finishes :=
    (finishes_concat ..).trans (List.append_nil _)
  -- no task that was submitted before has the new number
  have hnew : t ∉ log.finishes := by
    intro hmem
    have hnumber := List.mem_map_of_mem (f := Task.number) (h.finished_subset hmem)
    rw [h.numbers, List.mem_range] at hnumber
    exact absurd hnumber (lt_irrefl _)
  constructor
  · show (submissions (log ++ [.submitted t])).map Task.number = List.range (q.submitted + 1)
    rw [hsubmissions, List.map_append, h.numbers, List.range_succ]
    rfl
  · rw [hsubmissions, hfinishes]
    exact List.subset_append_of_subset_left _ h.finished_subset
  · rw [hfinishes]
    exact h.finished_nodup
  · show q.running ++ [t] = unfinished (log ++ [.submitted t]) _
    have hlast : [t].filter (fun s => s ∉ log.finishes) = [t] :=
      List.filter_cons_of_pos (decide_eq_true hnew)
    rw [unfinished, hsubmissions, hfinishes, List.filter_append, hlast, h.running, unfinished]
  · rw [hfinishes]
    exact h.delivery

/-- A running task that ends has run its upload, and no other task ends with it. -/
theorem finish (h : TasksFollow disk log q d) {t : Task} (ht : t ∈ q.running) :
    TasksFollow disk (log ++ [.finished t])
      { q with running := q.running.filter fun s => s.number != t.number }
      (t.upload.run disk d) := by
  obtain ⟨hsubmitted, hunfinished⟩ := h.mem_running_iff.mp ht
  have hsubmissions : submissions (log ++ [.finished t]) = log.submissions :=
    (submissions_concat ..).trans (List.append_nil _)
  have hfinishes : finishes (log ++ [.finished t]) = log.finishes ++ [t] := finishes_concat ..
  constructor
  · rw [hsubmissions]
    exact h.numbers
  · rw [hsubmissions, hfinishes]
    exact List.append_subset.mpr ⟨h.finished_subset, List.cons_subset.mpr
      ⟨hsubmitted, List.nil_subset _⟩⟩
  · rw [hfinishes, List.nodup_append]
    refine ⟨h.finished_nodup, List.nodup_singleton t, ?_⟩
    rintro s hs s' hs' rfl
    exact hunfinished (List.mem_singleton.mp hs' ▸ hs)
  -- to drop the number is to drop the task, since no other task has that number
  · show q.running.filter (fun s => s.number != t.number) = _
    rw [unfinished, hsubmissions, hfinishes, h.running, unfinished, List.filter_filter]
    refine List.filter_congr fun s hs => ?_
    rw [Bool.eq_iff_iff, Bool.and_eq_true, bne_iff_ne, decide_eq_true_iff, decide_eq_true_iff,
      List.mem_append, List.mem_singleton, not_or, and_comm]
    exact and_congr_right fun _ =>
      not_congr ⟨fun heq => h.eq_of_number hs hsubmitted heq, congrArg Task.number⟩
  · rw [hfinishes, List.map_append, h.delivery]
    exact (runUploads_concat ..).symm

end TasksFollow

namespace HeldFollow

/-- What the queue holds was submitted since the last drain. -/
theorem mem_recent (h : HeldFollow log q) {number : Nat} (hnumber : number ∈ q.held) :
    ∃ t ∈ log.recent, t.number = number := by
  obtain ⟨t, ht, rfl⟩ := List.mem_map.mp (h.sublist.mem hnumber)
  exact ⟨t, ht, rfl⟩

/-- Tasks that are forgotten when another is submitted have finished. -/
theorem submit (h : HeldFollow log q) (htasks : TasksFollow disk log q d) (u : Upload) :
    HeldFollow (log ++ [.submitted ⟨q.submitted, u⟩]) (q.submit u) := by
  let t : Task := ⟨q.submitted, u⟩
  have hrecent : recent (log ++ [.submitted t]) = log.recent ++ [t] :=
    recent_concat (Occurrence.submitted_ne t)
  have hfinishes : finishes (log ++ [.submitted t]) = log.finishes :=
    (finishes_concat ..).trans (List.append_nil _)
  constructor
  · show (q.held.filter q.isRunning ++ [t.number]).Sublist _
    rw [hrecent, List.map_append]
    exact (List.filter_sublist.trans h.sublist).append (List.Sublist.refl _)
  · intro s hs hunfinished
    rw [hrecent] at hs
    rw [hfinishes] at hunfinished
    show s.number ∈ q.held.filter q.isRunning ++ [t.number]
    rcases List.mem_append.mp hs with hs | hs
    · have hrunning := (htasks.isRunning_iff (recent_subset hs)).mpr hunfinished
      exact List.mem_append_left _ (List.mem_filter.mpr ⟨h.unfinished s hs hunfinished, hrunning⟩)
    · rw [List.mem_singleton.mp hs]
      exact List.mem_append_right _ List.mem_cons_self

/-- Where nothing is submitted and no drain starts, the same tasks are held. -/
theorem of_eq (h : HeldFollow log q) {log' : QueueHistory} (hrecent : log'.recent = log.recent)
    (hfinishes : log.finishes ⊆ log'.finishes) (hheld : q'.held = q.held) :
    HeldFollow log' q' where
  sublist := by
    rw [hheld, hrecent]
    exact h.sublist
  unfinished t ht hunfinished := by
    rw [hheld]
    exact h.unfinished t (hrecent ▸ ht) fun hmem => hunfinished (hfinishes hmem)

/-- **What is in flight are the tasks since the last drain that have not finished.** -/
theorem inFlight_eq (h : HeldFollow log q) (htasks : TasksFollow disk log q d) :
    q.inFlight = (log.unfinished log.recent).length := by
  have hnodup := htasks.nodup.sublist ((recent_sublist log).map Task.number)
  have hperm : (q.held.filter q.isRunning).Perm ((log.unfinished log.recent).map Task.number) := by
    refine (List.perm_ext_iff_of_nodup ((h.sublist.nodup hnodup).filter _)
      (hnodup.sublist (List.filter_sublist.map _))).mpr fun number => ?_
    rw [List.mem_filter, List.mem_map]
    constructor
    · rintro ⟨hheld, hrunning⟩
      obtain ⟨t, ht, rfl⟩ := h.mem_recent hheld
      exact ⟨t, List.mem_filter.mpr ⟨ht, decide_eq_true
        ((htasks.isRunning_iff (recent_subset ht)).mp hrunning)⟩, rfl⟩
    · rintro ⟨t, ht, rfl⟩
      obtain ⟨ht, hunfinished⟩ := List.mem_filter.mp ht
      have hunfinished := of_decide_eq_true hunfinished
      exact ⟨h.unfinished t ht hunfinished,
        (htasks.isRunning_iff (recent_subset ht)).mpr hunfinished⟩
  rw [inFlight, hperm.length_eq, List.length_map]

end HeldFollow

namespace DrainFollows

/-- What comes about in a drain, but is not its doing, it keeps in step with. -/
theorem concat (h : DrainFollows log before after drain) {o : Occurrence}
    (ho : o ≠ .drainStarted) : DrainFollows (log ++ [o]) before (after ++ [o]) drain where
  started := h.started.concat ho
  taken := h.taken
  unfinished t ht hunfinished :=
    h.unfinished t ht fun hmem => hunfinished (finishes_append_subset _ _ hmem)
  expired hawaited hexpired := List.mem_append_left _ (h.expired hawaited hexpired)
  abandoned t ht habandoned := by
    obtain ⟨between, rest, rfl, hfirst, hunfinished⟩ := h.abandoned t ht habandoned
    exact ⟨between, rest ++ [o], by simp, hfirst, hunfinished⟩

/-- The deadline of a drain passes, which matters only as long as it has something to look at. -/
theorem expire (h : DrainFollows log before after drain)
    (hpassed : drain.awaited ≠ [] → .deadlinePassed ∈ after) :
    DrainFollows log before after { drain with expired := true } :=
  { h with expired := fun hawaited _ => hpassed hawaited }

/-- What a drain waits for was submitted before it began. -/
theorem sublist_submissions (h : DrainFollows log before after drain) :
    before.recent.Sublist log.submissions := by
  rw [h.started.eq_append]
  exact (recent_sublist before).trans (submissions_append_sublist _ _)

variable {number : Nat} {awaited abandoned : List Nat} {expired : Bool}

/-- A drain goes on to its next task where one has finished. -/
theorem drop (h : DrainFollows log before after ⟨number :: awaited, expired, abandoned⟩)
    (hfinished : ∀ t ∈ before.recent, t.number = number → t ∈ log.finishes) :
    DrainFollows log before after ⟨awaited, expired, abandoned⟩ where
  started := h.started
  taken := ((List.sublist_cons_self number awaited).append_left abandoned).trans h.taken
  unfinished t ht hunfinished := by
    rcases List.mem_append.mp (h.unfinished t ht hunfinished) with hmem | hmem
    · exact List.mem_append_left _ hmem
    · rcases List.mem_cons.mp hmem with heq | hmem
      · exact absurd (hfinished t ht heq) hunfinished
      · exact List.mem_append_right _ hmem
  expired _ := h.expired (List.cons_ne_nil _ _)
  abandoned := h.abandoned

/-- A drain gives up a task that has not finished after the deadline, and so had not finished at the
deadline. -/
theorem giveUp (h : DrainFollows log before after ⟨number :: awaited, true, abandoned⟩)
    (hunfinished : ∀ t ∈ before.recent, t.number = number → t ∉ log.finishes) :
    DrainFollows log before after ⟨awaited, true, abandoned ++ [number]⟩ := by
  have hpassed : .deadlinePassed ∈ after := h.expired (List.cons_ne_nil _ _) rfl
  have htaken : abandoned ++ [number] ++ awaited = abandoned ++ number :: awaited :=
    List.append_assoc ..
  refine ⟨h.started, htaken ▸ h.taken, htaken ▸ h.unfinished, fun _ _ => hpassed,
    fun t ht hmem => ?_⟩
  rcases List.mem_append.mp hmem with hmem | hmem
  · exact h.abandoned t ht hmem
  · obtain ⟨between, rest, rfl, hfirst⟩ := List.eq_append_cons_of_mem hpassed
    refine ⟨between, rest, rfl, hfirst, fun hbefore => ?_⟩
    refine hunfinished t ht (List.mem_singleton.mp hmem) ?_
    rw [h.started.eq_append, ← List.cons_append, ← List.append_assoc]
    exact finishes_append_subset _ _ hbefore

end DrainFollows

namespace LastFollows

variable {drain? : Option Drain}

theorem of_some (h : DrainFollows log before after drain) : LastFollows log (some drain) where
  undrained := nofun
  drained drain' heq := by
    cases heq
    exact ⟨before, after, h⟩

/-- Anything but the beginning of a drain leaves the last drain the last. -/
theorem concat (h : LastFollows log drain?) {o : Occurrence} (ho : o ≠ .drainStarted) :
    LastFollows (log ++ [o]) drain? where
  undrained hnone := drainStarted_notMem_concat (h.undrained hnone) ho
  drained drain hsome := by
    obtain ⟨before, after, hfollows⟩ := h.drained drain hsome
    exact ⟨before, _, hfollows.concat ho⟩

end LastFollows

namespace Follows

/-- A submission keeps the queue and its history together. -/
theorem submit (h : Follows disk log q d) (u : Upload) :
    Follows disk (log ++ [.submitted ⟨q.submitted, u⟩]) (q.submit u) d where
  tasks := h.tasks.submit u
  held := h.held.submit h.tasks u
  drain := h.drain.concat (Occurrence.submitted_ne _)

/-- The end of a task keeps them together, and the end of what is not running goes unnoticed. -/
theorem finish (h : Follows disk log q d) (number : Nat) :
    Follows disk (log ++ (q.occurrence? (.finish number)).toList) (q.finish disk number d).1
      (q.finish disk number d).2 := by
  rw [occurrence?, Queue.finish]
  cases hfind : q.running.find? fun t => t.number == number with
  | none =>
    show Follows disk (log ++ []) q d
    rwa [List.append_nil]
  | some t =>
    obtain rfl : t.number = number :=
      eq_of_beq (List.find?_some (p := fun t : Task => t.number == number) hfind)
    have hne := Occurrence.finished_ne t
    exact ⟨h.tasks.finish (List.mem_of_find?_eq_some hfind),
      h.held.of_eq ((recent_concat hne).trans (List.append_nil _)) (finishes_append_subset _ _) rfl,
      h.drain.concat hne⟩

/-- A drain takes all that is held. -/
theorem startDrain (h : Follows disk log q d) :
    Follows disk (log ++ [.drainStarted]) q.startDrain d := by
  have hsubmissions : submissions (log ++ [.drainStarted]) = log.submissions :=
    (submissions_concat ..).trans (List.append_nil _)
  have hfinishes : finishes (log ++ [.drainStarted]) = log.finishes :=
    (finishes_concat ..).trans (List.append_nil _)
  have hdrain : DrainFollows (log ++ [.drainStarted]) log [] ⟨q.held, false, []⟩ := by
    refine ⟨⟨rfl, List.not_mem_nil⟩, h.held.sublist, fun t ht hunfinished => ?_, nofun, nofun⟩
    rw [hfinishes] at hunfinished
    exact h.held.unfinished t ht hunfinished
  refine ⟨h.tasks.of_eq hsubmissions hfinishes rfl rfl, ⟨List.nil_sublist _, fun t ht => ?_⟩,
    .of_some hdrain⟩
  rw [recent_drainStarted] at ht
  cases ht

/-- A drain that has changed, but not what it is a drain of. -/
theorem setDrain (h : Follows disk log q d) {drain? : Option Drain}
    (hdrain : LastFollows log drain?) : Follows disk log { q with drain := drain? } d where
  tasks := h.tasks.of_eq rfl rfl rfl rfl
  held := h.held.of_eq rfl (List.Subset.refl _) rfl
  drain := hdrain

/-- That time goes by makes no difference to a queue. -/
theorem passDeadline (h : Follows disk log q d) : Follows disk (log ++ [.deadlinePassed]) q d where
  tasks := h.tasks.of_eq ((submissions_concat ..).trans (List.append_nil _))
    ((finishes_concat ..).trans (List.append_nil _)) rfl rfl
  held := h.held.of_eq ((recent_concat Occurrence.deadlinePassed_ne).trans (List.append_nil _))
    (finishes_append_subset _ _) rfl
  drain := h.drain.concat Occurrence.deadlinePassed_ne

/-- The deadline keeps them together, whether anything waits for it or not. -/
theorem expire (h : Follows disk log q d) :
    Follows disk (log ++ (q.occurrence? .expire).toList) q.expire d := by
  rw [occurrence?]
  -- a deadline is part of the history only while a drain waits for it
  by_cases hdraining : q.isDraining = true
  · rw [if_pos hdraining]
    refine h.passDeadline.setDrain ⟨fun hnone => ?_, fun drain' hdrain' => ?_⟩
    · exact h.passDeadline.drain.undrained (Option.map_eq_none_iff.mp hnone)
    · obtain ⟨drain, hdrain, rfl⟩ := Option.map_eq_some_iff.mp hdrain'
      obtain ⟨before, after, hfollows⟩ := h.drain.drained drain hdrain
      exact ⟨before, _, (hfollows.concat Occurrence.deadlinePassed_ne).expire fun _ =>
        List.mem_append_right _ List.mem_cons_self⟩
  · rw [if_neg hdraining]
    show Follows disk (log ++ []) q.expire d
    rw [List.append_nil]
    refine h.setDrain ⟨fun hnone => ?_, fun drain' hdrain' => ?_⟩
    · exact h.drain.undrained (Option.map_eq_none_iff.mp hnone)
    · obtain ⟨drain, hdrain, rfl⟩ := Option.map_eq_some_iff.mp hdrain'
      obtain ⟨before, after, hfollows⟩ := h.drain.drained drain hdrain
      -- the drain is over, so that it makes no difference to it whether it is late
      refine ⟨before, after, hfollows.expire fun hawaited => absurd ?_ hdraining⟩
      rw [isDraining, hdrain]
      simpa using hawaited

/-- A drain drops a task that has finished, and gives up one that has not once it is late. -/
theorem await (h : Follows disk log q d) : Follows disk log q.await d := by
  rw [Queue.await]
  split
  · rename_i number awaited expired abandoned hdrain
    obtain ⟨before, after, hfollows⟩ := h.drain.drained _ hdrain
    -- the queue asks by number whether the task is running, and the number tells the task
    have hrunning : ∀ t ∈ before.recent, t.number = number →
        (q.isRunning number = true ↔ t ∉ log.finishes) := by
      rintro t ht rfl
      exact h.tasks.isRunning_iff (hfollows.sublist_submissions.mem ht)
    split
    · rename_i hfinished
      refine h.setDrain (.of_some (hfollows.drop fun t ht hnumber => ?_))
      by_contra hunfinished
      rw [(hrunning t ht hnumber).mpr hunfinished] at hfinished
      cases hfinished
    · rename_i hunfinished
      rw [Bool.not_eq_true', Bool.not_eq_false] at hunfinished
      split
      · rename_i hexpired
        subst hexpired
        refine h.setDrain (.of_some (hfollows.giveUp fun t ht hnumber => ?_))
        exact (hrunning t ht hnumber).mp hunfinished
      · exact h
  · exact h

/-- **Every event keeps a queue in step with its history.** -/
theorem step (h : Follows disk log q d) (e : QueueEvent) :
    Follows disk (log ++ (q.occurrence? e).toList) (q.step disk e d).1 (q.step disk e d).2 := by
  -- while a drain waits, nothing is submitted and no other drain begins
  have hnone : Follows disk (log ++ []) q d := by rwa [List.append_nil]
  cases e with
  | submit u =>
    rw [occurrence?, Queue.step]
    by_cases hdraining : q.isDraining = true
    · rw [if_pos hdraining, if_pos hdraining]
      exact hnone
    · rw [if_neg hdraining, if_neg hdraining]
      exact h.submit u
  | finish number => exact h.finish number
  | startDrain =>
    rw [occurrence?, Queue.step]
    by_cases hdraining : q.isDraining = true
    · rw [if_pos hdraining, if_pos hdraining]
      exact hnone
    · rw [if_neg hdraining, if_neg hdraining]
      exact h.startDrain
  | expire => exact h.expire
  | await =>
    show Follows disk (log ++ []) q.await d
    rw [List.append_nil]
    exact h.await

/-- What every event keeps, a schedule keeps. -/
theorem run (h : Follows disk log q d) (schedule : List QueueEvent) :
    Follows disk (log ++ q.occurrences disk schedule d) (q.run disk schedule d).1
      (q.run disk schedule d).2 := by
  induction schedule generalizing log q d with
  | nil =>
    show Follows disk (log ++ []) q d
    rwa [List.append_nil]
  | cons e rest ih =>
    rw [occurrences, ← List.append_assoc]
    exact ih (h.step e)

end Follows

/-- **A queue is in step with its history**, whatever happens to it. -/
theorem follows_history (disk : Disk) (schedule : List QueueEvent) :
    Follows disk (history disk schedule) (empty.run disk schedule .none).1
      (empty.run disk schedule .none).2 :=
  (follows_empty disk).run schedule

/-- Nothing comes into a history that was not submitted. -/
theorem submissions_occurrences_sublist (disk : Disk) (schedule : List QueueEvent) (q : Queue)
    (d : Delivery) :
    ((submissions (q.occurrences disk schedule d)).map Task.upload).Sublist
      (schedule.filterMap QueueEvent.upload?) := by
  -- event by event: only a submission submits, and not while a drain waits
  induction schedule generalizing q d with
  | nil => exact List.Sublist.refl _
  | cons e rest ih =>
    have hfirst : ((submissions (q.occurrence? e).toList).map Task.upload).Sublist
        ([e].filterMap QueueEvent.upload?) := by
      cases e with
      | submit u =>
        rw [occurrence?]
        split
        · exact List.nil_sublist _
        · exact List.Sublist.refl _
      | finish number =>
        rw [occurrence?]
        cases q.running.find? fun t => t.number == number <;> exact List.nil_sublist _
      | await => exact List.nil_sublist _
      | startDrain | expire =>
        rw [occurrence?]
        split <;> exact List.nil_sublist _
    rw [occurrences, submissions, List.filterMap_append, List.map_append, ← List.singleton_append,
      List.filterMap_append]
    exact hfirst.append (ih ..)

end Queue

/-- All tasks that were submitted have finished. -/
def QueueHistory.AllFinished (log : QueueHistory) : Prop :=
  ∀ t ∈ log.submissions, t ∈ log.finishes

instance (log : QueueHistory) : Decidable log.AllFinished :=
  inferInstanceAs (Decidable (∀ t ∈ log.submissions, t ∈ log.finishes))

namespace Queue

/-- Once all tasks have finished, they have carried out what was submitted, in some order. -/
theorem Follows.exists_perm {disk : Disk} {log : QueueHistory} {q : Queue} {d : Delivery}
    (h : Follows disk log q d) (hall : log.AllFinished) :
    ∃ order, order.Perm (log.submissions.map Task.upload) ∧ d = runUploads disk order .none := by
  have hnodup : log.submissions.Nodup := List.Nodup.of_map Task.number h.tasks.nodup
  have hperm := (List.perm_ext_iff_of_nodup h.tasks.finished_nodup hnodup).mpr fun t =>
    ⟨fun ht => h.tasks.finished_subset ht, hall t⟩
  exact ⟨_, hperm.map Task.upload, h.tasks.delivery⟩

/-- **Uploads in the background lose nothing, and their order makes no difference.** Whatever is
submitted, finishes and is waited for, and in whatever order:

- tasks are numbered as they are submitted, and each is for an upload of the schedule;
- in flight are the tasks since the last drain that have not finished, and all of them are held;
- when a drain that has given up no task is over, all tasks since the drain before have finished;
- the tasks that a drain has given up had not finished at its deadline;
- once all tasks have finished, there is one failure for each file that cannot be read; and if the
  files of one object have the same contents, the bucket has the contents of all files that can be
  read under the paths of their keys, and any other schedule of the same uploads leads to the same
  bucket;
- keys are of one object exactly if they have the same segments, and a key of letters, digits, `_`
  and `-` is its own path. -/
theorem background_uploads (disk : Disk) (schedule : List QueueEvent) :
    let log := history disk schedule
    let q := (empty.run disk schedule .none).1
    let d := (empty.run disk schedule .none).2
    (log.submissions.map Task.number = List.range q.submitted ∧
      (log.submissions.map Task.upload).Sublist (schedule.filterMap QueueEvent.upload?)) ∧
    (q.inFlight = (log.unfinished log.recent).length ∧
      ∀ t ∈ log.recent, t ∉ log.finishes → t.number ∈ q.held) ∧
    (q.drain = none → .drainStarted ∉ log) ∧
    (∀ drain, q.drain = some drain → ∃ before after, log.LastDrain before after ∧
      (q.isDraining = false → q.abandoned = 0 → ∀ t ∈ before.recent, t ∈ log.finishes) ∧
      drain.abandoned.Nodup ∧
      ∀ number ∈ drain.abandoned, ∃ t ∈ before.recent, t.number = number ∧
        UnfinishedAtDeadline before after t) ∧
    (log.AllFinished →
      d.failures.Perm (log.submissions.filterMap fun t => t.upload.failure? disk) ∧
      (ObjectsAgree disk (log.submissions.map Task.upload) →
        d.bucket.Sorted ∧
        (∀ k c, (k, c) ∈ d.bucket ↔
          ∃ t ∈ log.submissions, objectPath t.upload.key = k ∧ disk.read t.upload.path = .ok c) ∧
        ∀ schedule', (history disk schedule').AllFinished →
          ((history disk schedule').submissions.map Task.upload).Perm
            (log.submissions.map Task.upload) →
          (empty.run disk schedule' .none).2.bucket = d.bucket)) ∧
    (∀ key key', objectPath key = objectPath key' ↔ keySegments key = keySegments key') ∧
    ∀ key, PlainKey key → objectPath key = key := by
  intro log q d
  have h : Follows disk log q d := follows_history disk schedule
  refine ⟨⟨h.tasks.numbers, submissions_occurrences_sublist disk schedule empty .none⟩,
    ⟨h.held.inFlight_eq h.tasks, h.held.unfinished⟩, h.drain.undrained, ?_, ?_,
    fun _ _ => objectPath_eq_iff, fun _ hkey => hkey.objectPath_eq⟩
  · intro drain hdrain
    obtain ⟨before, after, hfollows⟩ := h.drain.drained drain hdrain
    -- a drain splits what it waits for into what it gave up and what it still awaits
    have hnodup : (drain.abandoned ++ drain.awaited).Nodup :=
      h.tasks.nodup.sublist (hfollows.taken.trans (hfollows.sublist_submissions.map _))
    refine ⟨before, after, hfollows.started, fun hover hnone t ht => ?_,
      (List.nodup_append.mp hnodup).1, fun number hnumber => ?_⟩
    · rw [isDraining, hdrain, Option.any_some, Bool.not_eq_false', List.isEmpty_iff] at hover
      rw [Queue.abandoned, hdrain, Option.map_some, Option.getD_some,
        List.length_eq_zero_iff] at hnone
      -- a task that had not ended would be given up or awaited, and both lists are empty
      by_contra hunfinished
      have hmem := hfollows.unfinished t ht hunfinished
      rw [hover, hnone] at hmem
      cases hmem
    · obtain ⟨t, ht, rfl⟩ :=
        List.mem_map.mp (hfollows.taken.mem (List.mem_append_left _ hnumber))
      exact ⟨t, ht, rfl, hfollows.abandoned t ht hnumber⟩
  · intro hall
    -- some order of the tasks gives the delivery, and the contents do not depend on which
    obtain ⟨order, hperm, hd⟩ := h.exists_perm hall
    rw [hd]
    refine ⟨?_, fun hagree => ⟨sorted_runUploads List.Pairwise.nil, fun k c => ?_, ?_⟩⟩
    · rw [failures_runUploads]
      refine (hperm.filterMap _).trans ?_
      rw [List.filterMap_map]
      exact List.Perm.refl _
    · rw [hagree.bucket_eq_of_perm hperm, hagree.mem_bucket_iff]
      simp only [List.mem_map, exists_exists_and_eq_and]
    · intro schedule' hall' hsame
      obtain ⟨order', hperm', hd'⟩ := (follows_history disk schedule').exists_perm hall'
      rw [hd', hagree.bucket_eq_of_perm hperm, hagree.bucket_eq_of_perm (hperm'.trans hsame)]

/-- A disk on which all files are the same, but for one that is lost. -/
def lostShot : Disk := fun path =>
  if path = "lost.png" then .error .notFound else .ok (.file [1])

/-- One of four uploads has finished before a drain starts, two finish during the drain, and one
only after its deadline, when the drain has given it up. -/
def lateUpload : List QueueEvent :=
  [.submit ⟨.screenshot, "a.png", "4_3_1"⟩, .submit ⟨.screenshot, "lost.png", "4_3_2"⟩, .finish 1,
    .submit ⟨.screenshot, "b.png", "4_3_1"⟩, .submit ⟨.video, "a.mp4", "videos//3"⟩, .startDrain,
    .finish 2, .finish 3, .expire, .await, .await, .await, .finish 0]

theorem objectsAgree_lostShot (uploads : List Upload) : ObjectsAgree lostShot uploads := by
  have hread : ∀ {path c}, lostShot.read path = .ok c → c = [1] := by
    intro path c h
    unfold Disk.read lostShot at h
    split at h
    · cases h
    · cases h
      rfl
  intro u _ v _ _ c c' hc hc'
  rw [hread hc, hread hc']

/-- What was given up is delivered all the same. -/
theorem background_uploads_lateUpload :
    (history lostShot lateUpload).AllFinished ∧
      (empty.run lostShot lateUpload .none).1.abandoned = 1 ∧
      (∃ before after t, (history lostShot lateUpload).LastDrain before after ∧ t.number = 0 ∧
        UnfinishedAtDeadline before after t) ∧
      ("4_3_1", [1]) ∈ (empty.run lostShot lateUpload .none).2.bucket ∧
      (objectPath "videos/3", [1]) ∈ (empty.run lostShot lateUpload .none).2.bucket ∧
      (empty.run lostShot lateUpload .none).2.failures.Perm
        [⟨⟨.screenshot, "lost.png", "4_3_2"⟩, .notFound⟩] := by
  have hall : (history lostShot lateUpload).AllFinished := by decide
  obtain ⟨-, -, -, hdrains, hdelivered, hpaths, hplain⟩ := background_uploads lostShot lateUpload
  obtain ⟨hfailures, hbucket⟩ := hdelivered hall
  obtain ⟨-, hmem, -⟩ := hbucket (objectsAgree_lostShot _)
  obtain ⟨before, after, hlast, -, -, habandoned⟩ := hdrains ⟨[], true, [0]⟩ (by decide)
  obtain ⟨t, -, hnumber, hlate⟩ := habandoned 0 List.mem_cons_self
  refine ⟨hall, by decide, ⟨before, after, t, hlast, hnumber, hlate⟩, ?_, ?_, hfailures⟩
  · refine (hmem "4_3_1" [1]).mpr ⟨⟨0, ⟨.screenshot, "a.png", "4_3_1"⟩⟩, by decide, ?_, by decide⟩
    exact hplain "4_3_1" (by decide +kernel)
  · refine (hmem _ [1]).mpr ⟨⟨3, ⟨.video, "a.mp4", "videos//3"⟩⟩, by decide, ?_, by decide⟩
    exact (hpaths "videos//3" "videos/3").mpr (by decide +kernel)

/-- A disk with two files that differ. -/
def twoShots : Disk := fun path =>
  if path = "a.png" then .ok (.file [0x78])
  else if path = "b.png" then .ok (.file [0x79])
  else .error .notFound

/-- An upload under a key that is not ASCII, and the drain that waits for it. -/
def accentedKey : List QueueEvent :=
  [.submit ⟨.screenshot, "a.png", "é"⟩, .startDrain, .finish 0, .await]

/-- Uploads under two keys of one object, of which the one with the number `first` finishes
first. -/
def sharedObject (first second : Nat) : List QueueEvent :=
  [.submit ⟨.screenshot, "a.png", "a//b"⟩, .submit ⟨.screenshot, "b.png", "a/b"⟩, .startDrain,
    .finish first, .finish second, .await, .await]

/-- A bucket does not have what was uploaded under the keys as they are written. Where all tasks
have finished and no key was used twice, an object is kept under another name than its key, and two
keys have one object, which depends on who was last. -/
theorem accentedKey_not_kept :
    ((history twoShots accentedKey).AllFinished ∧
      (∀ t ∈ (history twoShots accentedKey).submissions,
        ∀ t' ∈ (history twoShots accentedKey).submissions, t.upload.key = t'.upload.key →
          twoShots.read t.upload.path = twoShots.read t'.upload.path) ∧
      (empty.run twoShots accentedKey .none).2.bucket.keys = ["%C3%A9"] ∧
      ¬ ∀ k c, (k, c) ∈ (empty.run twoShots accentedKey .none).2.bucket ↔
        ∃ t ∈ (history twoShots accentedKey).submissions, t.upload.key = k ∧
          twoShots.read t.upload.path = .ok c) ∧
    (history twoShots (sharedObject 0 1)).AllFinished ∧
    (history twoShots (sharedObject 1 0)).AllFinished ∧
    (empty.run twoShots (sharedObject 0 1) .none).2.bucket = [("a/b", [0x79])] ∧
    (empty.run twoShots (sharedObject 1 0) .none).2.bucket = [("a/b", [0x78])] := by
  have hbucket : (empty.run twoShots accentedKey .none).2.bucket = [("%C3%A9", [0x78])] := by
    decide +kernel
  refine ⟨⟨by decide, by decide, by rw [hbucket]; rfl, fun h => ?_⟩, by decide, by decide,
    by decide +kernel, by decide +kernel⟩
  have hmem := (h "é" [0x78]).mpr ⟨⟨0, ⟨.screenshot, "a.png", "é"⟩⟩, by decide, rfl, by decide⟩
  rw [hbucket, List.mem_singleton] at hmem
  exact absurd (congrArg Prod.fst hmem) (by decide +kernel)

end Queue

end RunJournal
