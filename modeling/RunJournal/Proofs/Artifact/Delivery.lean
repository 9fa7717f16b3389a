import Mathlib.Data.List.Nodup
import Mathlib.Data.String.Basic
import RunJournal.Recording

/-!
# What uploads leave behind

A bucket holds one object a path, in increasing order of the paths, and an upload whose file can be
read adds the path of its key and takes none away. The paths in the end are thus those of the
uploads whose files can be read (`mem_keys_runUploads`), in whatever order they were carried out
(`keys_runUploads_of_perm`).

Uploads are carried out by the tasks of a queue, which may finish at any moment. However they do,
each upload that the queue has accepted is carried out once or is still under way
(`Queue.Carries.step`), so that a schedule that leaves no task running has carried out all of them,
in some order (`Settles.exists_perm`). The drain in which all tasks finish in time has carried them
out in the order of their submission (`deliver_eq`).
-/

namespace RunJournal

/-- There is a file at a path, and it can be read. -/
def Disk.Readable (disk : Disk) (path : String) : Prop := ∃ contents, disk.read path = .ok contents

/-! ## Keys of a bucket -/

namespace Bucket

/-- Keys in strictly increasing order. -/
def Sorted (bucket : Bucket) : Prop := bucket.keys.Pairwise (· < ·)

variable {bucket : Bucket} {path : String} {contents : List UInt8}

/-- An object that is put somewhere adds its path and takes none away. -/
theorem mem_keys_putAt {p : String} :
    p ∈ (bucket.putAt path contents).keys ↔ p = path ∨ p ∈ bucket.keys := by
  induction bucket with
  | nil => exact List.mem_cons
  | cons head rest ih =>
    obtain ⟨name, old⟩ := head
    rw [putAt]
    split
    · exact List.mem_cons
    · split
      · rename_i heq
        subst heq
        show p ∈ path :: Bucket.keys rest ↔ p = path ∨ p ∈ path :: Bucket.keys rest
        rw [List.mem_cons, ← or_assoc, or_self_iff]
      · show p ∈ name :: (Bucket.putAt path contents rest).keys ↔
          p = path ∨ p ∈ name :: Bucket.keys rest
        rw [List.mem_cons, List.mem_cons, ih]
        exact or_left_comm

/-- A bucket stays sorted, with each name once. -/
theorem Sorted.putAt (h : bucket.Sorted) (path : String) (contents : List UInt8) :
    (bucket.putAt path contents).Sorted := by
  induction bucket with
  | nil => exact List.pairwise_singleton _ _
  | cons head rest ih =>
    obtain ⟨name, old⟩ := head
    obtain ⟨hhead, hrest⟩ := List.pairwise_cons.mp h
    rw [Bucket.putAt]
    -- the object goes in front of the head, replaces it, or goes further on
    split
    · rename_i hlt
      refine List.pairwise_cons.mpr ⟨fun p hp => ?_, h⟩
      rcases List.mem_cons.mp hp with rfl | hp
      · exact hlt
      · exact lt_trans hlt (hhead p hp)
    · split
      · rename_i heq
        subst heq
        exact h
      · rename_i hnot hne
        refine List.pairwise_cons.mpr ⟨fun p hp => ?_, ih hrest⟩
        rcases mem_keys_putAt.mp hp with rfl | hp
        · exact lt_of_le_of_ne (not_lt.mp hnot) (Ne.symm hne)
        · exact hhead p hp

/-- Buckets with the same keys have them in the same order. -/
theorem Sorted.keys_eq {other : Bucket} (h : bucket.Sorted) (hother : other.Sorted)
    (hmem : ∀ k, k ∈ bucket.keys ↔ k ∈ other.keys) : bucket.keys = other.keys := by
  have hnodup : bucket.keys.Nodup := h.imp fun hlt => hlt.ne
  have hnodup' : other.keys.Nodup := hother.imp fun hlt => hlt.ne
  have hperm := (List.perm_ext_iff_of_nodup hnodup hnodup').mpr hmem
  exact hperm.eq_of_pairwise (fun a b _ _ hab hba => absurd hba (lt_asymm hab)) h hother

end Bucket

/-! ## Uploads in a row -/

variable {disk : Disk} {u : Upload} {uploads : List Upload} {d : Delivery}

/-- An upload adds the path of its key if its file can be read. -/
theorem mem_keys_run {k : String} :
    k ∈ (u.run disk d).bucket.keys ↔
      (disk.Readable u.path ∧ k = objectPath u.key) ∨ k ∈ d.bucket.keys := by
  rw [Upload.run, Disk.Readable]
  cases hread : disk.read u.path with
  | ok contents => simp [Bucket.put, Bucket.mem_keys_putAt]
  | error cause => simp

theorem sorted_run (h : d.bucket.Sorted) : (u.run disk d).bucket.Sorted := by
  rw [Upload.run]
  cases disk.read u.path with
  | ok contents => exact h.putAt (objectPath u.key) contents
  | error cause => exact h

/-- **The keys are those of the uploads whose files can be read**, as their paths. -/
theorem mem_keys_runUploads {k : String} :
    k ∈ (runUploads disk uploads d).bucket.keys ↔
      (∃ u ∈ uploads, disk.Readable u.path ∧ k = objectPath u.key) ∨ k ∈ d.bucket.keys := by
  induction uploads generalizing d with
  | nil => simp [runUploads]
  | cons u rest ih =>
    show k ∈ (runUploads disk rest (u.run disk d)).bucket.keys ↔ _
    rw [ih, mem_keys_run, List.exists_mem_cons_iff, or_assoc]
    exact or_left_comm

/-- A bucket stays sorted through any uploads. -/
theorem sorted_runUploads (h : d.bucket.Sorted) : (runUploads disk uploads d).bucket.Sorted := by
  induction uploads generalizing d with
  | nil => exact h
  | cons u rest ih => exact ih (sorted_run h)

/-- The order in which uploads are carried out makes no difference to the keys. -/
theorem keys_runUploads_of_perm {others : List Upload} (hperm : others.Perm uploads)
    (h : d.bucket.Sorted) :
    (runUploads disk others d).bucket.keys = (runUploads disk uploads d).bucket.keys := by
  refine (sorted_runUploads h).keys_eq (sorted_runUploads h) fun k => ?_
  rw [mem_keys_runUploads, mem_keys_runUploads]
  simp only [hperm.mem_iff]

/-! ## Uploads of a queue -/

/-- The upload that something that happens to a queue submits. -/
def QueueEvent.upload? : QueueEvent → Option Upload
  | .submit u => some u
  | _ => none

/-- A schedule for uploads: they are submitted in order, and no task is left running. What else
happens, and when each task finishes, is left open. -/
structure Settles (disk : Disk) (uploads : List Upload) (schedule : List QueueEvent) : Prop where
  submitted : schedule.filterMap QueueEvent.upload? = uploads
  /-- None of them came when a drain was at work. -/
  accepted : (Queue.empty.run disk schedule .none).1.submitted = uploads.length
  idle : (Queue.empty.run disk schedule .none).1.running = []

namespace Queue

/-- The tasks that are running have different numbers, of which none is to come. -/
structure Numbered (q : Queue) : Prop where
  nodup : (q.running.map Task.number).Nodup
  lt : ∀ t ∈ q.running, t.number < q.submitted

theorem numbered_empty : empty.Numbered := ⟨List.nodup_nil, fun _ ht => absurd ht List.not_mem_nil⟩

variable {q : Queue}

/-- A new task has a number that no task before it had. -/
theorem Numbered.submit (h : q.Numbered) (u : Upload) : (q.submit u).Numbered := by
  constructor
  · show ((q.running ++ [(⟨q.submitted, u⟩ : Task)]).map Task.number).Nodup
    rw [List.map_append, List.nodup_append]
    refine ⟨h.nodup, List.nodup_singleton _, ?_⟩
    rintro number hnumber other hother rfl
    obtain ⟨t, ht, rfl⟩ := List.mem_map.mp hnumber
    have hlt := h.lt t ht
    rw [List.mem_singleton.mp hother] at hlt
    exact absurd hlt (lt_irrefl _)
  · intro t ht
    rcases List.mem_append.mp ht with ht | ht
    · exact Nat.lt_succ_of_lt (h.lt t ht)
    · rw [List.mem_singleton.mp ht]
      exact Nat.lt_succ_self _

/-- What was submitted runs, as long as nothing finishes. -/
theorem foldl_submit (h : q.Numbered) (uploads : List Upload) :
    let q' := uploads.foldl (fun q u => q.submit u) q
    q'.Numbered ∧ q'.running.map Task.upload = q.running.map Task.upload ++ uploads ∧
      q'.drain = q.drain := by
  induction uploads generalizing q with
  | nil => exact ⟨h, (List.append_nil _).symm, rfl⟩
  | cons u rest ih =>
    obtain ⟨hnumbered, hrunning, hdrain⟩ := ih (h.submit u)
    refine ⟨hnumbered, hrunning.trans ?_, hdrain⟩
    show (q.running ++ [(⟨q.submitted, u⟩ : Task)]).map Task.upload ++ rest = _
    rw [List.map_append, List.append_assoc]
    rfl

theorem run_append (disk : Disk) (xs ys : List QueueEvent) (q : Queue) (d : Delivery) :
    q.run disk (xs ++ ys) d = (q.run disk xs d).1.run disk ys (q.run disk xs d).2 :=
  List.foldl_append

/-- A task that finishes carries out its upload and runs no more; all others run on. -/
theorem finish_of_split {xs ys : List Task} {t : Task} (h : q.running = xs ++ t :: ys)
    (hnodup : (q.running.map Task.number).Nodup) (disk : Disk) (d : Delivery) :
    q.finish disk t.number d = ({ q with running := xs ++ ys }, t.upload.run disk d) := by
  have hothers : ∀ other ∈ xs ++ ys, other.number ≠ t.number := by
    rw [h, List.map_append, List.map_cons, List.nodup_middle, ← List.map_append,
      List.nodup_cons] at hnodup
    intro other hother heq
    exact hnodup.1 (heq ▸ List.mem_map_of_mem hother)
  have hfind : q.running.find? (fun other => other.number == t.number) = some t := by
    have hnone : xs.find? (fun other => other.number == t.number) = none := by
      refine List.find?_eq_none.mpr fun other hother heq => ?_
      exact hothers other (List.mem_append_left _ hother) (eq_of_beq heq)
    rw [h, List.find?_append, hnone]
    show (t :: ys).find? (fun other => other.number == t.number) = some t
    exact List.find?_cons_of_pos (beq_self_eq_true t.number)
  have hfilter : q.running.filter (fun other => other.number != t.number) = xs ++ ys := by
    rw [h, List.filter_append, List.filter_cons_of_neg (by simp), ← List.filter_append]
    exact List.filter_eq_self.mpr fun other hother => bne_iff_ne.mpr (hothers other hother)
  rw [finish, hfind, hfilter]

/-- Tasks that finish one after the other carry out their uploads. -/
theorem run_finish (disk : Disk) (q : Queue) (hnodup : (q.running.map Task.number).Nodup)
    (d : Delivery) :
    (q.run disk (q.running.map fun t => .finish t.number) d).2 =
      runUploads disk (q.running.map Task.upload) d := by
  generalize htasks : q.running = tasks
  induction tasks generalizing q d with
  | nil => rfl
  | cons t rest ih =>
    have hsplit : q.running = [] ++ t :: rest := htasks
    have hfinish := finish_of_split hsplit hnodup disk d
    have hrest : (rest.map Task.number).Nodup := by
      rw [htasks, List.map_cons, List.nodup_cons] at hnodup
      exact hnodup.2
    have hnext := ih { q with running := rest } hrest (t.upload.run disk d) rfl
    rw [List.map_cons, List.map_cons]
    show ((q.finish disk t.number d).1.run disk _ (q.finish disk t.number d).2).2 = _
    rw [hfinish]
    exact hnext

/-- Looking at tasks delivers nothing. -/
theorem run_await (disk : Disk) {α : Type} (xs : List α) (q : Queue) (d : Delivery) :
    (q.run disk (xs.map fun _ => .await) d).2 = d := by
  induction xs generalizing q with
  | nil => rfl
  | cons x rest ih => exact ih q.await

/-- **A drain in which all tasks finish in time carries out all uploads.** -/
theorem drainAll_eq (h : q.Numbered) (hdrain : q.drain = none) (disk : Disk) (d : Delivery) :
    (q.drainAll disk d).2 = runUploads disk (q.running.map Task.upload) d := by
  have hstart : (if q.isDraining then q else q.startDrain) = q.startDrain := by
    rw [isDraining, hdrain]
    rfl
  have hfinish := run_finish disk q.startDrain h.nodup d
  rw [drainAll, run_append, run_await]
  show (Queue.run disk _ (if q.isDraining then q else q.startDrain) d).2 = _
  rw [hstart]
  exact hfinish

/-! ### Schedules -/

/-- What has become of uploads: some were carried out, one after the other, and the tasks of the
others are running. -/
structure Carries (disk : Disk) (uploads : List Upload) (q : Queue) (d : Delivery) : Prop where
  numbered : q.Numbered
  submitted : q.submitted = uploads.length
  delivery : ∃ done, d = runUploads disk done .none ∧
    (done ++ q.running.map Task.upload).Perm uploads

variable {disk : Disk} {uploads : List Upload} {d : Delivery}

theorem carries_empty (disk : Disk) : Carries disk [] empty .none where
  numbered := numbered_empty
  submitted := rfl
  delivery := ⟨[], rfl, List.Perm.refl _⟩

/-- Tasks that run on carry what they did. -/
theorem Carries.of_eq {q' : Queue} (h : Carries disk uploads q d)
    (hrunning : q'.running = q.running) (hsubmitted : q'.submitted = q.submitted) :
    Carries disk uploads q' d where
  numbered := ⟨hrunning ▸ h.numbered.nodup, by rw [hrunning, hsubmitted]; exact h.numbered.lt⟩
  submitted := hsubmitted.trans h.submitted
  delivery := hrunning ▸ h.delivery

/-- A submission is carried: it is running now. -/
theorem Carries.submit (h : Carries disk uploads q d) (u : Upload) :
    Carries disk (uploads ++ [u]) (q.submit u) d where
  numbered := h.numbered.submit u
  submitted := by
    rw [List.length_append, ← h.submitted]
    rfl
  delivery := by
    obtain ⟨done, hdone, hperm⟩ := h.delivery
    refine ⟨done, hdone, ?_⟩
    show (done ++ (q.running ++ [(⟨q.submitted, u⟩ : Task)]).map Task.upload).Perm _
    rw [List.map_append, ← List.append_assoc]
    exact hperm.append_right [u]

/-- What a task leaves behind when it finishes joins what was carried out before. -/
theorem Carries.finish (h : Carries disk uploads q d) (number : Nat) :
    Carries disk uploads (q.finish disk number d).1 (q.finish disk number d).2 := by
  cases hfind : q.running.find? fun t => t.number == number with
  | none =>
    rw [Queue.finish, hfind]
    exact h
  | some t =>
    obtain rfl : t.number = number :=
      eq_of_beq (List.find?_some (p := fun t : Task => t.number == number) hfind)
    -- the task goes from those that are running to those that are done
    obtain ⟨xs, ys, hsplit⟩ := List.append_of_mem (List.mem_of_find?_eq_some hfind)
    rw [finish_of_split hsplit h.numbered.nodup]
    have hsub : (xs ++ ys).Sublist q.running := by
      rw [hsplit]
      exact (List.sublist_cons_self t ys).append_left xs
    obtain ⟨done, rfl, hperm⟩ := h.delivery
    refine ⟨⟨h.numbered.nodup.sublist (hsub.map _), fun t ht => h.numbered.lt t (hsub.mem ht)⟩,
      h.submitted, done ++ [t.upload], ?_, ?_⟩
    · rw [runUploads, runUploads, List.foldl_concat]
    · refine List.Perm.trans ?_ hperm
      rw [hsplit, List.map_append, List.map_append, List.map_cons, List.append_assoc,
        List.singleton_append]
      exact (List.perm_middle.append_left done).symm

theorem running_await (q : Queue) :
    q.await.running = q.running ∧ q.await.submitted = q.submitted := by
  rw [await]
  split
  · split
    · exact ⟨rfl, rfl⟩
    · split <;> exact ⟨rfl, rfl⟩
  · exact ⟨rfl, rfl⟩

/-- Whatever happens next, each upload that was accepted is carried out or still under way. -/
theorem Carries.step (h : Carries disk uploads q d) (e : QueueEvent) :
    ∃ accepted, accepted.Sublist ([e].filterMap QueueEvent.upload?) ∧
      Carries disk (uploads ++ accepted) (q.step disk e d).1 (q.step disk e d).2 := by
  have hnone : Carries disk (uploads ++ []) q d := by
    rw [List.append_nil]
    exact h
  -- only a submission adds to what is carried, and only when no drain waits
  cases e with
  | submit u =>
    rw [Queue.step]
    by_cases hdraining : q.isDraining = true
    · rw [if_pos hdraining]
      exact ⟨[], List.nil_sublist _, hnone⟩
    · rw [if_neg hdraining]
      exact ⟨[u], List.Sublist.refl _, h.submit u⟩
  | finish number => exact ⟨[], List.nil_sublist _, hnone.finish number⟩
  | startDrain =>
    refine ⟨[], List.nil_sublist _, ?_⟩
    rw [Queue.step]
    by_cases hdraining : q.isDraining = true
    · rw [if_pos hdraining]
      exact hnone
    · rw [if_neg hdraining]
      exact hnone.of_eq rfl rfl
  | expire => exact ⟨[], List.nil_sublist _, hnone.of_eq rfl rfl⟩
  | await =>
    obtain ⟨hrunning, hsubmitted⟩ := running_await q
    exact ⟨[], List.nil_sublist _, hnone.of_eq hrunning hsubmitted⟩

/-- Whatever the schedule, what was accepted was carried out or is still running. -/
theorem Carries.run (h : Carries disk uploads q d) (schedule : List QueueEvent) :
    ∃ accepted, accepted.Sublist (schedule.filterMap QueueEvent.upload?) ∧
      Carries disk (uploads ++ accepted) (q.run disk schedule d).1 (q.run disk schedule d).2 := by
  -- event by event, from the state that the events before it have left
  induction schedule generalizing uploads q d with
  | nil =>
    refine ⟨[], List.nil_sublist _, ?_⟩
    rw [List.append_nil]
    exact h
  | cons e rest ih =>
    obtain ⟨first, hfirst, hstep⟩ := h.step e
    obtain ⟨accepted, haccepted, hrun⟩ := ih hstep
    refine ⟨first ++ accepted, ?_, List.append_assoc .. ▸ hrun⟩
    rw [← List.singleton_append, List.filterMap_append]
    exact hfirst.append haccepted

end Queue

/-- **A schedule that settles carries out every upload once**, in some order. -/
theorem Settles.exists_perm {disk : Disk} {uploads : List Upload} {schedule : List QueueEvent}
    (h : Settles disk uploads schedule) :
    ∃ order, order.Perm uploads ∧
      (Queue.empty.run disk schedule .none).2 = runUploads disk order .none := by
  obtain ⟨accepted, hsub, hcarries⟩ := (Queue.carries_empty disk).run schedule
  rw [h.submitted] at hsub
  -- as many were accepted as were submitted, so all of them were
  obtain rfl : accepted = uploads := hsub.eq_of_length (hcarries.submitted.symm.trans h.accepted)
  obtain ⟨done, hdone, hperm⟩ := hcarries.delivery
  rw [h.idle, List.map_nil, List.append_nil] at hperm
  exact ⟨done, hperm, hdone⟩

/-- Whenever its tasks finish, a schedule that settles leaves the same keys behind. -/
theorem Settles.keys_eq {disk : Disk} {uploads : List Upload} {schedule : List QueueEvent}
    (h : Settles disk uploads schedule) :
    (Queue.empty.run disk schedule .none).2.bucket.keys =
      (runUploads disk uploads .none).bucket.keys := by
  obtain ⟨order, hperm, hrun⟩ := h.exists_perm
  rw [hrun]
  exact keys_runUploads_of_perm hperm List.Pairwise.nil

/-- The later upload is carried out first, and the earlier one after the deadline. -/
example (disk : Disk) (u v : Upload) :
    Settles disk [u, v] [.submit u, .submit v, .startDrain, .finish 1, .expire, .finish 0] :=
  ⟨rfl, rfl, rfl⟩

/-! ## Waiting for uploads -/

/-- **What was submitted is carried out**, in the order in which it was submitted. -/
theorem deliver_eq (disk : Disk) (uploads : List Upload) :
    deliver disk uploads = runUploads disk uploads .none := by
  obtain ⟨hnumbered, hrunning, hdrain⟩ := Queue.foldl_submit Queue.numbered_empty uploads
  rw [deliver, Queue.drainAll_eq hnumbered hdrain, hrunning]
  rfl

/-- A wait that comes to an end has carried out all uploads. -/
theorem deliverWithin_eq_ok {clock : Instant} {grace : Nat} {delivery : Delivery}
    (h : deliverWithin disk clock grace uploads = .ok delivery) :
    delivery = runUploads disk uploads .none := by
  rw [deliverWithin] at h
  split at h
  · rename_i hempty
    cases h
    rw [List.isEmpty_iff.mp hempty]
    rfl
  · split at h
    · cases h
    · cases h
      exact deliver_eq disk uploads

/-- Whether a wait comes to an end does not depend on the files. -/
theorem exists_deliverWithin_eq_ok {clock : Instant} {grace : Nat} {delivery : Delivery}
    (h : deliverWithin disk clock grace uploads = .ok delivery) (other : Disk) :
    ∃ delivery', deliverWithin other clock grace uploads = .ok delivery' := by
  rw [deliverWithin] at h ⊢
  split
  · exact ⟨_, rfl⟩
  · rename_i hne
    rw [if_neg hne] at h
    cases hdeadline : clock.after? grace with
    | none =>
      rw [hdeadline] at h
      cases h
    | some deadline => exact ⟨_, rfl⟩

end RunJournal
