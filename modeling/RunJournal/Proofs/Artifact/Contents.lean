import Mathlib.Data.List.Induction
import RunJournal.Proofs.Artifact.Delivery

/-!
# Contents of a bucket

Where uploads of one object have the same contents (`ObjectsAgree`), a bucket in the end has the
contents of every file that could be read, under the path of its key (`ObjectsAgree.mem_bucket_iff`).
The order of the uploads is not seen in it, since a bucket is told by its objects (`Sorted.ext`).
The failures are told by the uploads whose files cannot be read (`failures_runUploads`).
-/

namespace RunJournal

/-! ## Objects of a bucket -/

namespace Bucket

variable {bucket other : Bucket} {path k : String} {contents c : List UInt8}

theorem mem_keys_of_mem (h : (k, c) ∈ bucket) : k ∈ bucket.keys := List.mem_map_of_mem h

/-- An object is put under a path and leaves the others alone. -/
theorem Sorted.mem_putAt_iff (h : bucket.Sorted) :
    (k, c) ∈ bucket.putAt path contents ↔
      (k = path ∧ c = contents) ∨ (k ≠ path ∧ (k, c) ∈ bucket) := by
  induction bucket with
  | nil => simp [Bucket.putAt]
  | cons head rest ih =>
    obtain ⟨name, old⟩ := head
    obtain ⟨hhead, hrest⟩ := List.pairwise_cons.mp h
    have hlater : (k, c) ∈ rest → k ≠ name := fun hmem => (hhead k (mem_keys_of_mem hmem)).ne'
    rw [Bucket.putAt]
    split
    · rename_i hlt
      -- the path is less than all names from here on, so none of them is replaced
      have hne : (k, c) ∈ (name, old) :: rest → k ≠ path := by
        intro hmem
        rcases List.mem_cons.mp hmem with heq | hmem
        · cases heq
          exact hlt.ne'
        · exact (lt_trans hlt (hhead k (mem_keys_of_mem hmem))).ne'
      rw [List.mem_cons, Prod.mk.injEq]
      exact or_congr_right (iff_and_self.mpr hne)
    · split
      -- the name stands there already, and its contents are replaced
      · rename_i heq
        subst heq
        rw [List.mem_cons, List.mem_cons, Prod.mk.injEq, Prod.mk.injEq]
        refine or_congr_right ⟨fun hmem => ⟨hlater hmem, .inr hmem⟩, ?_⟩
        rintro ⟨hne, ⟨heq, -⟩ | hmem⟩
        · exact absurd heq hne
        · exact hmem
      · rename_i hne
        rw [List.mem_cons, List.mem_cons, ih hrest, Prod.mk.injEq]
        constructor
        · rintro (⟨rfl, rfl⟩ | hput | ⟨hk, hmem⟩)
          · exact .inr ⟨fun heq => hne heq.symm, .inl ⟨rfl, rfl⟩⟩
          · exact .inl hput
          · exact .inr ⟨hk, .inr hmem⟩
        · rintro (hput | ⟨hk, hold | hmem⟩)
          · exact .inr (.inl hput)
          · exact .inl hold
          · exact .inr (.inr ⟨hk, hmem⟩)

/-- Buckets with the same objects are the same. -/
theorem Sorted.ext (h : bucket.Sorted) (hother : other.Sorted)
    (hmem : ∀ k c, (k, c) ∈ bucket ↔ (k, c) ∈ other) : bucket = other := by
  have hnodup : ∀ {b : Bucket}, b.Sorted → b.Nodup := fun hb =>
    List.Nodup.of_map Prod.fst (hb.imp fun hlt => hlt.ne)
  have hperm := (List.perm_ext_iff_of_nodup (hnodup h) (hnodup hother)).mpr fun o => hmem o.1 o.2
  exact hperm.eq_of_pairwise (fun a b _ _ hab hba => absurd hba (lt_asymm hab))
    (List.pairwise_map.mp h) (List.pairwise_map.mp hother)

end Bucket

/-! ## What uploads come to -/

section Uploads

variable {disk : Disk} {uploads : List Upload}

/-- The failure of an upload, if its file cannot be read. -/
def Upload.failure? (disk : Disk) (u : Upload) : Option UploadFailure :=
  match disk.read u.path with
  | .ok _ => none
  | .error cause => some ⟨u, cause⟩

/-- Uploads of one object have the same contents, as far as they can be read. -/
def ObjectsAgree (disk : Disk) (uploads : List Upload) : Prop :=
  ∀ u ∈ uploads, ∀ v ∈ uploads, objectPath u.key = objectPath v.key →
    ∀ c c', disk.read u.path = .ok c → disk.read v.path = .ok c' → c = c'

theorem runUploads_concat (disk : Disk) (uploads : List Upload) (u : Upload) (d : Delivery) :
    runUploads disk (uploads ++ [u]) d = u.run disk (runUploads disk uploads d) :=
  List.foldl_concat ..

/-- **A bucket has the contents of all files that could be read**, under the paths of their
keys. -/
theorem ObjectsAgree.mem_bucket_iff (h : ObjectsAgree disk uploads) {k : String} {c : List UInt8} :
    (k, c) ∈ (runUploads disk uploads .none).bucket ↔
      ∃ u ∈ uploads, objectPath u.key = k ∧ disk.read u.path = .ok c := by
  induction uploads using List.reverseRecOn with
  | nil => exact ⟨nofun, nofun⟩
  | append_singleton uploads u ih =>
    have hbefore : ObjectsAgree disk uploads := fun v hv w hw =>
      h v (List.mem_append_left _ hv) w (List.mem_append_left _ hw)
    have hu : u ∈ uploads ++ [u] := List.mem_append_right _ List.mem_cons_self
    have hsorted : (runUploads disk uploads .none).bucket.Sorted :=
      sorted_runUploads List.Pairwise.nil
    rw [runUploads_concat, Upload.run]
    simp only [List.mem_append, List.mem_singleton, or_and_right, exists_or, exists_eq_left,
      ← ih hbefore]
    cases hread : disk.read u.path with
    | error cause => simp
    | ok contents =>
      simp only [Except.ok.injEq]
      rw [Bucket.put, hsorted.mem_putAt_iff]
      constructor
      · rintro (⟨rfl, rfl⟩ | ⟨-, hmem⟩)
        · exact .inr ⟨rfl, rfl⟩
        · exact .inl hmem
      · rintro (hmem | ⟨rfl, rfl⟩)
        · by_cases hpath : k = objectPath u.key
          · -- what is there under the path of the last upload has its contents
            obtain ⟨v, hv, hvpath, hvread⟩ := (ih hbefore).mp hmem
            exact .inl ⟨hpath, h v (List.mem_append_left _ hv) u hu (hvpath.trans hpath) c contents
              hvread hread⟩
          · exact .inr ⟨hpath, hmem⟩
        · exact .inl ⟨rfl, rfl⟩

/-- **Each file that could not be read is a failure**, and there are no others. -/
theorem failures_runUploads (disk : Disk) (uploads : List Upload) :
    (runUploads disk uploads .none).failures = uploads.filterMap (Upload.failure? disk) := by
  induction uploads using List.reverseRecOn with
  | nil => rfl
  | append_singleton uploads u ih =>
    rw [runUploads_concat, Upload.run, List.filterMap_append, ← ih, List.filterMap_cons,
      Upload.failure?]
    cases disk.read u.path with
    | ok contents => exact (List.append_nil _).symm
    | error cause => rfl

/-- Uploads in another order put the same objects into a bucket. -/
theorem ObjectsAgree.bucket_eq_of_perm (h : ObjectsAgree disk uploads) {others : List Upload}
    (hperm : others.Perm uploads) :
    (runUploads disk others .none).bucket = (runUploads disk uploads .none).bucket := by
  have hothers : ObjectsAgree disk others := fun u hu v hv =>
    h u (hperm.mem_iff.mp hu) v (hperm.mem_iff.mp hv)
  have hsorted : ∀ us : List Upload, (runUploads disk us .none).bucket.Sorted := fun us =>
    sorted_runUploads List.Pairwise.nil
  refine (hsorted others).ext (hsorted uploads) fun k c => ?_
  rw [hothers.mem_bucket_iff, h.mem_bucket_iff]
  simp only [hperm.mem_iff]

end Uploads

end RunJournal
