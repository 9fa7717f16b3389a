import RunJournal.Proofs.Store.Growth

/-!
# Upserts converge

An attempt or a shard may be asked for any number of times, by any number of recorders that know
nothing of each other. Whoever asks with the same key is given the same row, whoever asks with
another key another one, and the row holds what it was asked for with first. Of these values one may
still change: a shard that was started may be done later, and then it is done for good.

`UpsertsConverge` says this of the calls that were made so far and of the tables that they have
left, and `upserts_converge` is the main statement: it holds after any sequence of requests to empty
tables. The invariants are `AttemptsTraced` and `MatricesTraced`, which trace each row to the first
call that was answered with it.
-/

namespace RunJournal

/-- The attempt that a call was answered with, and the values it was asked for with. -/
def Call.upsertedAttempt? : Call → Option (NewAttempt × AttemptId)
  | ⟨.upsertAttempt row, .ok id⟩ => some (row, id)
  | _ => none

/-- The shard that a call was answered with, and the values it was asked for with. -/
def Call.upsertedMatrix? : Call → Option (NewMatrix × MatrixId)
  | ⟨.upsertMatrix row, .ok id⟩ => some (row, id)
  | _ => none

/-- Whether a call has marked the shard `matrix` as done. -/
def Call.finishes (matrix : MatrixId) : Call → Bool
  | ⟨.finishMatrix id, .ok _⟩ => id == matrix
  | _ => false

/-- The attempts that calls were answered with, in order. -/
def upsertedAttempts (calls : List Call) : List (NewAttempt × AttemptId) :=
  calls.filterMap Call.upsertedAttempt?

/-- The shards that calls were answered with, in order. -/
def upsertedMatrices (calls : List Call) : List (NewMatrix × MatrixId) :=
  calls.filterMap Call.upsertedMatrix?

/-- The status of a shard that was asked for with the status `first`, after calls. -/
def statusAfter (calls : List Call) (matrix : MatrixId) (first : MatrixStatus) : MatrixStatus :=
  if calls.any (Call.finishes matrix) then .done else first

/-- Equal keys are answered with equal rows, and a row has the values of the first call for it. -/
structure UpsertsConverge (calls : List Call) (t : Tables) : Prop where
  attempt_ids : ∀ x ∈ upsertedAttempts calls, ∀ y ∈ upsertedAttempts calls,
    x.2 = y.2 ↔ x.1.key = y.1.key
  matrix_ids : ∀ x ∈ upsertedMatrices calls, ∀ y ∈ upsertedMatrices calls,
    x.2 = y.2 ↔ x.1.key = y.1.key
  attempt_values : ∀ x ∈ upsertedAttempts calls, ∃ first r,
    (upsertedAttempts calls).find? (fun y => y.1.key = x.1.key) = some first ∧
      t.attempt? x.2 = some r ∧ r.values = first.1
  matrix_values : ∀ x ∈ upsertedMatrices calls, ∃ first r,
    (upsertedMatrices calls).find? (fun y => y.1.key = x.1.key) = some first ∧
      t.matrix? x.2 = some r ∧
      r.values = { first.1 with status := statusAfter calls x.2 first.1.status }

/-- Each call for an attempt was answered with a row of its key, and each row is the answer to the
first call for its key. -/
structure AttemptsTraced (calls : List Call) (t : Tables) : Prop where
  answered : ∀ x ∈ upsertedAttempts calls, ∃ r ∈ t.attempts, r.id = x.2 ∧ r.values.key = x.1.key
  first : ∀ r ∈ t.attempts,
    (upsertedAttempts calls).find? (fun x => x.1.key = r.values.key) = some (r.values, r.id)

/-- Each call for a shard was answered with a row of its key, each row is the answer to the first
call for its key, and only rows were marked as done. -/
structure MatricesTraced (calls : List Call) (t : Tables) : Prop where
  answered : ∀ x ∈ upsertedMatrices calls, ∃ r ∈ t.matrices, r.id = x.2 ∧ r.values.key = x.1.key
  first : ∀ r ∈ t.matrices, ∃ row,
    (upsertedMatrices calls).find? (fun x => x.1.key = r.values.key) = some (row, r.id) ∧
      r.values = { row with status := statusAfter calls r.id row.status }
  finished : ∀ id, calls.any (Call.finishes id) = true → id ∈ t.matrices.map (·.id)

variable {calls : List Call} {t t' : Tables}

/-! ## One more call -/

theorem upsertedAttempts_concat (c : Call) :
    upsertedAttempts (calls ++ [c]) = upsertedAttempts calls ++ c.upsertedAttempt?.toList := by
  rw [upsertedAttempts, List.filterMap_append]
  cases h : c.upsertedAttempt? with
  | none => simp [upsertedAttempts, h]
  | some x => simp [upsertedAttempts, h]

theorem upsertedMatrices_concat (c : Call) :
    upsertedMatrices (calls ++ [c]) = upsertedMatrices calls ++ c.upsertedMatrix?.toList := by
  rw [upsertedMatrices, List.filterMap_append]
  cases h : c.upsertedMatrix? with
  | none => simp [upsertedMatrices, h]
  | some x => simp [upsertedMatrices, h]

theorem any_finishes_concat (c : Call) (id : MatrixId) :
    (calls ++ [c]).any (Call.finishes id) = (calls.any (Call.finishes id) || c.finishes id) := by
  simp

/-- A call that does not mark the shard leaves its status. -/
theorem statusAfter_concat {c : Call} {id : MatrixId} (hc : c.finishes id = false)
    (first : MatrixStatus) : statusAfter (calls ++ [c]) id first = statusAfter calls id first := by
  rw [statusAfter, any_finishes_concat, hc, Bool.or_false, statusAfter]

/-! ## Attempts -/

namespace AttemptsTraced

/-- A call that is not answered with an attempt leaves the attempts with what they hold for good. -/
theorem frame (h : AttemptsTraced calls t) {c : Call} (hc : c.upsertedAttempt? = none)
    (hrows : t'.attempts.map AttemptRow.lasting = t.attempts.map AttemptRow.lasting) :
    AttemptsTraced (calls ++ [c]) t' := by
  have hcalls : upsertedAttempts (calls ++ [c]) = upsertedAttempts calls := by
    rw [upsertedAttempts_concat, hc, Option.toList_none, List.append_nil]
  -- rows correspond by what lasts of them, in both directions
  constructor
  · intro x hx
    rw [hcalls] at hx
    obtain ⟨r, hr, hid, hkey⟩ := h.answered x hx
    have hmem := List.mem_map_of_mem (f := AttemptRow.lasting) hr
    rw [← hrows] at hmem
    obtain ⟨r', hr', hlasting⟩ := List.mem_map.mp hmem
    have hid' : r'.id = r.id := congrArg Prod.fst hlasting
    have hvalues : r'.values = r.values := congrArg Prod.snd hlasting
    exact ⟨r', hr', hid'.trans hid, hvalues ▸ hkey⟩
  · intro r' hr'
    have hmem := List.mem_map_of_mem (f := AttemptRow.lasting) hr'
    rw [hrows] at hmem
    obtain ⟨r, hr, hlasting⟩ := List.mem_map.mp hmem
    have hid : r.id = r'.id := congrArg Prod.fst hlasting
    have hvalues : r.values = r'.values := congrArg Prod.snd hlasting
    rw [hcalls, ← hid, ← hvalues]
    exact h.first r hr

/-- An attempt that was there is answered with once more. -/
theorem found (h : AttemptsTraced calls t) {row : NewAttempt} {r : AttemptRow}
    (hmem : r ∈ t.attempts) (hkey : r.values.key = row.key) :
    AttemptsTraced (calls ++ [⟨.upsertAttempt row, .ok r.id⟩]) t := by
  have hcalls : upsertedAttempts (calls ++ [⟨.upsertAttempt row, .ok r.id⟩]) =
      upsertedAttempts calls ++ [(row, r.id)] := upsertedAttempts_concat _
  constructor
  · intro x hx
    rw [hcalls] at hx
    rcases List.mem_append.mp hx with hx | hx
    · exact h.answered x hx
    · rw [List.mem_singleton.mp hx]
      exact ⟨r, hmem, rfl, hkey⟩
  · intro other hother
    rw [hcalls, List.find?_append, h.first other hother]
    rfl

/-- An attempt that was not there is traced to the call that has made it. -/
theorem made (h : AttemptsTraced calls t) {row : NewAttempt}
    (hnew : ∀ r ∈ t.attempts, r.values.key ≠ row.key) :
    AttemptsTraced (calls ++ [⟨.upsertAttempt row, .ok t.freshId⟩]) (t.addAttempt row) := by
  have hcalls : upsertedAttempts (calls ++ [⟨.upsertAttempt row, .ok t.freshId⟩]) =
      upsertedAttempts calls ++ [(row, t.freshId)] := upsertedAttempts_concat _
  constructor
  · intro x hx
    rw [hcalls] at hx
    rcases List.mem_append.mp hx with hx | hx
    · obtain ⟨r, hr, hx⟩ := h.answered x hx
      exact ⟨r, List.mem_append_left _ hr, hx⟩
    · rw [List.mem_singleton.mp hx]
      exact ⟨_, List.mem_append_right _ (List.mem_singleton.mpr rfl), rfl, rfl⟩
  · intro r hr
    rw [hcalls, List.find?_append]
    rcases List.mem_append.mp hr with hr | hr
    · rw [h.first r hr]
      rfl
    · -- an earlier call for the key would have been answered with a row of that key
      have hnone : (upsertedAttempts calls).find? (fun x => x.1.key = row.key) = none := by
        refine List.find?_eq_none.mpr fun x hx hkey => ?_
        obtain ⟨r, hr, -, hr_key⟩ := h.answered x hx
        exact hnew r hr (hr_key.trans (of_decide_eq_true hkey))
      rw [List.mem_singleton.mp hr, hnone]
      simp

end AttemptsTraced

/-! ## Shards -/

namespace MatricesTraced

/-- A call that is not answered with a shard and marks none leaves the shards as they are. -/
theorem frame (h : MatricesTraced calls t) {c : Call} (hc : c.upsertedMatrix? = none)
    (hfinishes : ∀ id, c.finishes id = false) (hrows : t'.matrices = t.matrices) :
    MatricesTraced (calls ++ [c]) t' := by
  have hcalls : upsertedMatrices (calls ++ [c]) = upsertedMatrices calls := by
    rw [upsertedMatrices_concat, hc, Option.toList_none, List.append_nil]
  refine ⟨fun x hx => ?_, fun r hr => ?_, fun id hid => ?_⟩
  · rw [hcalls] at hx
    rw [hrows]
    exact h.answered x hx
  · rw [hrows] at hr
    obtain ⟨row, hfind, hvalues⟩ := h.first r hr
    refine ⟨row, hcalls ▸ hfind, ?_⟩
    rw [statusAfter_concat (hfinishes r.id)]
    exact hvalues
  · rw [any_finishes_concat, hfinishes, Bool.or_false] at hid
    rw [hrows]
    exact h.finished id hid

/-- A shard that was there is answered with once more, whatever status it was asked for with. -/
theorem found (h : MatricesTraced calls t) {row : NewMatrix} {r : MatrixRow}
    (hmem : r ∈ t.matrices) (hkey : r.values.key = row.key) :
    MatricesTraced (calls ++ [⟨.upsertMatrix row, .ok r.id⟩]) t := by
  have hcalls : upsertedMatrices (calls ++ [⟨.upsertMatrix row, .ok r.id⟩]) =
      upsertedMatrices calls ++ [(row, r.id)] := upsertedMatrices_concat _
  refine ⟨fun x hx => ?_, fun other hother => ?_, fun id hid => ?_⟩
  · rw [hcalls] at hx
    rcases List.mem_append.mp hx with hx | hx
    · exact h.answered x hx
    · rw [List.mem_singleton.mp hx]
      exact ⟨r, hmem, rfl, hkey⟩
  · obtain ⟨first, hfind, hvalues⟩ := h.first other hother
    refine ⟨first, ?_, ?_⟩
    · rw [hcalls, List.find?_append, hfind]
      rfl
    · rw [statusAfter_concat rfl]
      exact hvalues
  · rw [any_finishes_concat] at hid
    exact h.finished id ((Bool.or_false _).symm.trans hid)

/-- A shard that was not there is traced to the call that has made it, and not marked yet. -/
theorem made (h : MatricesTraced calls t) (ht : t.WellFormed) {row : NewMatrix}
    (hnew : ∀ r ∈ t.matrices, r.values.key ≠ row.key) :
    MatricesTraced (calls ++ [⟨.upsertMatrix row, .ok t.freshId⟩]) (t.addMatrix row) := by
  have hcalls : upsertedMatrices (calls ++ [⟨.upsertMatrix row, .ok t.freshId⟩]) =
      upsertedMatrices calls ++ [(row, t.freshId)] := upsertedMatrices_concat _
  refine ⟨fun x hx => ?_, fun r hr => ?_, fun id hid => ?_⟩
  · rw [hcalls] at hx
    rcases List.mem_append.mp hx with hx | hx
    · obtain ⟨r, hr, hx⟩ := h.answered x hx
      exact ⟨r, List.mem_append_left _ hr, hx⟩
    · rw [List.mem_singleton.mp hx]
      exact ⟨_, List.mem_append_right _ (List.mem_singleton.mpr rfl), rfl, rfl⟩
  · rcases List.mem_append.mp hr with hr | hr
    · obtain ⟨first, hfind, hvalues⟩ := h.first r hr
      refine ⟨first, ?_, ?_⟩
      · rw [hcalls, List.find?_append, hfind]
        rfl
      · rw [statusAfter_concat rfl]
        exact hvalues
    · have hnone : (upsertedMatrices calls).find? (fun x => x.1.key = row.key) = none := by
        refine List.find?_eq_none.mpr fun x hx hkey => ?_
        obtain ⟨r, hr, -, hr_key⟩ := h.answered x hx
        exact hnew r hr (hr_key.trans (of_decide_eq_true hkey))
      -- nothing was marked under an identifier that was still to be given
      have hunmarked : calls.any (Call.finishes t.freshId) = false := by
        refine Bool.eq_false_iff.mpr fun hmarked => ?_
        have hlt := ht.lt_freshId (Tables.mem_ids_of_matrix (h.finished _ hmarked))
        exact Int.lt_irrefl _ hlt
      rw [List.mem_singleton.mp hr]
      refine ⟨row, ?_, ?_⟩
      · rw [hcalls, List.find?_append, hnone]
        simp
      · rw [statusAfter_concat rfl, statusAfter, hunmarked]
        rfl
  · rw [any_finishes_concat] at hid
    have hold := h.finished id ((Bool.or_false _).symm.trans hid)
    rw [Tables.addMatrix, List.map_append]
    exact List.mem_append_left _ hold

/-- A shard that is marked is done from now on, and the others keep their status. -/
theorem marked (h : MatricesTraced calls t) {matrix : MatrixId}
    (hmatrix : t.hasMatrix matrix = true) :
    MatricesTraced (calls ++ [⟨.finishMatrix matrix, .ok ()⟩]) (t.markDone matrix) := by
  have hcalls : upsertedMatrices (calls ++ [⟨.finishMatrix matrix, .ok ()⟩]) =
      upsertedMatrices calls := by
    rw [upsertedMatrices_concat]
    exact List.append_nil _
  have hsame := Tables.sameRows_markDone matrix t
  -- no upsert is new; the rows keep ids and keys, and one of them is now done
  refine ⟨fun x hx => ?_, fun r' hr' => ?_, fun id hid => ?_⟩
  · rw [hcalls] at hx
    obtain ⟨r, hr, hid, hkey⟩ := h.answered x hx
    obtain ⟨r', hr', hlasting⟩ := hsame.extends.exists_matrix hr
    have hid' : r'.id = r.id := congrArg Prod.fst hlasting
    have hkey' : r'.values.key = r.values.key := congrArg (fun p => p.2.key) hlasting
    exact ⟨r', hr', hid'.trans hid, hkey'.trans hkey⟩
  · obtain ⟨r, hr, hr'⟩ := List.mem_map.mp hr'
    obtain ⟨row, hfind, hvalues⟩ := h.first r hr
    rw [hcalls]
    split at hr'
    · rename_i hid
      subst hr'
      refine ⟨row, hfind, ?_⟩
      have hdone : statusAfter (calls ++ [⟨.finishMatrix matrix, .ok ()⟩]) r.id row.status =
          .done := by
        rw [statusAfter, any_finishes_concat, hid]
        simp [Call.finishes]
      show { r.values with status := MatrixStatus.done } = _
      rw [hdone, hvalues]
    · rename_i hid
      subst hr'
      refine ⟨row, hfind, ?_⟩
      rw [statusAfter_concat (by simpa [Call.finishes] using fun heq => hid heq.symm)]
      exact hvalues
  -- finished before, or by this call
  · rw [any_finishes_concat, Bool.or_eq_true] at hid
    rw [hsame.matrix_ids]
    rcases hid with hold | hmarked
    · exact h.finished id hold
    · rw [← eq_of_beq hmarked]
      exact Tables.hasMatrix_iff.mp hmatrix

end MatricesTraced

/-! ## Sequences of requests -/

namespace Tables

/-- A request that is served is traced. -/
theorem Served.traced {q : Request} {answer : q.Answer} (hserved : Served t q answer t')
    (ht : t.WellFormed) (hattempts : AttemptsTraced calls t) (hmatrices : MatricesTraced calls t) :
    AttemptsTraced (calls ++ [⟨q, .ok answer⟩]) t' ∧
      MatricesTraced (calls ++ [⟨q, .ok answer⟩]) t' := by
  cases hserved with
  | attemptFound hmem hkey =>
    exact ⟨hattempts.found hmem hkey, hmatrices.frame rfl (fun _ => rfl) rfl⟩
  | attemptMade hnew => exact ⟨hattempts.made hnew, hmatrices.frame rfl (fun _ => rfl) rfl⟩
  | matrixFound hmem hkey => exact ⟨hattempts.frame rfl rfl, hmatrices.found hmem hkey⟩
  | matrixMade hnew hattempt => exact ⟨hattempts.frame rfl rfl, hmatrices.made ht hnew⟩
  | specMade hmatrix =>
    exact ⟨hattempts.frame rfl rfl, hmatrices.frame rfl (fun _ => rfl) rfl⟩
  | specCompleted hspec =>
    exact ⟨hattempts.frame rfl rfl, hmatrices.frame rfl (fun _ => rfl) rfl⟩
  | testMade hspec => exact ⟨hattempts.frame rfl rfl, hmatrices.frame rfl (fun _ => rfl) rfl⟩
  | matrixFinished hmatrix => exact ⟨hattempts.frame rfl rfl, hmatrices.marked hmatrix⟩
  | attemptFinished hattempt =>
    exact ⟨hattempts.frame rfl (sameRows_setEndTime _ _ t).attempts,
      hmatrices.frame rfl (fun _ => rfl) rfl⟩
  | closed => exact ⟨hattempts.frame rfl rfl, hmatrices.frame rfl (fun _ => rfl) rfl⟩

/-- A request that fails leaves no trace. -/
theorem traced_of_failed (q : Request) (cause : StoreError) (hattempts : AttemptsTraced calls t)
    (hmatrices : MatricesTraced calls t) :
    AttemptsTraced (calls ++ [⟨q, .error cause⟩]) t ∧
      MatricesTraced (calls ++ [⟨q, .error cause⟩]) t := by
  cases q <;> exact ⟨hattempts.frame rfl rfl, hmatrices.frame rfl (fun _ => rfl) rfl⟩

/-- The calls of any requests are traced, after calls that are. -/
theorem traced_serveAll (requests : List Request) (ht : t.WellFormed)
    (hattempts : AttemptsTraced calls t) (hmatrices : MatricesTraced calls t) :
    AttemptsTraced (calls ++ callsOf requests t) (t.serveAll requests) ∧
      MatricesTraced (calls ++ callsOf requests t) (t.serveAll requests) := by
  -- identifiers that are given stay new only in well-formed tables
  have htraced := callsOf_induction
    (motive := fun calls t => t.WellFormed ∧ AttemptsTraced calls t ∧ MatricesTraced calls t)
    requests ⟨ht, hattempts, hmatrices⟩
    (fun q cause h => ⟨h.1, traced_of_failed q cause h.2.1 h.2.2⟩)
    (fun h hserved => ⟨hserved.wellFormed h.1, hserved.traced h.1 h.2.1 h.2.2⟩)
  exact htraced.2

/-- A shard that is done stays as it is. -/
theorem Served.mem_of_done {q : Request} {answer : q.Answer} (hserved : Served t q answer t')
    {r : MatrixRow} (hr : r ∈ t.matrices) (hdone : r.values.status = .done) : r ∈ t'.matrices := by
  cases hserved with
  | matrixMade hnew hattempt => exact List.mem_append_left _ hr
  | matrixFinished hmatrix =>
    refine List.mem_map.mpr ⟨r, hr, ?_⟩
    split
    · rw [← hdone]
    · rfl
  | _ => exact hr

/-- Calls that are traced converge. -/
theorem upsertsConverge_of_traced (ht : t.WellFormed) (hattempts : AttemptsTraced calls t)
    (hmatrices : MatricesTraced calls t) : UpsertsConverge calls t := by
  refine ⟨fun x hx y hy => ?_, fun x hx y hy => ?_, fun x hx => ?_, fun x hx => ?_⟩
  · obtain ⟨a, ha, ha_id, ha_key⟩ := hattempts.answered x hx
    obtain ⟨b, hb, hb_id, hb_key⟩ := hattempts.answered y hy
    rw [← ha_id, ← hb_id, ← ha_key, ← hb_key]
    exact ⟨fun hid => by rw [ht.attempt_eq_of_id ha hb hid],
      fun hkey => by rw [ht.attempt_eq_of_key ha hb hkey]⟩
  · obtain ⟨a, ha, ha_id, ha_key⟩ := hmatrices.answered x hx
    obtain ⟨b, hb, hb_id, hb_key⟩ := hmatrices.answered y hy
    rw [← ha_id, ← hb_id, ← ha_key, ← hb_key]
    exact ⟨fun hid => by rw [ht.matrix_eq_of_id ha hb hid],
      fun hkey => by rw [ht.matrix_eq_of_key ha hb hkey]⟩
  · obtain ⟨r, hr, hid, hkey⟩ := hattempts.answered x hx
    rw [← hkey, ← hid]
    exact ⟨_, r, hattempts.first r hr, ht.attempt?_eq_some_iff.mpr ⟨hr, rfl⟩, rfl⟩
  · obtain ⟨r, hr, hid, hkey⟩ := hmatrices.answered x hx
    obtain ⟨row, hfind, hvalues⟩ := hmatrices.first r hr
    rw [← hkey, ← hid]
    exact ⟨_, r, hfind, ht.matrix?_eq_some_iff.mpr ⟨hr, rfl⟩, hvalues⟩

/-- **Upserts converge.** After any requests to empty tables, two calls for an attempt or for a
shard were answered with the same row exactly if they had the same key, and the row has the values
of the first call for it, but for a shard that was marked as done. What is done stays done, whatever
is asked `later`. -/
theorem upserts_converge (requests later : List Request) :
    UpsertsConverge (callsOf requests empty) (empty.serveAll requests) ∧
      ∀ r ∈ (empty.serveAll requests).matrices, r.values.status = .done →
        r ∈ (empty.serveAll (requests ++ later)).matrices := by
  constructor
  · have hattempts : AttemptsTraced [] empty :=
      ⟨fun _ hx => absurd hx List.not_mem_nil, fun _ hr => absurd hr List.not_mem_nil⟩
    have hmatrices : MatricesTraced [] empty :=
      ⟨fun _ hx => absurd hx List.not_mem_nil, fun _ hr => absurd hr List.not_mem_nil,
        fun _ hid => absurd hid Bool.false_ne_true⟩
    obtain ⟨hattempts, hmatrices⟩ := traced_serveAll requests wellFormed_empty hattempts hmatrices
    exact upsertsConverge_of_traced (wellFormed_empty.serveAll requests) hattempts hmatrices
  · intro r hr hdone
    rw [serveAll_append]
    exact serveAll_induction (motive := fun t => r ∈ t.matrices) later hr
      fun hmem hserved => hserved.mem_of_done hmem hdone

end Tables

end RunJournal
