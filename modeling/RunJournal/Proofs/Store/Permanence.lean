import RunJournal.Proofs.Store.Growth

/-!
# History is never rewritten

Tables change in two ways: a row is put at the end of its table, or one value of a row is set that
the row does not hold for good. `Tables.Advances` says what becomes of rows in this way. Every row
stays at its place with all that it holds for good; a shard that was started may be done later, and
not the other way round; and an attempt that has ended, or a spec that has its summary, never goes
back to having none.

The values that are set are not free either. `Tables.Reflects` says that each of them is the one
that was set last, read off the calls that were made so far.

`history_permanent` is the main statement: both hold between any state of a store and any later one,
and of a store that was closed there is no later state but the one that it was closed in.
-/

namespace RunJournal

/-- The end that a call has given to the attempt `id`. -/
def Call.endTime? (id : AttemptId) : Call → Option Timestamp
  | ⟨.finishAttempt attempt endTime, .ok _⟩ => if attempt = id then some endTime else none
  | _ => none

/-- The summary that a call has given to the spec `id`. -/
def Call.summary? (id : SpecId) : Call → Option SpecSummary
  | ⟨.completeSpec spec summary, .ok _⟩ => if spec = id then some summary else none
  | _ => none

/-- What an attempt may become. -/
structure AttemptRow.Advances (r r' : AttemptRow) : Prop where
  lasting : r'.lasting = r.lasting
  endTime : r.endTime ≠ none → r'.endTime ≠ none

/-- What a shard may become. -/
structure MatrixRow.Advances (r r' : MatrixRow) : Prop where
  lasting : r'.lasting = r.lasting
  status : r'.values.status = r.values.status ∨
    r.values.status = .started ∧ r'.values.status = .done

/-- What a spec may become. -/
structure SpecRow.Advances (r r' : SpecRow) : Prop where
  lasting : r'.lasting = r.lasting
  summary : r.summary ≠ none → r'.summary ≠ none

/-- Every row is still at its place, and has become what `R` allows. -/
def KeepsPlaces {α : Type} (R : α → α → Prop) (rows rows' : List α) : Prop :=
  ∀ (i : Nat) (r : α), rows[i]? = some r → ∃ r' : α, rows'[i]? = some r' ∧ R r r'

/-- What becomes of the rows of tables. -/
structure Tables.Advances (t t' : Tables) : Prop where
  attempts : KeepsPlaces AttemptRow.Advances t.attempts t'.attempts
  matrices : KeepsPlaces MatrixRow.Advances t.matrices t'.matrices
  specs : KeepsPlaces SpecRow.Advances t.specs t'.specs

/-- The ends and the summaries in tables are those that calls have set last. -/
structure Tables.Reflects (calls : List Call) (t : Tables) : Prop where
  endTimes : ∀ id, (t.attempt? id).bind AttemptRow.endTime = lastAnswer (Call.endTime? id) calls
  summaries : ∀ id, (t.spec? id).bind SpecRow.summary = lastAnswer (Call.summary? id) calls

/-! ## Rows -/

namespace AttemptRow.Advances

variable {r r' r'' : AttemptRow}

theorem refl (r : AttemptRow) : r.Advances r := ⟨rfl, fun hset => hset⟩

theorem trans (h₁ : r.Advances r') (h₂ : r'.Advances r'') : r.Advances r'' :=
  ⟨h₂.lasting.trans h₁.lasting, fun hset => h₂.endTime (h₁.endTime hset)⟩

end AttemptRow.Advances

namespace MatrixRow.Advances

variable {r r' r'' : MatrixRow}

theorem refl (r : MatrixRow) : r.Advances r := ⟨rfl, .inl rfl⟩

/-- A status goes from started to done and not back. -/
theorem trans (h₁ : r.Advances r') (h₂ : r'.Advances r'') : r.Advances r'' := by
  refine ⟨h₂.lasting.trans h₁.lasting, ?_⟩
  -- the status moves in the first part, in the second or in neither
  rcases h₁.status with hsame₁ | ⟨hstarted, hdone⟩
  · rw [← hsame₁]
    exact h₂.status
  · -- what is done stays done
    rcases h₂.status with hsame₂ | ⟨hstarted₂, -⟩
    · exact .inr ⟨hstarted, hsame₂.trans hdone⟩
    · rw [hdone] at hstarted₂
      cases hstarted₂

end MatrixRow.Advances

namespace SpecRow.Advances

variable {r r' r'' : SpecRow}

theorem refl (r : SpecRow) : r.Advances r := ⟨rfl, fun hset => hset⟩

theorem trans (h₁ : r.Advances r') (h₂ : r'.Advances r'') : r.Advances r'' :=
  ⟨h₂.lasting.trans h₁.lasting, fun hset => h₂.summary (h₁.summary hset)⟩

end SpecRow.Advances

/-! ## Places -/

section Places

variable {α : Type} {R : α → α → Prop}

theorem keepsPlaces_self (hrefl : ∀ r, R r r) (rows : List α) : KeepsPlaces R rows rows :=
  fun _ r hr => ⟨r, hr, hrefl r⟩

theorem KeepsPlaces.trans (htrans : ∀ {r r' r''}, R r r' → R r' r'' → R r r'')
    {rows rows' rows'' : List α} (h₁ : KeepsPlaces R rows rows') (h₂ : KeepsPlaces R rows' rows'') :
    KeepsPlaces R rows rows'' := by
  intro i r hr
  obtain ⟨r', hr', hR₁⟩ := h₁ i r hr
  obtain ⟨r'', hr'', hR₂⟩ := h₂ i r' hr'
  exact ⟨r'', hr'', htrans hR₁ hR₂⟩

/-- Rows that are put at the end move none. -/
theorem keepsPlaces_append (hrefl : ∀ r, R r r) (rows new : List α) :
    KeepsPlaces R rows (rows ++ new) := by
  intro i r hr
  obtain ⟨hlt, -⟩ := List.getElem?_eq_some_iff.mp hr
  exact ⟨r, (List.getElem?_append_left hlt).trans hr, hrefl r⟩

/-- A value that is set in rows moves none. -/
theorem keepsPlaces_map {f : α → α} (hf : ∀ r, R r (f r)) (rows : List α) :
    KeepsPlaces R rows (rows.map f) := by
  intro i r hr
  refine ⟨f r, ?_, hf r⟩
  rw [List.getElem?_map, hr]
  rfl

end Places

namespace Tables

variable {t t' t'' : Tables} {calls : List Call}

/-! ## What becomes of rows -/

theorem Advances.refl (t : Tables) : t.Advances t :=
  ⟨keepsPlaces_self .refl _, keepsPlaces_self .refl _, keepsPlaces_self .refl _⟩

theorem Advances.trans (h₁ : t.Advances t') (h₂ : t'.Advances t'') : t.Advances t'' :=
  ⟨h₁.attempts.trans .trans h₂.attempts, h₁.matrices.trans .trans h₂.matrices,
    h₁.specs.trans .trans h₂.specs⟩

/-- A matrix that is finished advances, and no other row moves. -/
theorem advances_markDone (matrix : MatrixId) (t : Tables) : t.Advances (t.markDone matrix) := by
  refine { Advances.refl t with matrices := keepsPlaces_map (fun r => ?_) t.matrices }
  split
  · refine ⟨rfl, ?_⟩
    -- a matrix that was done before stays as it is
    cases hstatus : r.values.status with
    | started => exact .inr ⟨rfl, rfl⟩
    | done => exact .inl rfl
  · exact .refl r

theorem advances_setSummary (spec : SpecId) (summary : SpecSummary) (t : Tables) :
    t.Advances (t.setSummary spec summary) := by
  refine { Advances.refl t with specs := keepsPlaces_map (fun r => ?_) t.specs }
  split
  · exact ⟨rfl, fun _ => Option.some_ne_none summary⟩
  · exact .refl r

theorem advances_setEndTime (attempt : AttemptId) (endTime : Timestamp) (t : Tables) :
    t.Advances (t.setEndTime attempt endTime) := by
  refine { Advances.refl t with attempts := keepsPlaces_map (fun r => ?_) t.attempts }
  split
  · exact ⟨rfl, fun _ => Option.some_ne_none endTime⟩
  · exact .refl r

/-- **A request that is served leaves every row at its place**, and sets values in one direction
only. -/
theorem Served.advances {q : Request} {answer : q.Answer} (hserved : Served t q answer t') :
    t.Advances t' := by
  cases hserved with
  | attemptMade hnew =>
    exact { Advances.refl t with attempts := keepsPlaces_append .refl _ _ }
  | matrixMade hnew hattempt =>
    exact { Advances.refl t with matrices := keepsPlaces_append .refl _ _ }
  | specMade hmatrix => exact { Advances.refl t with specs := keepsPlaces_append .refl _ _ }
  | specCompleted hspec => exact advances_setSummary _ _ t
  | matrixFinished hmatrix => exact advances_markDone _ t
  | attemptFinished hattempt => exact advances_setEndTime _ _ t
  | attemptFound hmem hkey => exact .refl t
  | matrixFound hmem hkey => exact .refl t
  | testMade hspec =>
    exact ⟨keepsPlaces_self .refl _, keepsPlaces_self .refl _, keepsPlaces_self .refl _⟩
  | closed => exact ⟨keepsPlaces_self .refl _, keepsPlaces_self .refl _, keepsPlaces_self .refl _⟩

/-- Whatever is asked for, the tables advance. -/
theorem advances_serveAll (requests : List Request) (t : Tables) :
    t.Advances (t.serveAll requests) :=
  serveAll_induction (motive := t.Advances) requests (.refl t)
    fun hadvances hserved => hadvances.trans hserved.advances

/-! ## Values that were set last -/

/-- A row that was just made has no value yet. -/
theorem bind_find?_concat {α β : Type} (p : α → Bool) (value : α → Option β) (rows : List α)
    {new : α} (hnew : value new = none) :
    ((rows ++ [new]).find? p).bind value = (rows.find? p).bind value := by
  rw [List.find?_append, List.find?_singleton]
  cases rows.find? p with
  | some r => rfl
  | none =>
    split
    · exact hnew
    · rfl

/-- A value that is set under an identifier is found under that one, and under no other. -/
theorem bind_find?_set {α β : Type} {table : Table} {rowId : α → RowId table}
    (value : α → Option β) (update : α → α) {v : β} (hid : ∀ r, rowId (update r) = rowId r)
    (hvalue : ∀ r, value (update r) = some v) {rows : List α} {target : RowId table}
    (htarget : (rows.any fun r => rowId r == target) = true) (id : RowId table) :
    ((rows.map fun r => if rowId r = target then update r else r).find?
        fun r => rowId r == id).bind value =
      (if target = id then some v else none).or
        ((rows.find? fun r => rowId r == id).bind value) := by
  have hsame : ∀ r, rowId (if rowId r = target then update r else r) = rowId r := by
    intro r
    split
    · exact hid r
    · rfl
  rw [List.find?_map]
  simp only [Function.comp_def, hsame]
  cases hfind : rows.find? fun r => rowId r == id with
  | none =>
    -- there is no row to set a value of, so the identifier is not the one that is set
    have hne : target ≠ id := by
      rintro rfl
      obtain ⟨r, hr, hrid⟩ := List.any_eq_true.mp htarget
      exact List.find?_eq_none.mp hfind r hr hrid
    rw [if_neg hne]
    rfl
  | some r =>
    have hrid : rowId r = id := eq_of_beq (List.find?_some (p := fun x => rowId x == id) hfind)
    rw [Option.map_some, Option.bind_some, Option.bind_some, hrid]
    by_cases hid : id = target
    · rw [if_pos hid, if_pos hid.symm, hvalue, Option.some_or]
    · rw [if_neg hid, if_neg (Ne.symm hid), Option.none_or]

/-- The attempt that was ended has the new end time, and any other the one it had. -/
theorem bind_attempt?_setEndTime {attempt : AttemptId} (hattempt : t.hasAttempt attempt = true)
    (endTime : Timestamp) (id : AttemptId) :
    ((t.setEndTime attempt endTime).attempt? id).bind AttemptRow.endTime =
      (if attempt = id then some endTime else none).or
        ((t.attempt? id).bind AttemptRow.endTime) :=
  bind_find?_set AttemptRow.endTime (fun r => { r with endTime := some endTime }) (fun _ => rfl)
    (fun _ => rfl) hattempt id

/-- The spec that was completed has the new summary, and any other the one it had. -/
theorem bind_spec?_setSummary {spec : SpecId} (hspec : t.hasSpec spec = true)
    (summary : SpecSummary) (id : SpecId) :
    ((t.setSummary spec summary).spec? id).bind SpecRow.summary =
      (if spec = id then some summary else none).or ((t.spec? id).bind SpecRow.summary) :=
  bind_find?_set SpecRow.summary (fun r => { r with summary := some summary }) (fun _ => rfl)
    (fun _ => rfl) hspec id

/-- One call more, which sets the ends and the summaries that it says it sets. -/
theorem Reflects.concat (h : t.Reflects calls) {c : Call}
    (hend : ∀ id, (t'.attempt? id).bind AttemptRow.endTime =
      (c.endTime? id).or ((t.attempt? id).bind AttemptRow.endTime))
    (hsummary : ∀ id, (t'.spec? id).bind SpecRow.summary =
      (c.summary? id).or ((t.spec? id).bind SpecRow.summary)) : t'.Reflects (calls ++ [c]) := by
  constructor
  · intro id
    rw [lastAnswer_concat, hend, h.endTimes]
  · intro id
    rw [lastAnswer_concat, hsummary, h.summaries]

/-- A call that fails sets nothing. -/
theorem Reflects.failed (h : t.Reflects calls) (q : Request) (cause : StoreError) :
    t.Reflects (calls ++ [⟨q, .error cause⟩]) := by
  refine h.concat (fun id => ?_) (fun id => ?_)
  · cases q <;> rfl
  · cases q <;> rfl

/-- **A request that is served sets the value that it says**, and no other. -/
theorem Served.reflects {q : Request} {answer : q.Answer} (hserved : Served t q answer t')
    (h : t.Reflects calls) : t'.Reflects (calls ++ [⟨q, .ok answer⟩]) := by
  cases hserved with
  | attemptMade hnew => exact h.concat (fun id => bind_find?_concat _ _ _ rfl) (fun id => rfl)
  | specMade hmatrix => exact h.concat (fun id => rfl) (fun id => bind_find?_concat _ _ _ rfl)
  | specCompleted hspec => exact h.concat (fun id => rfl) (bind_spec?_setSummary hspec _)
  | attemptFinished hattempt => exact h.concat (bind_attempt?_setEndTime hattempt _) (fun id => rfl)
  | attemptFound hmem hkey => exact h.concat (fun id => rfl) (fun id => rfl)
  | matrixFound hmem hkey => exact h.concat (fun id => rfl) (fun id => rfl)
  | matrixMade hnew hattempt => exact h.concat (fun id => rfl) (fun id => rfl)
  | testMade hspec => exact h.concat (fun id => rfl) (fun id => rfl)
  | matrixFinished hmatrix => exact h.concat (fun id => rfl) (fun id => rfl)
  | closed => exact h.concat (fun id => rfl) (fun id => rfl)

/-- No call has set anything in a new store. -/
theorem reflects_empty : empty.Reflects [] := ⟨fun _ => rfl, fun _ => rfl⟩

/-- Call by call, the tables go on to reflect the calls. -/
theorem Reflects.serveAll (h : t.Reflects calls) (requests : List Request) :
    (t.serveAll requests).Reflects (calls ++ callsOf requests t) :=
  callsOf_induction (motive := fun calls t => t.Reflects calls) requests h
    (fun q cause h => h.failed q cause) (fun h hserved => hserved.reflects h)

/-- The end of an attempt is the one that was set last. -/
theorem Reflects.endTime_eq (h : t.Reflects calls) (ht : t.WellFormed) {r : AttemptRow}
    (hr : r ∈ t.attempts) : r.endTime = lastAnswer (Call.endTime? r.id) calls := by
  rw [← h.endTimes, ht.attempt?_eq_some_iff.mpr ⟨hr, rfl⟩, Option.bind_some]

/-- The summary of a spec is the one that was set last. -/
theorem Reflects.summary_eq (h : t.Reflects calls) (ht : t.WellFormed) {r : SpecRow}
    (hr : r ∈ t.specs) : r.summary = lastAnswer (Call.summary? r.id) calls := by
  rw [← h.summaries, ht.spec?_eq_some_iff.mpr ⟨hr, rfl⟩, Option.bind_some]

/-! ## After the end -/

/-- No request opens tables again. -/
theorem Served.closed_eq_true {q : Request} {answer : q.Answer} (hserved : Served t q answer t')
    (h : t.closed = true) : t'.closed = true := by
  cases hserved with
  | closed => rfl
  | _ => exact h

/-- Tables that a call has closed are closed. -/
theorem closed_of_mem_callsOf (requests : List Request)
    (hclose : (⟨.close, .ok ()⟩ : Call) ∈ callsOf requests t) :
    (t.serveAll requests).closed = true := by
  have hnone : (⟨.close, .ok ()⟩ : Call) ∈ ([] : List Call) → t.closed = true :=
    fun hmem => absurd hmem List.not_mem_nil
  refine callsOf_induction (motive := fun calls t => (⟨.close, .ok ()⟩ : Call) ∈ calls →
    t.closed = true) requests hnone (fun q cause hclosed hmem => ?_)
    (fun {calls t q answer t'} hclosed hserved hmem => ?_) hclose
  · rcases List.mem_append.mp hmem with hmem | hmem
    · exact hclosed hmem
    · -- a call that fails does not close
      cases List.mem_singleton.mp hmem
  · rcases List.mem_append.mp hmem with hmem | hmem
    · exact hserved.closed_eq_true (hclosed hmem)
    · cases List.mem_singleton.mp hmem
      cases hserved
      rfl

/-- **A store that was closed stays as it is**, and says so to every request. -/
theorem serveAll_of_closed (h : t.closed = true) (requests : List Request) :
    t.serveAll requests = t ∧ ∀ c ∈ callsOf requests t, c.answer = .error .closed := by
  induction requests with
  | nil => exact ⟨rfl, fun c hc => absurd hc List.not_mem_nil⟩
  | cons q rest ih =>
    rw [callsOf]
    have hserve : t.serveAll (q :: rest) = (store q t).2.serveAll rest := rfl
    rw [hserve, store_closed h]
    refine ⟨ih.1, fun c hc => ?_⟩
    rcases List.mem_cons.mp hc with rfl | hc
    · rfl
    · exact ih.2 c hc

/-- **History is never rewritten.** Whatever a new store was asked for, and whatever it is asked for
later: every row is kept with what it holds for good, a shard is never again at work that was done,
what was set is never unset and is what was set last, and nothing follows the end. -/
theorem history_permanent (requests later : List Request) :
    let t := empty.serveAll requests
    let t' := empty.serveAll (requests ++ later)
    let calls := callsOf (requests ++ later) empty
    t.Extends t' ∧ t.Advances t' ∧
      (∀ r ∈ t'.attempts, r.endTime = lastAnswer (Call.endTime? r.id) calls) ∧
      (∀ r ∈ t'.specs, r.summary = lastAnswer (Call.summary? r.id) calls) ∧
      ((⟨.close, .ok ()⟩ : Call) ∈ callsOf requests empty →
        t' = t ∧ ∀ c ∈ callsOf later t, c.answer = .error .closed) := by
  intro t t' calls
  have ht' : t' = t.serveAll later := serveAll_append requests later empty
  have hreflects : t'.Reflects calls := reflects_empty.serveAll (requests ++ later)
  have hwellFormed : t'.WellFormed := wellFormed_empty.serveAll (requests ++ later)
  refine ⟨?_, ?_, fun r hr => hreflects.endTime_eq hwellFormed hr,
    fun r hr => hreflects.summary_eq hwellFormed hr, fun hclose => ?_⟩
  · rw [ht']
    exact extends_serveAll later t
  · rw [ht']
    exact advances_serveAll later t
  · rw [ht']
    exact serveAll_of_closed (closed_of_mem_callsOf requests hclose) later

end Tables

end RunJournal
