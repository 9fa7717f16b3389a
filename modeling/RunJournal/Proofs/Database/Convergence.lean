import Mathlib.Logic.Relation
import RunJournal.Proofs.Database.Executed
import RunJournal.Proofs.Database.Transcript
import RunJournal.Proofs.Store.Upserts

/-!
# Gateways that share a database

Any number of gateways, each with a link of its own to one database, in any interleaving of their
statements. A step of `Gateways.Step` is one statement, or the begin or the end of a request, of one
gateway. So whatever the others ask for may come between a statement that was refused a row and the
one that looks for it.

What a dialogue comes to in spite of the others is `Dialogue.Ensures`: whatever rows are added
before each of its statements, its answer is as good as a postcondition says. This is kept by the
steps of others, because rows are only added (`Ensures.mono`), and by its own steps by definition.
`Gateways.converge` is the main statement.
-/

namespace RunJournal

/-- What a server does about a statement. It executes the statement, or it fails it, or it fails
after the statement was executed. -/
inductive Database.Answers (rules : ServerRules) (d : Database) (q : Statement) :
    Reply → Database → Prop where
  | executed {reply : Reply} {d' : Database} (h : d.Executes rules q reply d') :
      Answers rules d q reply d'
  | failed (cause : DatabaseError) : Answers rules d q (.error cause) d
  | unheard {reply : Reply} {d' : Database} (h : d.Executes rules q reply d')
      (cause : DatabaseError) : Answers rules d q (.error cause) d'

/-- A request that a gateway is at work on. -/
structure Pending where
  request : Request
  /-- What has passed so far. -/
  exchanges : List Exchange
  /-- What is left of the conversation. -/
  dialogue : Dialogue (Except StoreError request.Answer)

/-- A gateway that shares its database with others. -/
structure Client where
  link : Link
  pending : Option Pending

/-- Gateways that share a database. -/
structure Gateways (ι : Type) where
  database : Database
  clients : ι → Client
  /-- The requests that were answered, in order. -/
  finished : List TranscriptEntry

namespace Gateways

variable {ι : Type}

/-- Gateways that have done nothing so far. -/
def start (d : Database) (links : ι → Link) : Gateways ι := ⟨d, fun i => ⟨links i, none⟩, []⟩

/-- Sets the database. -/
def setDatabase (S : Gateways ι) (d : Database) : Gateways ι := { S with database := d }

/-- Keeps a record of a request that was answered. -/
def note (S : Gateways ι) (x : TranscriptEntry) : Gateways ι :=
  { S with finished := S.finished ++ [x] }

/-- There is one row for each key, and everybody who has asked for it was answered with it. -/
structure Converged (S : Gateways ι) : Prop where
  attempt_keys : (S.database.attempts.map (·.values.key)).Nodup
  matrix_keys : (S.database.matrices.map (·.values.key)).Nodup
  attempts_agree : ∀ x ∈ upsertedAttempts (S.finished.map (·.call)),
    ∀ y ∈ upsertedAttempts (S.finished.map (·.call)), x.1.key = y.1.key → x.2 = y.2
  matrices_agree : ∀ x ∈ upsertedMatrices (S.finished.map (·.call)),
    ∀ y ∈ upsertedMatrices (S.finished.map (·.call)), x.1.key = y.1.key → x.2 = y.2
  /-- A row that was there is found. -/
  never_missing : ∀ x ∈ S.finished, ∀ table, x.call.answer ≠ .error (.conflictRowMissing table)
  /-- Only the server fails an upsert on an open link. -/
  served : ∀ x ∈ S.finished, x.link = .live → x.call.request.lookup? ≠ none →
    (∃ answer, x.call.answer = .ok answer) ∨
      ∃ q cause, .statement q (.error cause) ∈ x.exchanges ∧
        x.call.answer = .error (.database cause)

variable [DecidableEq ι]

/-- Sets one of the gateways. -/
def setClient (S : Gateways ι) (i : ι) (c : Client) : Gateways ι :=
  { S with clients := Function.update S.clients i c }

/-- One step of one gateway. -/
inductive Step (rules : ServerRules) (S : Gateways ι) : Gateways ι → Prop where
  | begin {i : ι} {link : Link} (q : Request) (hclient : S.clients i = ⟨link, none⟩) :
      Step rules S (S.setClient i ⟨link, some ⟨q, [], Gateway.answer q link⟩⟩)
  | execute {i : ι} {link : Link} {request : Request} {log : List Exchange} {q : Statement}
      {next : Reply → Dialogue (Except StoreError request.Answer)} {reply : Reply} {d : Database}
      (hclient : S.clients i = ⟨link, some ⟨request, log, .execute q next⟩⟩)
      (hanswers : S.database.Answers rules q reply d) :
      Step rules S ((S.setDatabase d).setClient i
        ⟨link, some ⟨request, log ++ [.statement q reply], next reply⟩⟩)
  | hangUp {i : ι} {link : Link} {request : Request} {log : List Exchange}
      {next : Except DatabaseError Unit → Dialogue (Except StoreError request.Answer)}
      (hclient : S.clients i = ⟨link, some ⟨request, log, .hangUp next⟩⟩)
      (reply : Except DatabaseError Unit) :
      Step rules S (S.setClient i ⟨link, some ⟨request, log ++ [.hangUp reply], next reply⟩⟩)
  | finish {i : ι} {link : Link} {request : Request} {log : List Exchange}
      {answer : Except StoreError request.Answer}
      (hclient : S.clients i = ⟨link, some ⟨request, log, .done answer⟩⟩) :
      Step rules S ((S.setClient i ⟨Gateway.linkAfter request link, none⟩).note
        ⟨link, ⟨request, answer⟩, log⟩)

/-- Some steps lead from gateways to others. -/
abbrev Run (rules : ServerRules) : Gateways ι → Gateways ι → Prop :=
  Relation.ReflTransGen (Step rules)

end Gateways

/-! ## Rows that are asked for -/

namespace Database

variable {rules : ServerRules} {d d' : Database} {q : Statement} {reply : Reply}

/-- Under an identifier stands the attempt of a key. -/
def AttemptAt (key : Int × Int) (d : Database) (id : AttemptId) : Prop :=
  ∃ r ∈ d.attempts, r.id = id ∧ r.values.key = key

/-- Under an identifier stands the shard of a key. -/
def MatrixAt (key : String × AttemptId) (d : Database) (id : MatrixId) : Prop :=
  ∃ r ∈ d.matrices, r.id = id ∧ r.values.key = key

/-- An attempt that stands under a key stands there when the database has grown. -/
theorem AttemptAt.mono {key : Int × Int} {id : AttemptId} (h : AttemptAt key d id)
    (hgrows : d.Grows d') : AttemptAt key d' id := by
  obtain ⟨r, hr, rfl, rfl⟩ := h
  obtain ⟨r', hr', hlasting⟩ := hgrows.attempts r hr
  exact ⟨r', hr', congrArg Prod.fst hlasting, congrArg (fun p => p.2.key) hlasting⟩

theorem MatrixAt.mono {key : String × AttemptId} {id : MatrixId} (h : MatrixAt key d id)
    (hgrows : d.Grows d') : MatrixAt key d' id := by
  obtain ⟨r, hr, rfl, rfl⟩ := h
  obtain ⟨r', hr', hlasting⟩ := hgrows.matrices r hr
  exact ⟨r', hr', congrArg Prod.fst hlasting, congrArg (fun p => p.2.key) hlasting⟩

/-- Only one attempt stands under a key. -/
theorem Keyed.attemptAt_unique (hd : d.Keyed) {key : Int × Int} {a b : AttemptId}
    (ha : AttemptAt key d a) (hb : AttemptAt key d b) : a = b := by
  obtain ⟨r, hr, rfl, hkey⟩ := ha
  obtain ⟨r', hr', rfl, hkey'⟩ := hb
  rw [hd.attempt_eq hr hr' (hkey.trans hkey'.symm)]

theorem Keyed.matrixAt_unique (hd : d.Keyed) {key : String × AttemptId} {a b : MatrixId}
    (ha : MatrixAt key d a) (hb : MatrixAt key d b) : a = b := by
  obtain ⟨r, hr, rfl, hkey⟩ := ha
  obtain ⟨r', hr', rfl, hkey'⟩ := hb
  rw [hd.matrix_eq hr hr' (hkey.trans hkey'.symm)]

/-- Keys stay unique, whether the server answers, fails or is not heard. -/
theorem Answers.keyed (h : d.Answers rules q reply d') (hd : d.Keyed) : d'.Keyed := by
  -- a statement that fails does nothing, and one whose answer is lost may have done all of its work
  cases h with
  | executed h => exact h.keyed hd
  | failed cause => exact hd
  | unheard h cause => exact h.keyed hd

/-- No row is lost, whether the server answers, fails or is not heard. -/
theorem Answers.grows (h : d.Answers rules q reply d') : d.Grows d' := by
  cases h with
  | executed h => exact h.grows
  | failed cause => exact .refl d
  | unheard h cause => exact h.grows

/-- A reply that is no error is that of a statement that was executed. -/
theorem Answers.executes {ids : List Int} (h : d.Answers rules q (.ok ids) d') :
    d.Executes rules q (.ok ids) d' := by
  cases h with
  | executed h => exact h

/-- A statement that makes a row and one that looks for it, with where the row stands: the one gives
no row only if the row is there, the other only if it is not. -/
structure Finds {table : Table} (rules : ServerRules) (insert select : Statement)
    (At : Database → RowId table → Prop) : Prop where
  mono : ∀ {d d' : Database} {id}, At d id → d.Grows d' → At d' id
  made : ∀ {d d' : Database} {id others},
    d.Executes rules insert (.ok (id :: others)) d' → At d' ⟨id⟩
  taken : ∀ {d d' : Database}, d.Executes rules insert (.ok []) d' → ∃ id, At d' id
  found : ∀ {d d' : Database} {id others},
    d.Executes rules select (.ok (id :: others)) d' → At d' ⟨id⟩
  absent : ∀ {d d' : Database}, d.Executes rules select (.ok []) d' → ∀ id, ¬ At d id

/-- An insertion and a look-up of one key find the attempt that stands under it. -/
theorem finds_attempt (row : NewAttempt) :
    Finds rules (.insertAttempt row) (.selectAttempt row.workflowId row.attempt)
      (AttemptAt row.key) where
  mono := AttemptAt.mono
  made h := by
    cases h with
    | attemptMade id hnew hfresh => exact ⟨_, Multiset.mem_cons_self _ _, rfl, rfl⟩
  taken h := by
    cases h with
    | attemptTaken hmem hkey => exact ⟨_, _, hmem, rfl, hkey⟩
  found h := by
    cases h with
    | attemptSelected ids hids =>
      obtain ⟨r, hr, hkey, hid⟩ := (mem_selected_iff hids).mp List.mem_cons_self
      exact ⟨r, hr, congrArg RowId.mk hid, hkey⟩
  absent h := by
    cases h with
    | attemptSelected ids hids =>
      rintro id ⟨r, hr, -, hkey⟩
      exact List.not_mem_nil ((mem_selected_iff hids).mpr ⟨r, hr, hkey, rfl⟩)

/-- An insertion and a look-up of one key find the matrix that stands under it. -/
theorem finds_matrix (row : NewMatrix) :
    Finds rules (.insertMatrix row) (.selectMatrix row.matrixId row.attemptId)
      (MatrixAt row.key) where
  mono := MatrixAt.mono
  made h := by
    cases h with
    | matrixMade id hnew hfresh hattempt => exact ⟨_, Multiset.mem_cons_self _ _, rfl, rfl⟩
  taken h := by
    cases h with
    | matrixTaken hmem hkey => exact ⟨_, _, hmem, rfl, hkey⟩
  found h := by
    cases h with
    | matrixSelected ids hids =>
      obtain ⟨r, hr, hkey, hid⟩ := (mem_selected_iff hids).mp List.mem_cons_self
      exact ⟨r, hr, congrArg RowId.mk hid, hkey⟩
  absent h := by
    cases h with
    | matrixSelected ids hids =>
      rintro id ⟨r, hr, -, hkey⟩
      exact List.not_mem_nil ((mem_selected_iff hids).mpr ⟨r, hr, hkey, rfl⟩)

end Database

/-! ## Dialogues among others -/

/-- Whatever others add to the database before each statement, and whatever the server does about
it, a dialogue comes to an answer that meets `post`. -/
def Dialogue.Ensures {α : Type} (rules : ServerRules) (post : List Exchange → α → Database → Prop) :
    Dialogue α → List Exchange → Database → Prop
  | .done answer, log, d => post log answer d
  | .execute q next, log, d => ∀ reply d₁ d₂, d.Grows d₁ → d₁.Answers rules q reply d₂ →
    (next reply).Ensures rules post (log ++ [.statement q reply]) d₂
  | .hangUp next, log, d => ∀ reply d₁, d.Grows d₁ →
    (next reply).Ensures rules post (log ++ [.hangUp reply]) d₁

/-- What a row was asked for comes to: the row, or an error that is not about the row. -/
inductive Obtained {table : Table} (At : Database → RowId table → Prop) (link : Link)
    (log : List Exchange) (d : Database) : Except StoreError (RowId table) → Prop where
  | found {id : RowId table} (h : At d id) : Obtained At link log d (.ok id)
  | failed {q : Statement} {cause : DatabaseError} (h : .statement q (.error cause) ∈ log) :
      Obtained At link log d (.error (.database cause))
  | closed (h : link = .closed) : Obtained At link log d (.error .closed)
  | unavailable (h : link = .absent) : Obtained At link log d (.error .unavailable)

/-- What a request comes to. -/
def Request.Settled (link : Link) :
    (q : Request) → List Exchange → Except StoreError q.Answer → Database → Prop
  | .upsertAttempt row, log, answer, d => Obtained (Database.AttemptAt row.key) link log d answer
  | .upsertMatrix row, log, answer, d => Obtained (Database.MatrixAt row.key) link log d answer
  | _, _, answer, _ => ∀ table, answer ≠ .error (.conflictRowMissing table)

section
variable {rules : ServerRules} {d d' : Database} {link : Link} {log : List Exchange}

/-- An answer that was right stays right when what it found stays where it is. -/
theorem Obtained.mono {table : Table} {At : Database → RowId table → Prop}
    {answer : Except StoreError (RowId table)} (h : Obtained At link log d answer)
    (hmono : ∀ id, At d id → At d' id) : Obtained At link log d' answer := by
  cases h with
  | found h => exact .found (hmono _ h)
  | failed h => exact .failed h
  | closed h => exact .closed h
  | unavailable h => exact .unavailable h

/-- What a request was told stays true as the database grows. -/
theorem Request.Settled.mono {q : Request} {answer : Except StoreError q.Answer}
    (h : q.Settled link log answer d) (hgrows : d.Grows d') : q.Settled link log answer d' := by
  -- only the two upserts speak of rows
  cases q with
  | upsertAttempt row => exact Obtained.mono h fun _ hat => hat.mono hgrows
  | upsertMatrix row => exact Obtained.mono h fun _ hat => hat.mono hgrows
  | _ => exact h

/-- **Rows that others add do no harm.** -/
theorem Dialogue.Ensures.mono {α : Type} {post : List Exchange → α → Database → Prop}
    (hpost : ∀ {log answer}, post log answer d → post log answer d') {dialogue : Dialogue α}
    (h : dialogue.Ensures rules post log d) (hgrows : d.Grows d') :
    dialogue.Ensures rules post log d' := by
  cases dialogue with
  | done answer => exact hpost h
  | execute q next =>
    exact fun reply d₁ d₂ hd₁ hanswers => h reply d₁ d₂ (hgrows.trans hd₁) hanswers
  | hangUp next => exact fun reply d₁ hd₁ => h reply d₁ (hgrows.trans hd₁)

namespace Gateway

/-- **A row that was refused is found**, whatever comes between the two statements. -/
theorem ensures_upsert {table : Table} {insert select : Statement}
    {At : Database → RowId table → Prop} (hfinds : Database.Finds rules insert select At) :
    (upsert insert select).Ensures rules (fun log answer d => Obtained At link log d answer) []
      d := by
  intro reply d₁ d₂ _ hinsert
  match reply with
  | .error cause => exact .failed (List.mem_singleton.mpr rfl)
  | .ok (id :: others) => exact .found (hfinds.made hinsert.executes)
  | .ok [] =>
    obtain ⟨id, hid⟩ := hfinds.taken hinsert.executes
    intro reply d₃ d₄ hgrows hselect
    -- the row is still there when it is looked for
    have hthere := hfinds.mono hid hgrows
    match reply with
    | .error cause => exact .failed (List.mem_append_right _ (List.mem_singleton.mpr rfl))
    | .ok (id :: others) => exact .found (hfinds.found hselect.executes)
    | .ok [] => exact absurd hthere (hfinds.absent hselect.executes id)

/-- An insertion without a look-up never misses a row that it ran into. -/
theorem ensures_insert {table : Table} (q : Statement) :
    (@insert table q).Ensures rules
      (fun _ answer _ => ∀ table, answer ≠ .error (.conflictRowMissing table)) [] d := by
  intro reply d₁ d₂ _ _
  match reply with
  | .error cause => exact fun _ h => nomatch h
  | .ok (id :: others) => exact fun _ h => nomatch h
  | .ok [] => exact fun _ h => nomatch h

theorem ensures_update (q : Statement) :
    (update q).Ensures rules
      (fun _ answer _ => ∀ table, answer ≠ .error (.conflictRowMissing table)) [] d := by
  intro reply d₁ d₂ _ _
  cases reply with
  | error cause => exact fun _ h => nomatch h
  | ok ids => exact fun _ h => nomatch h

theorem ensures_close :
    close.Ensures rules
      (fun _ answer _ => ∀ table, answer ≠ .error (.conflictRowMissing table)) [] d := by
  intro reply d₁ _
  cases reply with
  | error cause => exact fun _ h => nomatch h
  | ok _ => exact fun _ h => nomatch h

/-- **Every dialogue ensures what its request needs**, whatever others do between its statements. -/
theorem ensures_converse (q : Request) :
    (converse q).Ensures rules (q.Settled .live) [] d := by
  -- two kinds of dialogue can find a row; all others send one statement or none
  cases q with
  | upsertAttempt row => exact ensures_upsert (Database.finds_attempt row)
  | upsertMatrix row => exact ensures_upsert (Database.finds_matrix row)
  | insertSpec name matrix => exact ensures_insert _
  | completeSpec spec summary => exact ensures_update _
  | insertTest row => exact ensures_insert _
  | finishMatrix matrix => exact ensures_update _
  | finishAttempt attempt endTime => exact ensures_update _
  | close => exact ensures_close

/-- Every request is settled, on whatever link it is made. -/
theorem ensures_answer (q : Request) (link : Link) :
    (answer q link).Ensures rules (q.Settled link) [] d := by
  -- a count that is too great is answered before the link is looked at
  cases hprecheck : precheck q with
  | some cause =>
    obtain ⟨column, value, rfl⟩ := exists_count_of_precheck hprecheck
    simp only [answer, hprecheck]
    cases q with
    | completeSpec spec summary => rintro _ ⟨⟩
    | _ => cases hprecheck
  | none =>
    simp only [answer, hprecheck]
    cases link with
    | live => exact ensures_converse q
    | closed =>
      cases q with
      | upsertAttempt row => exact Obtained.closed rfl
      | upsertMatrix row => exact Obtained.closed rfl
      | _ => rintro _ ⟨⟩
    | absent =>
      cases q with
      | upsertAttempt row => exact Obtained.unavailable rfl
      | upsertMatrix row => exact Obtained.unavailable rfl
      | _ => rintro _ ⟨⟩

end Gateway

end

/-! ## Steps -/

namespace Gateways

variable {ι : Type} {rules : ServerRules} {S S' : Gateways ι}

/-- A gateway will come to a good end with the request that it is at work on. -/
def ClientSound (rules : ServerRules) (d : Database) (c : Client) : Prop :=
  ∀ u, c.pending = some u → u.dialogue.Ensures rules (u.request.Settled c.link) u.exchanges d

/-- Unique keys, requests at work that will come to a good end, and answers that are still good. -/
structure Sound (rules : ServerRules) (S : Gateways ι) : Prop where
  keyed : S.database.Keyed
  clients : ∀ i, ClientSound rules S.database (S.clients i)
  finished : ∀ x ∈ S.finished, x.call.request.Settled x.link x.exchanges x.call.answer S.database

theorem clientSound_idle (d : Database) (link : Link) : ClientSound rules d ⟨link, none⟩ :=
  fun _ h => nomatch h

/-- A client that waits is sound when the rest of its dialogue ensures what its request needs. -/
theorem clientSound_iff {d : Database} {link : Link} {u : Pending} :
    ClientSound rules d ⟨link, some u⟩ ↔
      u.dialogue.Ensures rules (u.request.Settled link) u.exchanges d :=
  ⟨fun h => h u rfl, fun h _ hu => Option.some.inj hu ▸ h⟩

/-- Clients that have not begun are sound on a database with unique keys. -/
theorem sound_start {d : Database} (hd : d.Keyed) (links : ι → Link) :
    (start d links).Sound rules where
  keyed := hd
  clients i := clientSound_idle d (links i)
  finished _ hx := absurd hx List.not_mem_nil

/-- Rows that are added do no harm. -/
theorem Sound.setDatabase (h : S.Sound rules) {d : Database} (hgrows : S.database.Grows d)
    (hd : d.Keyed) : (S.setDatabase d).Sound rules where
  keyed := hd
  clients i u hu := (h.clients i u hu).mono (fun hsettled => hsettled.mono hgrows) hgrows
  finished x hx := (h.finished x hx).mono hgrows

/-- A request that is over can be noted down once it is settled. -/
theorem Sound.note (h : S.Sound rules) {x : TranscriptEntry}
    (hx : x.call.request.Settled x.link x.exchanges x.call.answer S.database) :
    (S.note x).Sound rules where
  keyed := h.keyed
  clients := h.clients
  finished y hy := (List.mem_append.mp hy).elim (h.finished y)
    fun hy => List.mem_singleton.mp hy ▸ hx

/-- An attempt that was answered with is in the database under its key. -/
theorem Sound.attemptAt (h : S.Sound rules) {x : NewAttempt × AttemptId}
    (hx : x ∈ upsertedAttempts (S.finished.map (·.call))) :
    Database.AttemptAt x.1.key S.database x.2 := by
  rw [upsertedAttempts, List.filterMap_map, List.mem_filterMap] at hx
  obtain ⟨⟨link, ⟨q, answer⟩, exchanges⟩, hmem, hcall⟩ := hx
  have hsettled := h.finished _ hmem
  cases q with
  | upsertAttempt row =>
    cases answer with
    | error cause => cases hcall
    | ok id =>
      cases hcall
      cases hsettled with
      | found hat => exact hat
  | _ => cases hcall

/-- A shard that was answered with is in the database under its key. -/
theorem Sound.matrixAt (h : S.Sound rules) {x : NewMatrix × MatrixId}
    (hx : x ∈ upsertedMatrices (S.finished.map (·.call))) :
    Database.MatrixAt x.1.key S.database x.2 := by
  rw [upsertedMatrices, List.filterMap_map, List.mem_filterMap] at hx
  obtain ⟨⟨link, ⟨q, answer⟩, exchanges⟩, hmem, hcall⟩ := hx
  have hsettled := h.finished _ hmem
  cases q with
  | upsertMatrix row =>
    cases answer with
    | error cause => cases hcall
    | ok id =>
      cases hcall
      cases hsettled with
      | found hat => exact hat
  | _ => cases hcall

variable [DecidableEq ι]

/-- What one gateway is at work on is no matter of the others. -/
theorem Sound.setClient (h : S.Sound rules) (i : ι) {c : Client}
    (hc : ClientSound rules S.database c) : (S.setClient i c).Sound rules where
  keyed := h.keyed
  clients j := by
    show ClientSound rules S.database (Function.update S.clients i c j)
    by_cases hij : j = i
    · rw [hij, Function.update_self]
      exact hc
    · rw [Function.update_of_ne hij]
      exact h.clients j
  finished := h.finished

/-- **A step of any gateway keeps all of them sound.** -/
theorem Sound.step (h : S.Sound rules) (hstep : Step rules S S') : S'.Sound rules := by
  cases hstep with
  | begin q hclient =>
    exact h.setClient _ (clientSound_iff.mpr (Gateway.ensures_answer q _))
  | @execute i link request log q next reply d hclient hanswers =>
    have hclientSound := h.clients i
    rw [hclient, clientSound_iff] at hclientSound
    exact (h.setDatabase hanswers.grows (hanswers.keyed h.keyed)).setClient i
      (clientSound_iff.mpr (hclientSound reply _ d (.refl _) hanswers))
  | @hangUp i link request log next hclient reply =>
    have hclientSound := h.clients i
    rw [hclient, clientSound_iff] at hclientSound
    exact h.setClient i (clientSound_iff.mpr (hclientSound reply _ (.refl _)))
  | @finish i link request log answer hclient =>
    have hsettled := h.clients i
    rw [hclient, clientSound_iff] at hsettled
    exact (h.setClient i (clientSound_idle _ _)).note hsettled

/-- The invariant holds along every run. -/
theorem Sound.run (h : S.Sound rules) (hrun : Run rules S S') : S'.Sound rules := by
  -- one step after the other, from the first
  induction hrun with
  | refl => exact h
  | tail _ hstep ih => exact ih.step hstep

end Gateways

namespace Obtained

variable {table : Table} {At : Database → RowId table → Prop} {link : Link} {log : List Exchange}
  {d : Database} {answer : Except StoreError (RowId table)}

/-- A row that was obtained was not missing. -/
theorem ne_missing (h : Obtained At link log d answer) (missing : Table) :
    answer ≠ .error (.conflictRowMissing missing) := by
  rintro rfl
  cases h

/-- On a live link, an upsert gives an id, or one of its statements failed. -/
theorem ok_or_failed (h : Obtained At link log d answer) (hlink : link = .live) :
    (∃ id, answer = .ok id) ∨
      ∃ q cause, .statement q (.error cause) ∈ log ∧ answer = .error (.database cause) := by
  cases h with
  | found hat => exact .inl ⟨_, rfl⟩
  | failed hfailed => exact .inr ⟨_, _, hfailed, rfl⟩
  | closed hclosed => rw [hlink] at hclosed; cases hclosed
  | unavailable habsent => rw [hlink] at habsent; cases habsent

end Obtained

namespace Request.Settled

variable {q : Request} {link : Link} {log : List Exchange} {d : Database}
  {answer : Except StoreError q.Answer}

/-- A request that is settled was not told of a missing row. -/
theorem ne_missing (h : q.Settled link log answer d) (missing : Table) :
    answer ≠ .error (.conflictRowMissing missing) := by
  cases q with
  | upsertAttempt row => exact Obtained.ne_missing h missing
  | upsertMatrix row => exact Obtained.ne_missing h missing
  | _ => exact h missing

/-- On a live link, a request with a look-up gives an id, or one of its statements failed. -/
theorem ok_or_failed (h : q.Settled link log answer d) (hlink : link = .live)
    (hq : q.lookup? ≠ none) :
    (∃ a, answer = .ok a) ∨
      ∃ q' cause, .statement q' (.error cause) ∈ log ∧ answer = .error (.database cause) := by
  cases q with
  | upsertAttempt row => exact Obtained.ok_or_failed h hlink
  | upsertMatrix row => exact Obtained.ok_or_failed h hlink
  | _ => exact absurd rfl hq

end Request.Settled

namespace Gateways

variable {ι : Type} [DecidableEq ι]

/-- **Gateways that share a database converge.** However many there are, on whatever links, and
however their statements are interleaved and fail: no two rows have the same key, whoever asks with
the same key and is answered is answered with the same row, and a row that is found to be there is
never missing when it is looked for. -/
theorem converge {rules : ServerRules} {d : Database} (hd : d.Keyed) (links : ι → Link)
    {S : Gateways ι} (hrun : Run rules (start d links) S) : S.Converged := by
  have hsound : S.Sound rules := (sound_start hd links).run hrun
  refine ⟨hsound.keyed.attempts, hsound.keyed.matrices, fun x hx y hy hkey => ?_,
    fun x hx y hy hkey => ?_, fun x hx => (hsound.finished x hx).ne_missing,
    fun x hx => (hsound.finished x hx).ok_or_failed⟩
  · have hy := hsound.attemptAt hy
    rw [← hkey] at hy
    exact hsound.keyed.attemptAt_unique (hsound.attemptAt hx) hy
  · have hy := hsound.matrixAt hy
    rw [← hkey] at hy
    exact hsound.keyed.matrixAt_unique (hsound.matrixAt hx) hy

/-- The attempt of `Gateway.sharedAttempt`, asked for with another browser. -/
def rivalAttempt : NewAttempt := { Gateway.sharedAttempt with browser := "firefox" }

/-- Two gateways ask for one attempt. The second is refused the row; before it looks for the row,
the first one goes on and makes a shard. -/
theorem converge_race : ∃ S : Gateways Bool,
    Run .plain (start .empty fun _ => .live) S ∧
      S.finished.map (·.call) = [⟨.upsertAttempt Gateway.sharedAttempt, .ok ⟨7⟩⟩,
        ⟨.upsertAttempt rivalAttempt, .ok ⟨7⟩⟩] ∧
      S.database.matrices.map (·.id) = {⟨1⟩} ∧ S.Converged := by
  have hrow : (⟨⟨7⟩, Gateway.sharedAttempt, none⟩ : AttemptRow) ∈
      (Database.empty.addAttempt ⟨7⟩ Gateway.sharedAttempt).attempts :=
    Multiset.mem_cons_self _ Database.empty.attempts
  have hbegin : Step .plain (start .empty fun _ : Bool => .live) _ :=
    .begin (i := false) (.upsertAttempt Gateway.sharedAttempt) rfl
  have hmade := (Relation.ReflTransGen.single hbegin).tail (.execute (i := false) rfl
    (.executed (.attemptMade ⟨7⟩ (fun _ h => nomatch h) (Multiset.notMem_zero _))))
  have hrival := hmade.tail (.begin (i := true) (.upsertAttempt rivalAttempt) rfl)
  have hrefused := hrival.tail (.execute (i := true) rfl (.executed (.attemptTaken hrow rfl)))
  -- the other gateway goes on in between
  have hanswered := hrefused.tail (.finish (i := false) rfl)
  have hshard := hanswered.tail (.begin (i := false)
    (.upsertMatrix ⟨42, "shard-a", .started, ⟨7⟩⟩) rfl)
  have hshardMade := hshard.tail (.execute (i := false) rfl
    (.executed (.matrixMade ⟨1⟩ (fun _ h => nomatch h) (Multiset.notMem_zero _)
      fun _ => Multiset.mem_map_of_mem _ hrow)))
  have hfound := hshardMade.tail (.execute (i := true) rfl
    (.executed (.attemptSelected [7] (by decide))))
  have hrun := hfound.tail (.finish (i := true) rfl)
  exact ⟨_, hrun, rfl, rfl, converge Database.keyed_empty _ hrun⟩

end Gateways

end RunJournal
