import RunJournal.Proofs.Database.Refused

/-!
# What a gateway asks of its server

A transcript of a gateway: for each request what it was answered, and all that passed between the
gateway and the server for it. The server is any server, and a log next to it (`Server.logged`) is
what the transcript is read off.

`Conversed` lists what a conversation on an open link can come to, request by request.
`Disciplined` says what a gateway never does at a request, given the requests before it, and
`Gateway.disciplined_transcript` is the main statement: whatever the server replies, it asks for no
more than it needs, goes on after a statement that failed, and is silent from the first request to
close on.
-/

namespace RunJournal

variable {σ : Type}

/-- Something that passes between a gateway and its server, with the reply. -/
inductive Exchange where
  | statement (q : Statement) (reply : Reply)
  | hangUp (reply : Except DatabaseError Unit)

/-- The statement of an exchange. -/
def Exchange.statement? : Exchange → Option Statement
  | .statement q _ => some q
  | .hangUp _ => none

/-- The server with a log of what passes on its link. -/
def Server.logged (server : Server σ) : Server (σ × List Exchange) where
  reach := fun (s, log) =>
    let (result, s) := server.reach s
    (result, s, log)
  encrypts := fun (s, log) =>
    let (encrypted, s) := server.encrypts s
    (encrypted, s, log)
  login user database password := fun (s, log) =>
    let (result, s) := server.login user database password s
    (result, s, log)
  execute q := fun (s, log) =>
    let (reply, s) := server.execute q s
    (reply, s, log ++ [.statement q reply])
  hangUp := fun (s, log) =>
    let (reply, s) := server.hangUp s
    (reply, s, log ++ [.hangUp reply])

/-- A request to a gateway with its answer, the link that it came upon, and what passed for it. -/
structure TranscriptEntry where
  link : Link
  call : Call
  exchanges : List Exchange

/-- The statements sent for a request, in order. -/
def TranscriptEntry.statements (x : TranscriptEntry) : List Statement :=
  x.exchanges.filterMap Exchange.statement?

namespace Gateway

/-- What becomes of one request. -/
def entry (server : Server σ) (q : Request) (g : Link × σ) : TranscriptEntry :=
  let (answer, _, _, log) := store server.logged q (g.1, g.2, [])
  ⟨g.1, ⟨q, answer⟩, log⟩

/-- What becomes of requests, one after the other. -/
def transcript (server : Server σ) : List Request → Link × σ → List TranscriptEntry
  | [], _ => []
  | q :: rest, g => entry server q g :: transcript server rest (store server q g).2

end Gateway

/-! ## The log of a server -/

variable (server : Server σ)

/-- A conversation does not notice the log. -/
theorem Dialogue.run_logged {α : Type} (d : Dialogue α) (s : σ) (log : List Exchange) :
    (d.run server.logged (s, log)).1 = (d.run server s).1 ∧
      (d.run server.logged (s, log)).2.1 = (d.run server s).2 := by
  induction d generalizing s log with
  | done result => exact ⟨rfl, rfl⟩
  | execute q next ih =>
    exact ih (server.execute q s).1 (server.execute q s).2
      (log ++ [.statement q (server.execute q s).1])
  | hangUp next ih =>
    exact ih (server.hangUp s).1 (server.hangUp s).2 (log ++ [.hangUp (server.hangUp s).1])

namespace Gateway

/-- An entry tells the conversation about its request, held with a server that keeps a log. -/
theorem entry_eq (q : Request) (g : Link × σ) :
    entry server q g =
      ⟨g.1, ⟨q, ((answer q g.1).run server.logged (g.2, [])).1⟩,
        ((answer q g.1).run server.logged (g.2, [])).2.2⟩ := rfl

/-- An entry of the transcript holds the request and the answer that the gateway gave. -/
theorem entry_call (q : Request) (g : Link × σ) :
    (entry server q g).call = ⟨q, (store server q g).1⟩ :=
  congrArg (Call.mk q) ((answer q g.1).run_logged server g.2 []).1

/-- The answers in a transcript are those of the gateway. -/
theorem transcript_calls (requests : List Request) (g : Link × σ) :
    (transcript server requests g).map (·.call) = (store server).calls requests g := by
  induction requests generalizing g with
  | nil => rfl
  | cons q rest ih => rw [transcript, List.map_cons, entry_call, ih, Store.calls]

end Gateway

/-! ## Conversations -/

section
variable {table : Table}

/-- What passes when a row is made or found, and the answer. -/
inductive Upserted (insert select : Statement) :
    List Exchange → Except StoreError (RowId table) → Prop where
  | insertFailed (cause : DatabaseError) :
      Upserted insert select [.statement insert (.error cause)] (.error (.database cause))
  | made (id : Int) (others : List Int) :
      Upserted insert select [.statement insert (.ok (id :: others))] (.ok ⟨id⟩)
  | selectFailed (cause : DatabaseError) :
      Upserted insert select [.statement insert (.ok []), .statement select (.error cause)]
        (.error (.database cause))
  | found (id : Int) (others : List Int) :
      Upserted insert select [.statement insert (.ok []), .statement select (.ok (id :: others))]
        (.ok ⟨id⟩)
  | missing :
      Upserted insert select [.statement insert (.ok []), .statement select (.ok [])]
        (.error (.conflictRowMissing table))

/-- What passes when a row is made that is always new, and the answer. -/
inductive Inserted (q : Statement) : List Exchange → Except StoreError (RowId table) → Prop where
  | failed (cause : DatabaseError) :
      Inserted q [.statement q (.error cause)] (.error (.database cause))
  | made (id : Int) (others : List Int) : Inserted q [.statement q (.ok (id :: others))] (.ok ⟨id⟩)
  | noRow : Inserted q [.statement q (.ok [])] (.error (.database .noRow))

end

/-- What passes when rows are changed, and the answer. -/
inductive Updated (q : Statement) : List Exchange → Except StoreError Unit → Prop where
  | failed (cause : DatabaseError) :
      Updated q [.statement q (.error cause)] (.error (.database cause))
  | done (ids : List Int) : Updated q [.statement q (.ok ids)] (.ok ())

/-- What passes when the link is ended, and the answer. -/
inductive HungUp : List Exchange → Except StoreError Unit → Prop where
  | failed (cause : DatabaseError) : HungUp [.hangUp (.error cause)] (.error (.database cause))
  | done : HungUp [.hangUp (.ok ())] (.ok ())

/-- What passes on an open link for a request, and the answer. -/
def Conversed : (q : Request) → List Exchange → Except StoreError q.Answer → Prop
  | .upsertAttempt row => Upserted (.insertAttempt row) (.selectAttempt row.workflowId row.attempt)
  | .upsertMatrix row => Upserted (.insertMatrix row) (.selectMatrix row.matrixId row.attemptId)
  | .insertSpec name matrix => Inserted (.insertSpec name matrix)
  | .completeSpec spec summary => Updated (.completeSpec spec summary)
  | .insertTest row => Inserted (.insertTest row)
  | .finishMatrix matrix => Updated (.finishMatrix matrix)
  | .finishAttempt attempt endTime => Updated (.finishAttempt attempt endTime)
  | .close => HungUp

section
variable {server}

theorem Dialogue.run_logged_execute {α : Type} {q : Statement} {reply : Reply} {s s' : σ}
    (h : server.execute q s = (reply, s')) (next : Reply → Dialogue α) (log : List Exchange) :
    (execute q next).run server.logged (s, log) =
      (next reply).run server.logged (s', log ++ [.statement q reply]) := by
  simp only [run, Server.logged, h]

theorem Dialogue.run_logged_hangUp {α : Type} {reply : Except DatabaseError Unit} {s s' : σ}
    (h : server.hangUp s = (reply, s')) (next : Except DatabaseError Unit → Dialogue α)
    (log : List Exchange) :
    (hangUp next).run server.logged (s, log) =
      (next reply).run server.logged (s', log ++ [.hangUp reply]) := by
  simp only [run, Server.logged, h]

end

namespace Gateway

section
variable {table : Table} (s : σ)

/-- An upsert makes its row, finds it, or fails at one of its two statements. -/
theorem upserted_run (insert select : Statement) :
    Upserted insert select
      ((@upsert table insert select).run server.logged (s, [])).2.2
      ((@upsert table insert select).run server.logged (s, [])).1 := by
  rcases hinsert : server.execute insert s with ⟨reply, s₁⟩
  rw [upsert, Dialogue.run_logged_execute hinsert]
  match reply with
  | .error cause => exact .insertFailed cause
  | .ok (id :: others) => exact .made id others
  | .ok [] =>
    -- the row is there, so it is looked for under its key
    rcases hselect : server.execute select s₁ with ⟨reply, s₂⟩
    simp only [Dialogue.run_logged_execute hselect]
    match reply with
    | .error cause => exact .selectFailed cause
    | .ok (id :: others) => exact .found id others
    | .ok [] => exact .missing

theorem inserted_run (q : Statement) :
    Inserted q ((@insert table q).run server.logged (s, [])).2.2
      ((@insert table q).run server.logged (s, [])).1 := by
  rcases hinsert : server.execute q s with ⟨reply, s₁⟩
  rw [insert, Dialogue.run_logged_execute hinsert]
  match reply with
  | .error cause => exact .failed cause
  | .ok (id :: others) => exact .made id others
  | .ok [] => exact .noRow

theorem updated_run (q : Statement) :
    Updated q ((update q).run server.logged (s, [])).2.2
      ((update q).run server.logged (s, [])).1 := by
  rcases hupdate : server.execute q s with ⟨reply, s₁⟩
  rw [update, Dialogue.run_logged_execute hupdate]
  cases reply with
  | error cause => exact .failed cause
  | ok ids => exact .done ids

/-- A close sends no statement, whether hanging up fails or not. -/
theorem hungUp_run :
    HungUp (close.run server.logged (s, [])).2.2 (close.run server.logged (s, [])).1 := by
  rcases hhangUp : server.hangUp s with ⟨reply, s₁⟩
  rw [close, Dialogue.run_logged_hangUp hhangUp]
  cases reply with
  | error cause => exact .failed cause
  | ok done => exact .done

end

/-- A request that is looked at on an open link leads to a conversation. -/
theorem conversed_run {q : Request} (hfits : q.FitsColumns) (s : σ) :
    Conversed q ((answer q .live).run server.logged (s, [])).2.2
      ((answer q .live).run server.logged (s, [])).1 := by
  have hanswer : answer q .live = converse q := by
    simp only [answer, precheck_eq_none_iff.mpr hfits]
  rw [hanswer]
  cases q with
  | upsertAttempt row => exact upserted_run server s _ _
  | upsertMatrix row => exact upserted_run server s _ _
  | insertSpec name matrix => exact inserted_run server s _
  | completeSpec spec summary => exact updated_run server s _
  | insertTest row => exact inserted_run server s _
  | finishMatrix matrix => exact updated_run server s _
  | finishAttempt attempt endTime => exact updated_run server s _
  | close => exact hungUp_run server s

/-- A request that is refused at once leads to no conversation. -/
theorem exchanges_eq_nil {q : Request} {link : Link} (h : ¬ (link = .live ∧ q.FitsColumns))
    (s : σ) : (entry server q (link, s)).exchanges = [] := by
  have hdone : ∃ result, answer q link = .done result := by
    cases hprecheck : precheck q with
    | some cause => exact ⟨.error cause, by simp only [answer, hprecheck]⟩
    | none =>
      cases link with
      | live => exact absurd ⟨rfl, precheck_eq_none_iff.mp hprecheck⟩ h
      | closed => exact ⟨.error .closed, by simp only [answer, hprecheck]⟩
      | absent => exact ⟨.error .unavailable, by simp only [answer, hprecheck]⟩
  obtain ⟨result, hresult⟩ := hdone
  rw [entry_eq, hresult]
  rfl

end Gateway

/-! ## Discipline -/

/-- The statement that a request is looked at with first. -/
def Request.opening? : Request → Option Statement
  | .upsertAttempt row => some (.insertAttempt row)
  | .upsertMatrix row => some (.insertMatrix row)
  | .insertSpec name matrix => some (.insertSpec name matrix)
  | .completeSpec spec summary => some (.completeSpec spec summary)
  | .insertTest row => some (.insertTest row)
  | .finishMatrix matrix => some (.finishMatrix matrix)
  | .finishAttempt attempt endTime => some (.finishAttempt attempt endTime)
  | .close => none

/-- The statement that a row is looked for with when it was not made. -/
def Request.lookup? : Request → Option Statement
  | .upsertAttempt row => some (.selectAttempt row.workflowId row.attempt)
  | .upsertMatrix row => some (.selectMatrix row.matrixId row.attemptId)
  | _ => none

/-- What a gateway does at a request that it was made after the requests of `past`. -/
structure Disciplined (past : List TranscriptEntry) (x : TranscriptEntry) : Prop where
  /-- Only a row that may be there already takes two statements. -/
  atMostOne : x.call.request.lookup? = none → x.statements.length ≤ 1
  /-- Whatever has failed before, a request is passed on until the link is closed. -/
  opens : (∀ y ∈ past, y.call.request ≠ .close) → x.call.request.FitsColumns →
    x.statements.head? = x.call.request.opening?
  /-- Everything that can pass on an open link, and the answer. -/
  converses : (∀ y ∈ past, y.call.request ≠ .close) → x.call.request.FitsColumns →
    Conversed x.call.request x.exchanges x.call.answer
  /-- A row is looked for exactly if the statement that would make it gave no row. -/
  looksUp : ∀ insert ∈ x.call.request.opening?, ∀ select ∈ x.call.request.lookup?,
    select ∈ x.statements ↔ .statement insert (.ok []) ∈ x.exchanges
  /-- Nothing is sent about a count that is too great. -/
  silentIfTooGreat : ¬ x.call.request.FitsColumns → x.exchanges = []
  /-- Nothing is sent after the first request to close, whatever became of it. -/
  silentIfClosed : (∃ y ∈ past, y.call.request = .close) → x.exchanges = []

namespace Conversed

variable {q : Request} {log : List Exchange} {answer : Except StoreError q.Answer}

/-- The first statement of a dialogue is the one that opens the request. -/
theorem head?_statements (h : Conversed q log answer) :
    (log.filterMap Exchange.statement?).head? = q.opening? := by
  cases q <;> cases h <;> rfl

/-- Without a look-up there is at most one statement. -/
theorem length_statements (h : Conversed q log answer) (hq : q.lookup? = none) :
    (log.filterMap Exchange.statement?).length ≤ 1 := by
  cases q with
  | upsertAttempt row => cases hq
  | upsertMatrix row => cases hq
  | close => cases h <;> exact Nat.zero_le 1
  | _ => cases h <;> exact Nat.le_refl 1

/-- The row is looked for exactly if the statement before gave no row. -/
theorem lookup?_mem_iff (h : Conversed q log answer) :
    ∀ insert ∈ q.opening?, ∀ select ∈ q.lookup?,
      select ∈ log.filterMap Exchange.statement? ↔ .statement insert (.ok []) ∈ log := by
  cases q with
  | upsertAttempt row =>
    rintro insert ⟨⟩ select ⟨⟩
    cases h <;> simp [Exchange.statement?]
  | upsertMatrix row =>
    rintro insert ⟨⟩ select ⟨⟩
    cases h <;> simp [Exchange.statement?]
  | _ => exact fun _ _ _ hselect => nomatch hselect

end Conversed

namespace Gateway

/-- A link is live after a request if it was live before and the request was no close. -/
theorem linkAfter_eq_live_iff {q : Request} {link : Link} :
    linkAfter q link = .live ↔ q ≠ .close ∧ link = .live := by
  cases q with
  | close => cases link <;> simp [linkAfter]
  | _ => simp [linkAfter]

variable {past between rest : List TranscriptEntry} {x : TranscriptEntry} {link : Link}

/-- A request that comes upon an open link, if no request to close was made before. -/
theorem disciplined_entry (hlink : link = .live ↔ ∀ y ∈ past, y.call.request ≠ .close)
    (q : Request) (s : σ) : Disciplined past (entry server q (link, s)) := by
  by_cases hopen : link = .live ∧ q.FitsColumns
  · obtain ⟨rfl, hfits⟩ := hopen
    have hconversed := conversed_run server hfits s
    refine ⟨hconversed.length_statements, fun _ _ => hconversed.head?_statements,
      fun _ _ => hconversed, hconversed.lookup?_mem_iff, fun hgreat => absurd hfits hgreat, ?_⟩
    rintro ⟨y, hy, hclose⟩
    exact absurd hclose (hlink.mp rfl y hy)
  · -- nothing passes, so all that is left is that the two ways to ask are shut
    have hnil : (entry server q (link, s)).exchanges = [] :=
      exchanges_eq_nil server hopen s
    have hnone : (entry server q (link, s)).statements = [] := by
      rw [TranscriptEntry.statements, hnil]
      rfl
    refine ⟨fun _ => ?_, fun hpast hfits => absurd ⟨hlink.mpr hpast, hfits⟩ hopen,
      fun hpast hfits => absurd ⟨hlink.mpr hpast, hfits⟩ hopen, fun insert _ select _ => ?_,
      fun _ => hnil, fun _ => hnil⟩
    · rw [hnone]
      exact Nat.zero_le 1
    · rw [hnone, hnil]
      exact iff_of_false List.not_mem_nil List.not_mem_nil

/-- From where the link is open exactly if it was not to be closed, every request is made so. -/
theorem disciplined_of_append {requests : List Request} {s : σ}
    (hlink : link = .live ↔ ∀ y ∈ past, y.call.request ≠ .close)
    (h : transcript server requests (link, s) = between ++ x :: rest) :
    Disciplined (past ++ between) x := by
  -- the entries between move to the past one by one, until `x` is the next
  induction requests generalizing past link s between with
  | nil => exact absurd (List.append_eq_nil_iff.mp h.symm).2 (List.cons_ne_nil _ _)
  | cons q others ih =>
    have hfirst := disciplined_entry server hlink q s
    rw [transcript] at h
    cases between with
    | nil =>
      injection h with hhead _
      rw [← hhead, List.append_nil]
      exact hfirst
    | cons first between =>
      injection h with hhead htail
      have hnext : linkAfter q link = .live ↔ ∀ y ∈ past ++ [first], y.call.request ≠ .close := by
        rw [linkAfter_eq_live_iff, hlink, List.forall_mem_append, List.forall_mem_singleton,
          ← hhead, and_comm]
        rfl
      have hrest := ih hnext htail
      rwa [List.append_assoc] at hrest

/-- Nothing passes where there is no link, and none comes about. -/
theorem exchanges_of_absent (requests : List Request) (s : σ) :
    (∀ x ∈ transcript server requests (.absent, s), x.exchanges = []) ∧
      (store server).after requests (.absent, s) = (.absent, s) := by
  induction requests with
  | nil => exact ⟨fun _ hx => absurd hx List.not_mem_nil, rfl⟩
  | cons q rest ih =>
    have hstep : (store server q (.absent, s)).2 = (.absent, s) :=
      congrArg Prod.snd (store_absent_refuses server s q)
    rw [transcript, Store.after, List.foldl_cons, hstep]
    refine ⟨fun x hx => ?_, ih.2⟩
    rcases List.mem_cons.mp hx with rfl | hx
    · have hlink : ¬ (Link.absent = .live ∧ q.FitsColumns) := fun h => nomatch h.1
      exact exchanges_eq_nil server hlink s
    · exact ih.1 x hx

/-- **A gateway is disciplined.** Whatever the server replies to a statement, and whatever becomes
of the end of the link: each request is made as `Disciplined` says, given the requests before it.
A gateway that never had a link sends nothing, and its link is never a closed one. The answers in a
transcript, on whichever link, are those that the gateway gives without a log. -/
theorem disciplined_transcript (server : Server σ) (requests : List Request) (s : σ) :
    (∀ past x rest, transcript server requests (.live, s) = past ++ x :: rest →
      Disciplined past x) ∧
    (∀ x ∈ transcript server requests (.absent, s), x.exchanges = []) ∧
    ((store server).after requests (.absent, s)).1 = .absent ∧
    ∀ link, (transcript server requests (link, s)).map (·.call) =
      (store server).calls requests (link, s) := by
  refine ⟨fun past x rest h => ?_, (exchanges_of_absent server requests s).1, ?_,
    fun link => transcript_calls server requests (link, s)⟩
  · have hlink : Link.live = .live ↔ ∀ y ∈ ([] : List TranscriptEntry), y.call.request ≠ .close :=
      iff_of_true rfl fun _ hy => absurd hy List.not_mem_nil
    exact disciplined_of_append server hlink h
  · rw [(exchanges_of_absent server requests s).2]

/-- A script that fails the first statement and has a row for the third only. -/
def stumblingScript : Script :=
  { Script.plain with replies := [.error "out of memory", .ids [], .ids [7]] }

/-- The row of an attempt that two recorders ask for. -/
def sharedAttempt : NewAttempt :=
  ⟨42, 1, "chrome", "Linux", "acme/builder", "ci-bot", "push", "Cypress test", "release"⟩

/-- The second of two requests for an attempt is made although the first one failed, and finds the
row that another gateway has made. -/
theorem disciplined_transcript_stumbling :
    ∃ past x rest,
      transcript Script.server [.upsertAttempt sharedAttempt, .upsertAttempt sharedAttempt, .close]
        (.live, stumblingScript) = past ++ x :: rest ∧
      x.statements = [.insertAttempt sharedAttempt, .selectAttempt 42 1] ∧ Disciplined past x :=
  ⟨[_], _, [_], rfl, rfl, (disciplined_transcript Script.server
    [.upsertAttempt sharedAttempt, .upsertAttempt sharedAttempt, .close] stumblingScript).1
      [_] _ [_] rfl⟩

end Gateway

end RunJournal
