import Mathlib.Data.List.Induction
import RunJournal.Proofs.Recorder.Calls
import RunJournal.Proofs.Replay.Dispatch
import RunJournal.Proofs.Settings.Resolution
import RunJournal.Recording

/-!
# When a recording reaches for the database

Whatever is wrong with the environment, or with the file of the stream, is found before anything is
asked of the database. To see it, the server is given a counter that goes up whenever it is reached
for (`Server.counted`). Nothing that comes after the connection moves the counter, since a gateway
only executes statements and hangs up, so it is read off at the end of a recording
(`record_counted`).
-/

namespace RunJournal

variable {σ : Type}

/-- The server with a count of how often it was reached for. -/
def Server.counted (server : Server σ) : Server (σ × Nat) where
  reach := fun (s, n) =>
    let (result, s) := server.reach s
    (result, s, n + 1)
  encrypts := fun (s, n) =>
    let (encrypted, s) := server.encrypts s
    (encrypted, s, n)
  login user database password := fun (s, n) =>
    let (result, s) := server.login user database password s
    (result, s, n)
  execute q := fun (s, n) =>
    let (reply, s) := server.execute q s
    (reply, s, n)
  hangUp := fun (s, n) =>
    let (reply, s) := server.hangUp s
    (reply, s, n)

variable (server : Server σ)

/-- A conversation does not reach for a server anew. -/
theorem Dialogue.count_run {α : Type} (d : Dialogue α) (s : σ × Nat) :
    (d.run server.counted s).2.2 = s.2 := by
  induction d generalizing s with
  | done result => rfl
  | execute q next ih => exact ih _ (server.counted.execute q s).2
  | hangUp next ih => exact ih _ (server.counted.hangUp s).2

theorem Gateway.count_store (q : Request) (g : Link × σ × Nat) :
    (store server.counted q g).2.2.2 = g.2.2 :=
  (answer q g.1).count_run server g.2

/-- A connection reaches for the server once, whether or not it is made. -/
theorem Gateway.count_connect (settings : DatabaseSettings) (s : σ × Nat) :
    (connect server.counted settings s).2.2 = s.2 + 1 := by
  rw [connect]
  rcases hreach : server.counted.reach s with ⟨result, s'⟩
  have hcount : s'.2 = s.2 + 1 := (congrArg (fun x => x.2.2) hreach).symm
  cases result with
  | error cause => exact hcount
  | ok _ =>
    dsimp only
    split
    · exact hcount
    · exact hcount

/-- What every request keeps, a replay keeps. -/
theorem replay_induction {store : Store σ} {motive : σ → Prop}
    (hstep : ∀ q s, motive s → motive (store q s).2) (identity : Identity) (now : Timestamp)
    (stream : List UInt8) (r : RunState) {s : σ} (h : motive s) :
    motive (replay store identity now stream r s).2.store := by
  have hcourse := congrArg Course.store (replay_course store identity now stream r s)
  show motive (replay store identity now stream r s).2.course.store
  rw [hcourse]
  generalize dispatched stream = events
  induction events using List.reverseRecOn with
  | nil => exact h
  | append_singleton events e ih =>
    rw [Course.recordAll_append]
    exact recordEvent_induction (fun q s _ => hstep q s) identity now _ ih

/-- A replay does not reach for a server anew. -/
theorem count_replayEntry (identity : Identity) (now : Timestamp) (entry : Entry)
    (g : Link × σ × Nat) :
    (replayEntry (Gateway.store server.counted) identity now entry g).store.2.2 = g.2.2 := by
  rw [replayEntry]
  cases entry.contents with
  | error cause => rfl
  | ok stream =>
    exact replay_induction (motive := fun g' => g'.2.2 = g.2.2)
      (fun q g' hcount => (Gateway.count_store server q g').trans hcount) identity now stream
      .initial rfl

variable (around : Surroundings) (env : Environment) (config : Config) (source : EventSource)

/-- A recording that fails early has asked nothing of any server. -/
theorem record_eq_early (h : (∀ settings, Settings.resolve env config ≠ .ok settings) ∨
      ∀ entry, source.openOn around.disk ≠ .ok entry) :
    ∃ cause, ∀ {σ : Type} (server : Server σ) (s : σ),
      record around server env config source s = (.early cause, s) := by
  cases hresolve : Settings.resolve env config with
  | error cause => exact ⟨.environment cause, fun server s => by rw [record, hresolve]⟩
  | ok settings =>
    cases hopen : source.openOn around.disk with
    | error cause => exact ⟨cause, fun server s => by simp only [record, hresolve, hopen]⟩
    | ok entry =>
      rcases h with h | h
      · exact absurd hresolve (h settings)
      · exact absurd hopen (h entry)

/-- Any other recording reaches for its server once. -/
theorem count_record {settings : Settings} {entry : Entry}
    (hresolve : Settings.resolve env config = .ok settings)
    (hopen : source.openOn around.disk = .ok entry) (s : σ × Nat) :
    (record around server.counted env config source s).2.2 = s.2 + 1 := by
  rw [record, hresolve]
  simp only [hopen]
  rw [← Gateway.count_connect server settings.database s]
  refine Eq.trans ?_ (count_replayEntry server settings.identity around.now entry
    ((linkOf (Gateway.connect server.counted settings.database s).1).1,
      (Gateway.connect server.counted settings.database s).2))
  split
  · rfl
  · split
    · rfl
    · rfl

/-- **A recording that is set up wrongly fails fast and says why.** Settings come out of an
environment exactly if all needed variables are there and the two numbers among them can be read;
otherwise the error is about the first variable that is not there or cannot be read, in the order
in which they are listed here. An identity, and so a dry run, does not depend on anything that is
needed for the database or the bucket. A recording reaches for its server exactly if its settings
were resolved and its stream was opened, and does so once; otherwise it ends with an error that is
the same with any server, and leaves the server alone. -/
theorem record_fails_fast (env : Environment) (config : Config) :
    ((∃ settings, Settings.resolve env config = .ok settings) ↔
      (∀ name ∈ requiredVariables, ∃ value, env.Gives name value) ∧
        (∃ value, env.Gives "RUNID" value ∧
          HoldsInteger (-9223372036854775808, 9223372036854775807) value) ∧
        ∃ value, env.Gives "ATTEMPT_NUMBER" value ∧
          HoldsInteger (-2147483648, 2147483647) value) ∧
    (∀ cause, Settings.resolve env config = .error cause ↔
      env.FirstOffence settingsNeeds cause) ∧
    settingsNeeds.map Need.name =
      ["CYPRESS_DB_USER", "CYPRESS_DB_HOST", "CYPRESS_DB_NAME", "CYPRESS_DB_PWD",
        "CYPRESS_S3_ACCESS", "CYPRESS_S3_SECRET", "RUNID", "ATTEMPT_NUMBER", "REPOSITORY",
        "COMMITTER", "TAG", "BRANCH", "THIS_RUNNER"] ∧
    (∀ env' : Environment,
      (∀ name, name ∉ (databaseNeeds ++ bucketNeeds).map Need.name →
        ∀ value, env'.Gives name value ↔ env.Gives name value) →
      Identity.ofEnvironment env' = Identity.ofEnvironment env ∧
        ∀ around config source,
          dryRun around env' config source = dryRun around env config source) ∧
    ∀ (around : Surroundings) (source : EventSource),
      ((∃ settings, Settings.resolve env config = .ok settings) ∧
          (∃ entry, source.openOn around.disk = .ok entry) ∧
          ∀ {σ : Type} (server : Server σ) (s : σ),
            (record around server.counted env config source (s, 0)).2.2 = 1) ∨
        ((∀ settings, Settings.resolve env config ≠ .ok settings) ∨
          ∀ entry, source.openOn around.disk ≠ .ok entry) ∧
        ∃ cause, ∀ {σ : Type} (server : Server σ) (s : σ),
          record around server env config source s = (.early cause, s) := by
  have hchecks := checks_settings env config
  refine ⟨hchecks.eq_ok_iff.trans (meets_settingsNeeds_iff env), fun _ => hchecks.eq_error_iff, rfl,
    fun env' henv => ?_, fun around source => ?_⟩
  · have hidentity := identity_congr env henv
    exact ⟨hidentity, fun around config source => by rw [dryRun, dryRun, hidentity]⟩
  · by_cases hready : (∃ settings, Settings.resolve env config = .ok settings) ∧
        ∃ entry, source.openOn around.disk = .ok entry
    · obtain ⟨⟨settings, hresolve⟩, entry, hopen⟩ := hready
      exact Or.inl ⟨⟨settings, hresolve⟩, ⟨entry, hopen⟩, fun server s =>
        count_record server around env config source hresolve hopen (s, 0)⟩
    · have hearly : (∀ settings, Settings.resolve env config ≠ .ok settings) ∨
          ∀ entry, source.openOn around.disk ≠ .ok entry := by
        simpa only [not_and_or, not_exists] using hready
      exact Or.inr ⟨hearly, record_eq_early around env config source hearly⟩

/-- An environment with a number of a run that is one too great, given last, and without a branch. -/
def overflowingRun : Environment :=
  (settingsNeeds.filter (·.name != "BRANCH")).map (fun need => (need.name, "7")) ++
    [("RUNID", " 9223372036854775808\n")]

/-- The sample is refused for the number and not for the branch, and nothing is reached for. Another
login does not matter to its identity. -/
theorem record_fails_fast_overflowingRun :
    let cause := ConfigError.invalid "RUNID" " 9223372036854775808\n" "an integer workflow run id"
    Settings.resolve overflowingRun .default = .error cause ∧
      overflowingRun.FirstOffence settingsNeeds cause ∧
      overflowingRun.Offends ⟨"BRANCH", .text⟩ (.missing "BRANCH") ∧
      Identity.ofEnvironment (("CYPRESS_DB_USER", "0") :: overflowingRun) =
        Identity.ofEnvironment overflowingRun ∧
      ∀ (around : Surroundings) (source : EventSource), ∃ cause, ∀ (server : Server Nat) (s : Nat),
        record around server overflowingRun .default source s = (.early cause, s) := by
  intro cause
  have hresolve : Settings.resolve overflowingRun .default = .error cause := by decide +kernel
  obtain ⟨-, hfirst, -, hidentity, hrecord⟩ := record_fails_fast overflowingRun .default
  have hlacks : overflowingRun.get? "BRANCH" = none := by decide +kernel
  refine ⟨hresolve, (hfirst cause).mp hresolve, .missing (Environment.get?_eq_none_iff.mp hlacks),
    (hidentity _ fun name hname value => ?_).1, fun around source => ?_⟩
  · have hother : [("CYPRESS_DB_USER", "0")].lookup name = none := by
      refine List.lookup_eq_none_iff.mpr fun pair hpair => bne_iff_ne.mpr fun heq => hname ?_
      rw [heq, List.mem_singleton.mp hpair]
      decide
    rw [← Environment.get?_eq_some_iff, ← Environment.get?_eq_some_iff, Environment.get?,
      Environment.get?, List.reverse_cons, List.lookup_append, hother, Option.or_none]
  · rcases hrecord around source with ⟨⟨settings, hok⟩, -⟩ | ⟨-, hearly⟩
    · rw [hresolve] at hok
      cases hok
    · obtain ⟨cause, hearly⟩ := hearly
      exact ⟨cause, fun server s => hearly server s⟩

end RunJournal
