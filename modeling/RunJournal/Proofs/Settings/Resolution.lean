import RunJournal.Proofs.Text.Digits
import RunJournal.Settings

/-!
# Which environments are refused, and why

An environment is refused for one variable, the first that offends: it is absent, or it does not
hold the integer that it has to hold (`Environment.Offends`). What counts as the first is not the
order in which the variables are listed or in which settings name them, but the order of the checks
that resolving comes to. `Checks` says of a computation which checks it makes, in order; it is put
together along the computation (`Checks.bind`), so that settings make the checks of their parts
(`checks_settings`).
-/

namespace RunJournal

/-! ## Variables of an environment -/

namespace Environment

variable (env : Environment)

/-- The last pair of a name has this value. -/
def Gives (name value : String) : Prop :=
  ∃ before after, env = before ++ (name, value) :: after ∧ ∀ pair ∈ after, pair.1 ≠ name

/-- No pair has this name. -/
def Lacks (name : String) : Prop := ∀ pair ∈ env, pair.1 ≠ name

variable {env} {name value : String}

/-- A variable has the value that was set last. -/
theorem get?_eq_some_iff : env.get? name = some value ↔ env.Gives name value := by
  rw [get?, List.lookup_eq_some_iff]
  constructor
  -- the variables are looked up from the last to the first
  · rintro ⟨after, before, henv, hafter⟩
    rw [List.reverse_eq_append_iff, List.reverse_cons, List.append_assoc] at henv
    refine ⟨before.reverse, after.reverse, henv, fun pair hpair heq => ?_⟩
    have hne := hafter pair (List.mem_reverse.mp hpair)
    rw [heq, bne_self_eq_false] at hne
    cases hne
  · rintro ⟨before, after, rfl, hafter⟩
    refine ⟨after.reverse, before.reverse, by simp, fun pair hpair => ?_⟩
    exact bne_iff_ne.mpr fun heq => hafter pair (List.mem_reverse.mp hpair) heq.symm

/-- A variable without a value was never set. -/
theorem get?_eq_none_iff : env.get? name = none ↔ env.Lacks name := by
  rw [get?, List.lookup_eq_none_iff]
  constructor
  · intro h pair hpair heq
    have hne := h pair (List.mem_reverse.mpr hpair)
    rw [heq, bne_self_eq_false] at hne
    cases hne
  · intro h pair hpair
    exact bne_iff_ne.mpr fun heq => h pair (List.mem_reverse.mp hpair) heq.symm

theorem lacks_iff : env.Lacks name ↔ ¬ ∃ value, env.Gives name value := by
  rw [← get?_eq_none_iff]
  simp only [← get?_eq_some_iff]
  cases env.get? name <;> simp

end Environment

/-! ## What a recording needs -/

/-- What a variable has to hold. -/
inductive Form where
  | text
  /-- An integer in a range, with white space around it or not. -/
  | integer (expected : String) (range : Int × Int)

/-- A variable that has to be given. -/
structure Need where
  name : String
  form : Form

/-- Whether a text is an integer in a range, with white space around it or not. -/
def HoldsInteger (range : Int × Int) (value : String) : Prop :=
  ∃ i, Text.Denotes (Text.trim value.toList) i ∧ range.1 ≤ i ∧ i ≤ range.2

/-- An environment does not give what is needed, and the error says how. -/
inductive Environment.Offends (env : Environment) : Need → ConfigError → Prop where
  | missing {name : String} {form : Form} (h : env.Lacks name) :
      Offends env ⟨name, form⟩ (.missing name)
  | invalid {name value expected : String} {range : Int × Int} (hgives : env.Gives name value)
      (hvalue : ¬ HoldsInteger range value) :
      Offends env ⟨name, .integer expected range⟩ (.invalid name value expected)

/-- Whether a text is what a variable has to hold. -/
def Form.Admits : Form → String → Prop
  | .text, _ => True
  | .integer _ range, value => HoldsInteger range value

/-- A need that nothing offends is met by a value that its form admits. -/
theorem Environment.not_offends_iff {env : Environment} {need : Need} :
    (∀ cause, ¬ env.Offends need cause) ↔
      ∃ value, env.Gives need.name value ∧ need.form.Admits value := by
  obtain ⟨name, form⟩ := need
  constructor
  · intro h
    by_contra hnone
    have hgives : ∃ value, env.Gives name value := by
      by_contra hlacks
      exact h _ (.missing (lacks_iff.mpr hlacks))
    obtain ⟨value, hvalue⟩ := hgives
    cases form with
    | text => exact hnone ⟨value, hvalue, trivial⟩
    | integer expected range =>
      exact h _ (.invalid hvalue fun hholds => hnone ⟨value, hvalue, hholds⟩)
  · rintro ⟨value, hvalue, hadmits⟩ cause hoffends
    cases hoffends with
    | missing hlacks => exact lacks_iff.mp hlacks ⟨value, hvalue⟩
    | invalid hgives hinvalid =>
      -- a name has one last pair
      have hsame := (get?_eq_some_iff.mpr hvalue).symm.trans (get?_eq_some_iff.mpr hgives)
      exact hinvalid (Option.some.inj hsame ▸ hadmits)

/-- Of several needs, the first that an environment does not meet, as an error. -/
def Environment.FirstOffence (env : Environment) (needs : List Need) (cause : ConfigError) : Prop :=
  ∃ before need after, needs = before ++ need :: after ∧
    (∀ earlier ∈ before, ∀ cause, ¬ env.Offends earlier cause) ∧ env.Offends need cause

/-- What is needed to log in to the database. -/
def databaseNeeds : List Need :=
  [⟨"CYPRESS_DB_USER", .text⟩, ⟨"CYPRESS_DB_HOST", .text⟩, ⟨"CYPRESS_DB_NAME", .text⟩,
    ⟨"CYPRESS_DB_PWD", .text⟩]

/-- What is needed for the artifact bucket. -/
def bucketNeeds : List Need := [⟨"CYPRESS_S3_ACCESS", .text⟩, ⟨"CYPRESS_S3_SECRET", .text⟩]

/-- What is needed to identify a recording. -/
def identityNeeds : List Need :=
  [⟨"RUNID", .integer "an integer workflow run id" workflowRange⟩,
    ⟨"ATTEMPT_NUMBER", .integer "an integer attempt number" attemptRange⟩,
    ⟨"REPOSITORY", .text⟩, ⟨"COMMITTER", .text⟩, ⟨"TAG", .text⟩, ⟨"BRANCH", .text⟩,
    ⟨"THIS_RUNNER", .text⟩]

/-- What is needed for a recording, in the order in which it is looked for. -/
def settingsNeeds : List Need := databaseNeeds ++ bucketNeeds ++ identityNeeds

/-! ## Checks in their order -/

variable {env : Environment}

/-- How an environment offends against a need, if it does. -/
def Environment.offence? (env : Environment) (need : Need) : Option ConfigError :=
  match env.get? need.name, need.form with
  | none, _ => some (.missing need.name)
  | some _, .text => none
  | some value, .integer expected range =>
    if (Text.readIntIn range.1 range.2 (Text.trim value.toList)).isSome then none
    else some (.invalid need.name value expected)

/-- A value holds an integer of the range when one is read from it, blanks around it aside. -/
theorem isSome_readIntIn_iff {range : Int × Int} {value : String} :
    (Text.readIntIn range.1 range.2 (Text.trim value.toList)).isSome = true ↔
      HoldsInteger range value := by
  rw [Option.isSome_iff_exists]
  exact exists_congr fun i => Text.readIntIn_eq_some_iff

/-- An offence against a need is found exactly when there is one. -/
theorem offence?_eq_some_iff {need : Need} {cause : ConfigError} :
    env.offence? need = some cause ↔ env.Offends need cause := by
  obtain ⟨name, form⟩ := need
  constructor
  -- a value is looked at only when an integer is asked for
  · intro h
    unfold Environment.offence? at h
    split at h
    · rename_i hlacks
      cases h
      exact .missing (Environment.get?_eq_none_iff.mp hlacks)
    · cases h
    · rename_i value expected range hgives hform
      obtain rfl : form = .integer expected range := hform
      split at h
      · cases h
      · rename_i hvalue
        cases h
        exact .invalid (Environment.get?_eq_some_iff.mp hgives)
          (isSome_readIntIn_iff.not.mp hvalue)
  · intro h
    cases h with
    | missing h =>
      simp only [Environment.offence?, Environment.get?_eq_none_iff.mpr h]
    | invalid hgives hvalue =>
      simp only [Environment.offence?, Environment.get?_eq_some_iff.mpr hgives,
        if_neg (isSome_readIntIn_iff.not.mpr hvalue)]

/-- The computation fails with the first offence against the needs, and comes to something if there
is none. -/
def Checks {α : Type} (env : Environment) (needs : List Need) (x : Except ConfigError α) : Prop :=
  match needs.findSome? env.offence? with
  | some cause => x = .error cause
  | none => ∃ a, x = .ok a

namespace Checks

variable {α β : Type} {needs more : List Need} {x : Except ConfigError α}

theorem ok (a : α) : Checks env [] (.ok a : Except ConfigError α) := ⟨a, rfl⟩

/-- Checks are made one after the other, and those that come after a failure are not made. -/
theorem bind {f : α → Except ConfigError β} (hx : Checks env needs x)
    (hf : ∀ a, Checks env more (f a)) : Checks env (needs ++ more) (x >>= f) := by
  unfold Checks at hx ⊢
  rw [List.findSome?_append]
  cases hoffence : needs.findSome? env.offence? with
  | some cause =>
    rw [hoffence] at hx
    rw [hx]
    rfl
  | none =>
    rw [hoffence] at hx
    obtain ⟨a, rfl⟩ := hx
    exact hf a

/-- What has to be given is checked to be there, and nothing else about it. -/
theorem require (name : String) : Checks env [⟨name, .text⟩] (env.require name) := by
  unfold Checks Environment.require
  rw [List.findSome?_singleton, Environment.offence?]
  cases env.get? name with
  | none => rfl
  | some value => exact ⟨value, rfl⟩

/-- What has to be an integer is checked to be there first, and then to be one in range. -/
theorem requireInt (name expected : String) (range : Int × Int) :
    Checks env [⟨name, .integer expected range⟩]
      (env.requireInt name expected range.1 range.2) := by
  unfold Checks Environment.requireInt Environment.require
  rw [List.findSome?_singleton, Environment.offence?]
  cases env.get? name with
  | none => rfl
  | some value =>
    have hfound (f : String → Except ConfigError Int) : (Except.ok value >>= f) = f value := rfl
    simp only [hfound]
    cases hvalue : Text.readIntIn range.1 range.2 (Text.trim value.toList) with
    | none => simp
    | some i => simp

/-- Settings that are refused name their first offence. -/
theorem eq_error_iff (h : Checks env needs x) {cause : ConfigError} :
    x = .error cause ↔ env.FirstOffence needs cause := by
  have hfirst : needs.findSome? env.offence? = some cause ↔ env.FirstOffence needs cause := by
    simp only [List.findSome?_eq_some_iff, Environment.FirstOffence, offence?_eq_some_iff,
      Option.eq_none_iff_forall_ne_some, ne_eq, and_comm]
  rw [← hfirst]
  unfold Checks at h
  cases hoffence : needs.findSome? env.offence? with
  | some cause' =>
    rw [hoffence] at h
    rw [h, Except.error.injEq, Option.some_inj]
  | none =>
    rw [hoffence] at h
    obtain ⟨a, rfl⟩ := h
    exact ⟨(nomatch ·), (nomatch ·)⟩

/-- Settings are taken exactly when nothing offends any need. -/
theorem eq_ok_iff (h : Checks env needs x) :
    (∃ a, x = .ok a) ↔ ∀ need ∈ needs, ∀ cause, ¬ env.Offends need cause := by
  have hnone : needs.findSome? env.offence? = none ↔
      ∀ need ∈ needs, ∀ cause, ¬ env.Offends need cause := by
    rw [List.findSome?_eq_none_iff]
    simp only [Option.eq_none_iff_forall_ne_some, ne_eq, offence?_eq_some_iff]
  rw [← hnone]
  unfold Checks at h
  cases hoffence : needs.findSome? env.offence? with
  | some cause =>
    rw [hoffence] at h
    rw [h]
    exact ⟨fun ⟨_, hok⟩ => (nomatch hok), (nomatch ·)⟩
  | none =>
    rw [hoffence] at h
    exact ⟨fun _ => rfl, fun _ => h⟩

end Checks

/-! ## The checks of settings -/

variable (env)

/-- The database needs its four variables, in the order in which they are asked for. -/
theorem checks_database (config : DatabaseConfig) :
    Checks env databaseNeeds (DatabaseSettings.resolve env config) :=
  (Checks.require "CYPRESS_DB_USER").bind fun _ =>
    (Checks.require "CYPRESS_DB_HOST").bind fun _ =>
      (Checks.require "CYPRESS_DB_NAME").bind fun _ =>
        (Checks.require "CYPRESS_DB_PWD").bind fun _ => .ok _

theorem checks_bucket : Checks env bucketNeeds (BucketSettings.resolve env) :=
  (Checks.require "CYPRESS_S3_ACCESS").bind fun _ =>
    (Checks.require "CYPRESS_S3_SECRET").bind fun _ => .ok _

/-- The identity of a run needs its seven variables, two of them integers. -/
theorem checks_identity : Checks env identityNeeds (Identity.ofEnvironment env) :=
  (Checks.requireInt "RUNID" "an integer workflow run id" workflowRange).bind fun _ =>
    (Checks.requireInt "ATTEMPT_NUMBER" "an integer attempt number" attemptRange).bind fun _ =>
      (Checks.require "REPOSITORY").bind fun _ => (Checks.require "COMMITTER").bind fun _ =>
        (Checks.require "TAG").bind fun _ => (Checks.require "BRANCH").bind fun _ =>
          (Checks.require "THIS_RUNNER").bind fun _ => .ok _

/-- **Settings make the checks of their parts**: of the database, of the bucket, and of the
identity. -/
theorem checks_settings (config : Config) :
    Checks env settingsNeeds (Settings.resolve env config) := by
  have hchecks := (checks_database env config.database).bind fun database =>
    (checks_bucket env).bind fun storage =>
      (checks_identity env).bind fun identity => .ok (Settings.mk identity database storage)
  rwa [List.append_nil, ← List.append_assoc] at hchecks

/-- The variables looked for are those that are listed as needed. -/
theorem perm_settingsNeeds : (settingsNeeds.map Need.name).Perm requiredVariables := by
  decide

/-- An environment meets the needs of settings if all needed variables are there and the two that
are numbers can be read. -/
theorem meets_settingsNeeds_iff :
    (∀ need ∈ settingsNeeds, ∀ cause, ¬ env.Offends need cause) ↔
      (∀ name ∈ requiredVariables, ∃ value, env.Gives name value) ∧
        (∃ value, env.Gives "RUNID" value ∧ HoldsInteger workflowRange value) ∧
        ∃ value, env.Gives "ATTEMPT_NUMBER" value ∧ HoldsInteger attemptRange value := by
  simp only [Environment.not_offends_iff]
  constructor
  · intro h
    refine ⟨fun name hname => ?_, h _ (List.mem_append_right _ List.mem_cons_self),
      h _ (List.mem_append_right _ (List.mem_cons_of_mem _ List.mem_cons_self))⟩
    obtain ⟨need, hneed, rfl⟩ := List.mem_map.mp (perm_settingsNeeds.mem_iff.mpr hname)
    obtain ⟨value, hvalue, -⟩ := h need hneed
    exact ⟨value, hvalue⟩
  · rintro ⟨hpresent, hrun, hattempt⟩ need hneed
    -- all needs ask for any text, but two
    have hforms : need.form = .text ∨
        need = ⟨"RUNID", .integer "an integer workflow run id" workflowRange⟩ ∨
        need = ⟨"ATTEMPT_NUMBER", .integer "an integer attempt number" attemptRange⟩ := by
      revert need
      simp [settingsNeeds, databaseNeeds, bucketNeeds, identityNeeds]
    rcases hforms with htext | rfl | rfl
    · obtain ⟨value, hvalue⟩ :=
        hpresent need.name (perm_settingsNeeds.mem_iff.mp (List.mem_map_of_mem hneed))
      rw [htext]
      exact ⟨value, hvalue, trivial⟩
    · exact hrun
    · exact hattempt

/-- What only the database and the bucket need does not matter to an identity. -/
theorem identity_congr {env' : Environment}
    (h : ∀ name, name ∉ (databaseNeeds ++ bucketNeeds).map Need.name →
      ∀ value, env'.Gives name value ↔ env.Gives name value) :
    Identity.ofEnvironment env' = Identity.ofEnvironment env := by
  have hget : ∀ name, name ∉ (databaseNeeds ++ bucketNeeds).map Need.name →
      env'.get? name = env.get? name := by
    intro name hname
    refine Option.ext fun value => ?_
    exact Environment.get?_eq_some_iff.trans ((h name hname value).trans
      Environment.get?_eq_some_iff.symm)
  simp only [Identity.ofEnvironment, Environment.requireInt, Environment.require,
    Environment.getOrPlaceholder, hget "COMMIT_INFO_MESSAGE" (by decide), hget "RUNID" (by decide),
    hget "ATTEMPT_NUMBER" (by decide), hget "REPOSITORY" (by decide), hget "COMMITTER" (by decide),
    hget "TAG" (by decide), hget "BRANCH" (by decide), hget "THIS_RUNNER" (by decide)]

end RunJournal
