import RunJournal.Proofs.Artifact.DryRun
import RunJournal.Proofs.Config.Merging

/-!
# The deadline of a recording

A recording that has submitted uploads waits for them until a deadline, which is the reading of the
clock at that time and the seconds that its configuration grants. The clock does not have all
readings, so there need not be a deadline, and then the recording ends with an error although all of
its events were recorded.

A document may grant any number of seconds below 2⁶³ (`uploadGraceSecs_lt`), and the greatest of
them reaches past the clock as soon as the clock has left its first second. `ends_for_deadline_iff`
says exactly which recordings and dry runs end for want of a deadline.
-/

namespace RunJournal

/-- The clock has the reading until which a configuration waits for uploads: its seconds are below
2⁶³. -/
def DeadlineFits (clock : Instant) (config : Config) : Prop :=
  clock.seconds + config.artifacts.uploadGraceSecs < 9223372036854775808

theorem Instant.after?_eq_none_iff {clock : Instant} {seconds : Nat} :
    clock.after? seconds = none ↔ Instant.limit ≤ clock.seconds + seconds := by
  rw [Instant.after?]
  split
  · rename_i hlt
    exact ⟨nofun, fun hle => absurd hlt (not_lt.mpr hle)⟩
  · rename_i hnot
    exact ⟨fun _ => not_lt.mp hnot, fun _ => rfl⟩

/-! ## What a document may grant -/

section Documents

open Toml

/-- A field is its default, or it was read from a value under its name. -/
theorem Toml.eq_default_or_of_field {α : Type} {fields : List (String × Toml)} {name : String}
    {read : Toml → Option α} {default a : α} (h : field fields name read default = some a) :
    a = default ∨ ∃ v, (name, v) ∈ fields ∧ read v = some a := by
  rw [field] at h
  cases hfound : fields.lookup name with
  | none =>
    rw [hfound] at h
    exact .inl (Option.some.inj h).symm
  | some v =>
    rw [hfound] at h
    exact .inr ⟨v, mem_of_lookup hfound, h⟩

/-- The fields of a section are well formed, whether it is a table or an array. -/
theorem Toml.wellFormed_of_fields? {names : List String} {v : Toml} {fields : List (String × Toml)}
    (hv : v.WellFormed) (h : fields? names v = some fields) : ∀ m ∈ fields, m.2.WellFormed := by
  cases hv with
  | table hnodup hmembers =>
    cases h
    exact hmembers
  | array hitems =>
    cases h
    intro m hm
    exact hitems m.2 (List.of_mem_zip hm).2
  | moment spelling =>
    cases h
    exact fun m hm => absurd hm List.not_mem_nil
  | _ => cases h

theorem ArtifactConfig.uploadGraceSecs_lt {v : Toml} {c : ArtifactConfig} (hv : v.WellFormed)
    (h : ArtifactConfig.ofToml? v = some c) : c.uploadGraceSecs < 2 ^ 63 := by
  simp only [ofToml?, Option.bind_eq_bind, Option.bind_eq_some_iff] at h
  obtain ⟨fields, hfields, bucket, -, region, -, grace, hgrace, hc⟩ := h
  cases hc
  rcases eq_default_or_of_field hgrace with rfl | ⟨w, hw, hread⟩
  · show ArtifactConfig.default.uploadGraceSecs < 2 ^ 63
    decide
  · obtain ⟨rfl, -⟩ := asNatBelow_eq_some_iff.mp hread
    cases wellFormed_of_fields? hv hfields _ hw with
    | integer hfits =>
      have hhigh := hfits.2
      show grace < 2 ^ 63
      omega

/-- **No document grants 2⁶³ seconds**, since no integer of a document is that great. -/
theorem Config.uploadGraceSecs_lt {document : List Char} {config : Config}
    (h : Config.read document = some config) : config.artifacts.uploadGraceSecs < 2 ^ 63 := by
  obtain ⟨members, hmembers, hconfig⟩ := Option.bind_eq_some_iff.mp h
  obtain ⟨-, hartifacts, -⟩ := Config.ofToml?_eq_some_iff.mp hconfig
  rcases eq_default_or_of_field hartifacts with hdefault | ⟨v, hv, hread⟩
  · rw [hdefault]
    decide
  · cases wellFormed_read hmembers with
    | table hnodup hvalues => exact ArtifactConfig.uploadGraceSecs_lt (hvalues _ hv) hread

/-- A document that grants the greatest number of seconds. -/
def longestGrace : List Char := "[artifacts]\nupload_grace_secs = 9223372036854775807\n".toList

/-- The configuration with the greatest number of seconds. -/
def longestConfig : Config :=
  { Config.default with
    artifacts := { ArtifactConfig.default with uploadGraceSecs := 9223372036854775807 } }

theorem read_longestGrace : Config.read longestGrace = some longestConfig := by
  decide +kernel

/-- Whatever a document grants is within reach of a clock only in its first second. -/
theorem deadlineFits_of_read_iff {clock : Instant} :
    (∀ document config, Config.read document = some config → DeadlineFits clock config) ↔
      clock.seconds ≤ 0 := by
  constructor
  · intro h
    have hlongest : clock.seconds + 9223372036854775807 < 9223372036854775808 :=
      h longestGrace longestConfig read_longestGrace
    omega
  · intro hclock document config hread
    have hgrace := Config.uploadGraceSecs_lt hread
    show clock.seconds + (config.artifacts.uploadGraceSecs : Int) < 9223372036854775808
    omega

end Documents

/-! ## Waiting -/

/-- **A wait fails only for want of a deadline**, and only if there is something to wait for. -/
theorem deliverWithin_eq_error_iff (disk : Disk) {clock : Instant} {config : Config}
    {uploads : List Upload} {cause : RecordingError} :
    deliverWithin disk clock config.artifacts.uploadGraceSecs uploads = .error cause ↔
      uploads ≠ [] ∧ ¬ DeadlineFits clock config ∧ cause = .deadline := by
  have hfits : ¬ DeadlineFits clock config ↔
      clock.after? config.artifacts.uploadGraceSecs = none := by
    rw [DeadlineFits, not_lt]
    exact Instant.after?_eq_none_iff.symm
  rw [hfits, deliverWithin]
  -- without uploads there is no drain, and no deadline is computed
  cases uploads with
  | nil =>
    constructor
    · intro h
      cases h
    · rintro ⟨hne, -⟩
      exact absurd rfl hne
  | cons u rest =>
    rw [if_neg (by simp)]
    cases clock.after? config.artifacts.uploadGraceSecs with
    | none =>
      constructor
      · intro h
        cases h
        exact ⟨List.cons_ne_nil u rest, rfl, rfl⟩
      · rintro ⟨-, -, rfl⟩
        rfl
    | some deadline =>
      constructor
      · intro h
        cases h
      · rintro ⟨-, hnone, -⟩
        cases hnone

/-! ## Ends of recordings -/

section Recordings

variable {σ : Type}

/-- A replay that has read its stream to the end and has submitted uploads. -/
def Replayed.Submits (p : Replayed σ) : Prop := (∃ summary, p.result = .ok summary) ∧ p.uploads ≠ []

/-- A dry run comes to this replay. -/
def DryRunReplays (around : Surroundings) (env : Environment) (source : EventSource)
    (p : Replayed Tables) : Prop :=
  ∃ identity entry, Identity.ofEnvironment env = .ok identity ∧
    source.openOn around.disk = .ok entry ∧
    p = replayEntry Tables.store identity around.now entry Tables.empty

/-- A recording comes to this replay, with a link to its server or without. -/
def RecordReplays (around : Surroundings) (server : Server σ) (env : Environment) (config : Config)
    (source : EventSource) (s : σ) (p : Replayed (Link × σ)) : Prop :=
  ∃ settings entry, Settings.resolve env config = .ok settings ∧
    source.openOn around.disk = .ok entry ∧
    let connected := Gateway.connect server settings.database s
    p = replayEntry (Gateway.store server) settings.identity around.now entry
      ((linkOf connected.1).1, connected.2)

theorem openOn_ne_deadline {source : EventSource} {disk : Disk} :
    source.openOn disk ≠ .error .deadline := by
  intro h
  cases source with
  | file path =>
    rw [EventSource.openOn] at h
    cases hfile : disk path with
    | error cause =>
      rw [hfile] at h
      cases h
    | ok entry =>
      rw [hfile] at h
      cases h
  | stream bytes => cases h

theorem replayEntry_ne_deadline {store : Store σ} {identity : Identity} {now : Timestamp}
    {entry : Entry} {s : σ} :
    (replayEntry store identity now entry s).result ≠ .error .deadline := by
  intro h
  rw [replayEntry] at h
  cases hcontents : entry.contents with
  | error cause =>
    rw [hcontents] at h
    cases h
  | ok stream =>
    rw [hcontents] at h
    cases hresult : (replay store identity now stream .initial s).1 with
    | error fault =>
      simp only [hresult] at h
      cases h
    | ok summary =>
      simp only [hresult] at h
      cases h

variable {around : Surroundings} {env : Environment} {config : Config} {source : EventSource}

theorem dryRun_eq_deadline_iff :
    (dryRun around env config source).result = .error .deadline ↔
      ¬ DeadlineFits around.clock config ∧
        ∃ p, DryRunReplays around env source p ∧ p.Submits := by
  constructor
  · intro h
    -- one stage after the other: only the last asks the clock
    unfold dryRun at h
    split at h
    · cases h
    · rename_i identity hidentity
      split at h
      · rename_i cause hopen
        cases h
        exact absurd hopen openOn_ne_deadline
      · rename_i entry hopen
        dsimp only at h
        split at h
        · rename_i cause hresult
          cases h
          exact absurd hresult replayEntry_ne_deadline
        · rename_i summary hresult
          split at h
          · rename_i cause hdelivery
            obtain ⟨huploads, hlate, -⟩ := (deliverWithin_eq_error_iff _).mp hdelivery
            exact ⟨hlate, _, ⟨identity, entry, hidentity, hopen, rfl⟩, ⟨summary, hresult⟩,
              huploads⟩
          · cases h
  · rintro ⟨hlate, p, ⟨identity, entry, hidentity, hopen, rfl⟩, ⟨summary, hresult⟩, huploads⟩
    have hdelivery := (deliverWithin_eq_error_iff around.disk).mpr ⟨huploads, hlate, rfl⟩
    simp only [dryRun, hidentity, hopen, hresult, hdelivery]

variable {server : Server σ} {s : σ}

theorem record_eq_deadline_iff :
    (record around server env config source s).1.result = .error .deadline ↔
      ¬ DeadlineFits around.clock config ∧
        ∃ p, RecordReplays around server env config source s p ∧ p.Submits := by
  constructor
  · intro h
    -- one stage after the other: only the last asks the clock
    unfold record at h
    split at h
    · cases h
    · rename_i settings hsettings
      split at h
      · rename_i cause hopen
        cases h
        exact absurd hopen openOn_ne_deadline
      · rename_i entry hopen
        dsimp only at h
        split at h
        · rename_i cause hresult
          cases h
          exact absurd hresult replayEntry_ne_deadline
        · rename_i summary hresult
          split at h
          · rename_i cause hdelivery
            obtain ⟨huploads, hlate, -⟩ := (deliverWithin_eq_error_iff _).mp hdelivery
            exact ⟨hlate, _, ⟨settings, entry, hsettings, hopen, rfl⟩, ⟨summary, hresult⟩,
              huploads⟩
          · cases h
  · rintro ⟨hlate, p, ⟨settings, entry, hsettings, hopen, rfl⟩, ⟨summary, hresult⟩, huploads⟩
    have hdelivery := (deliverWithin_eq_error_iff around.disk).mpr ⟨huploads, hlate, rfl⟩
    simp only [record, hsettings, hopen, hresult, hdelivery]

/-- However a recording ends, its server is as the replay left it. -/
theorem record_snd {p : Replayed (Link × σ)}
    (h : RecordReplays around server env config source s p) :
    (record around server env config source s).2 = p.store.2 := by
  obtain ⟨settings, entry, hsettings, hopen, rfl⟩ := h
  simp only [record, hsettings, hopen]
  split
  · rfl
  · split
    · rfl
    · rfl

end Recordings

/-- **Which recordings end for want of a deadline.** On a clock past its first second not every
configuration that a document may give has one. Where there are uploads to wait for, the wait comes
to an end exactly if the deadline fits the clock; so a dry run, or a recording, ends for want of a
deadline exactly if it has replayed its stream to the end, has submitted uploads, and the deadline
does not fit. A recording has by then left all that it recorded with its server. -/
theorem ends_for_deadline_iff (around : Surroundings) (env : Environment) (source : EventSource) :
    ((∀ document config, Config.read document = some config →
        DeadlineFits around.clock config) ↔ around.clock.seconds ≤ 0) ∧
      ∀ config : Config,
        (∀ uploads, uploads ≠ [] →
          ((∃ delivery, deliverWithin around.disk around.clock config.artifacts.uploadGraceSecs
            uploads = .ok delivery) ↔ DeadlineFits around.clock config)) ∧
        ((dryRun around env config source).result = .error .deadline ↔
          ¬ DeadlineFits around.clock config ∧
            ∃ p, DryRunReplays around env source p ∧ p.Submits) ∧
        ∀ {σ : Type} (server : Server σ) (s : σ),
          ((record around server env config source s).1.result = .error .deadline ↔
            ¬ DeadlineFits around.clock config ∧
              ∃ p, RecordReplays around server env config source s p ∧ p.Submits) ∧
          ∀ p, RecordReplays around server env config source s p →
            (record around server env config source s).2 = p.store.2 := by
  refine ⟨deadlineFits_of_read_iff, fun config => ⟨fun uploads huploads => ?_,
    dryRun_eq_deadline_iff, fun server s => ⟨record_eq_deadline_iff, fun p => record_snd⟩⟩⟩
  cases hdelivery :
    deliverWithin around.disk around.clock config.artifacts.uploadGraceSecs uploads with
  | error cause =>
    obtain ⟨-, hlate, -⟩ := (deliverWithin_eq_error_iff _).mp hdelivery
    exact ⟨nofun, fun hfits => absurd hfits hlate⟩
  | ok delivery =>
    refine ⟨fun _ => ?_, fun _ => ⟨delivery, rfl⟩⟩
    by_contra hlate
    rw [(deliverWithin_eq_error_iff around.disk).mpr ⟨huploads, hlate, rfl⟩] at hdelivery
    cases hdelivery

/-- A stream with one spec, whose one test failed and has a screenshot. -/
def failedShot : List UInt8 :=
  ("[\"before:run\",[[\"chrome\"]]]\n[\"before:spec\",[\"a.ts\"]]\n" ++
    "[\"after:spec\",[\"a.ts\"],[[1,0,1],[[\"r1\",[\"A\",\"b\"],\"failed\"," ++
    "[\x7b\"state\":\"failed\"\x7d]]],[[\"a.png\",\"r1\",0]]]]\n[\"after:run\"]\n"
    ).toUTF8.data.toList

/-- A disk with the screenshot, and a clock that runs for one day. -/
def afterOneDay : Surroundings where
  disk path := if path = "a.png" then .ok (.file [120]) else .error .notFound
  now := ⟨0, 0⟩
  clock := ⟨86400, 0⟩

/-- The identity of the sample environment. -/
def sampleIdentity : Identity where
  workflowId := 42
  attempt := 1
  matrixId := "shard-a"
  os := "Linux"
  repo := "acme/builder"
  committer := "ci-bot"
  runType := "push"
  branch := "release"
  commitMsg := "Cypress test"

/-- After a day a document that grants the greatest number of seconds ends a dry run that has
replayed all four of its events and has a screenshot to upload. -/
theorem dryRun_longestGrace :
    Config.read longestGrace = some longestConfig ∧ 0 ≤ afterOneDay.clock.seconds ∧
      (∃ p, DryRunReplays afterOneDay sampleEnvironment (.stream failedShot) p ∧
        p.result = .ok ⟨4, 1, 0, 0, 0, 0, true⟩ ∧
        p.uploads = [⟨.screenshot, "a.png", "4_3_1"⟩]) ∧
      (dryRun afterOneDay sampleEnvironment longestConfig (.stream failedShot)).result =
        .error .deadline := by
  have hlate : ¬ DeadlineFits afterOneDay.clock longestConfig := by
    show ¬ (86400 + ((9223372036854775807 : Nat) : Int) < 9223372036854775808)
    omega
  have hreplays : DryRunReplays afterOneDay sampleEnvironment (.stream failedShot)
      (replayEntry Tables.store sampleIdentity afterOneDay.now (.file failedShot) Tables.empty) :=
    ⟨sampleIdentity, .file failedShot, by decide +kernel, rfl, rfl⟩
  have hresult : (replayEntry Tables.store sampleIdentity afterOneDay.now (.file failedShot)
      Tables.empty).result = .ok ⟨4, 1, 0, 0, 0, 0, true⟩ := by
    decide +kernel
  have huploads : (replayEntry Tables.store sampleIdentity afterOneDay.now (.file failedShot)
      Tables.empty).uploads = [⟨.screenshot, "a.png", "4_3_1"⟩] := by
    decide +kernel
  refine ⟨read_longestGrace, by decide, ⟨_, hreplays, hresult, huploads⟩, ?_⟩
  exact dryRun_eq_deadline_iff.mpr ⟨hlate, _, hreplays, ⟨_, hresult⟩, by simp [huploads]⟩

end RunJournal
