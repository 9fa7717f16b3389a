import Mathlib.Logic.Relation
import RunJournal.Config
import RunJournal.Proofs.Toml.WellFormed

/-!
# Partial configurations

A configuration document need not give every section, nor a section every key. What is given has to
be of the right kind (`Acceptable`), and then each of the eight fields is taken from the document or
from the defaults on its own (`Config.MergedFrom`). Sections and keys that are not known are passed
over, and so is the order in which anything stands (`DocumentEdit`).

The defaults come in at two levels, for a section that is not there and for a key that is not there
in a section. `Merges` does not tell the two apart: it looks only at whether the document has a
value under a key of a section. Both levels are read with `Toml.field`, and `field_eq_some_iff` is
all that is used about it.
-/

namespace RunJournal

namespace Toml

/-! ## Fields -/

section Fields

variable {α : Type} {fields fields' : List (String × Toml)} {name : String} {read : Toml → Option α}
  {default a : α}

/-- A field is what its value is read as, and the default if there is no value. -/
theorem field_eq_some_iff (hnodup : (fields.map Prod.fst).Nodup) :
    field fields name read default = some a ↔
      (∀ v, (name, v) ∈ fields → read v = some a) ∧
        ((∀ v, (name, v) ∉ fields) → a = default) := by
  rw [field]
  -- a name that occurs once is found exactly when it is there
  cases hfound : fields.lookup name with
  | none =>
    have hnone := lookup_eq_none_iff_forall.mp hfound
    constructor
    · intro h
      cases h
      exact ⟨fun v hv => absurd hv (hnone v), fun _ => rfl⟩
    · rintro ⟨-, h⟩
      rw [h hnone]
  | some v =>
    have hmem := (lookup_eq_some_iff_mem hnodup).mp hfound
    constructor
    · intro h
      refine ⟨fun w hw => ?_, fun hnone => absurd hmem (hnone v)⟩
      rw [(lookup_eq_some_iff_mem hnodup).mpr hw] at hfound
      cases hfound
      exact h
    · rintro ⟨h, -⟩
      exact h v hmem

/-- A field can be read if its value can, where there is one. -/
theorem exists_field_iff (hnodup : (fields.map Prod.fst).Nodup) :
    (∃ a, field fields name read default = some a) ↔
      ∀ v, (name, v) ∈ fields → ∃ a, read v = some a := by
  constructor
  · rintro ⟨a, ha⟩ v hv
    exact ⟨a, ((field_eq_some_iff hnodup).mp ha).1 v hv⟩
  · intro h
    by_cases hgiven : ∃ v, (name, v) ∈ fields
    · obtain ⟨v, hv⟩ := hgiven
      obtain ⟨a, ha⟩ := h v hv
      refine ⟨a, (field_eq_some_iff hnodup).mpr ⟨fun w hw => ?_, fun hnone => absurd hv (hnone v)⟩⟩
      have hsame := (lookup_eq_some_iff_mem hnodup).mpr hv
      rw [(lookup_eq_some_iff_mem hnodup).mpr hw] at hsame
      cases hsame
      exact ha
    · exact ⟨default, (field_eq_some_iff hnodup).mpr
        ⟨fun v hv => absurd ⟨v, hv⟩ hgiven, fun _ => rfl⟩⟩

end Fields

/-! ## What a section has to hold -/

/-- What a key of a section has to hold. -/
inductive Kind where
  | text
  | flag
  | port
  | seconds
deriving DecidableEq, Repr

/-- A value is of a kind. -/
inductive Kind.Admits : Kind → Toml → Prop where
  | text (s : String) : Admits .text (.text s)
  | flag (b : Bool) : Admits .flag (.bool b)
  | port {i : Int} (hlow : 0 ≤ i) (hhigh : i ≤ 65535) : Admits .port (.integer i)
  | seconds {i : Int} (hlow : 0 ≤ i) : Admits .seconds (.integer i)

/-- A reader takes the values of a kind and no others, each for what is written so. -/
structure Kind.ReadBy {α : Type} (kind : Kind) (read : Toml → Option α) (write : α → Toml) :
    Prop where
  of_read : ∀ {v a}, read v = some a → kind.Admits v ∧ v = write a
  exists_read : ∀ {v}, v.WellFormed → kind.Admits v → ∃ a, read v = some a

theorem text_readBy : Kind.text.ReadBy asText .text where
  of_read := by
    intro v s h
    cases v with
    | text s' =>
      cases h
      exact ⟨.text _, rfl⟩
    | _ => cases h
  exists_read := by
    intro v _ h
    cases h with
    | text s => exact ⟨s, rfl⟩

theorem flag_readBy : Kind.flag.ReadBy asBool .bool where
  of_read := by
    intro v b h
    cases v with
    | bool b' =>
      cases h
      exact ⟨.flag _, rfl⟩
    | _ => cases h
  exists_read := by
    intro v _ h
    cases h with
    | flag b => exact ⟨b, rfl⟩

/-- A number below a limit is an integer that is not negative and lies below it. -/
theorem asNatBelow_eq_some_iff {limit : Nat} {v : Toml} {n : Nat} :
    asNatBelow limit v = some n ↔ v = .integer n ∧ n < limit := by
  constructor
  · intro h
    cases v with
    | integer i =>
      rw [asNatBelow] at h
      split at h
      · rename_i hrange
        rw [Bool.and_eq_true, decide_eq_true_iff, decide_eq_true_iff] at hrange
        cases h
        rw [Int.toNat_of_nonneg hrange.1]
        exact ⟨rfl, by omega⟩
      · cases h
    | _ => cases h
  · rintro ⟨rfl, hn⟩
    rw [asNatBelow, if_pos, Int.toNat_natCast]
    rw [Bool.and_eq_true, decide_eq_true_iff, decide_eq_true_iff]
    omega

theorem port_readBy : Kind.port.ReadBy (asNatBelow portLimit) (fun n => .integer n) where
  of_read := by
    intro v n h
    obtain ⟨rfl, hn⟩ := asNatBelow_eq_some_iff.mp h
    rw [portLimit] at hn
    exact ⟨.port (by omega) (by omega), rfl⟩
  exists_read := by
    intro v _ h
    cases h with
    | @port i hlow hhigh =>
      refine ⟨i.toNat, asNatBelow_eq_some_iff.mpr ⟨?_, ?_⟩⟩
      · rw [Int.toNat_of_nonneg hlow]
      · rw [portLimit]
        omega

/-- No integer of a document is too great for a number of seconds. -/
theorem seconds_readBy : Kind.seconds.ReadBy (asNatBelow graceLimit) (fun n => .integer n) where
  of_read := by
    intro v n h
    obtain ⟨rfl, -⟩ := asNatBelow_eq_some_iff.mp h
    exact ⟨.seconds (by omega), rfl⟩
  exists_read := by
    intro v hv h
    cases h with
    | @seconds i hlow =>
      cases hv with
      | integer hfits =>
        refine ⟨i.toNat, asNatBelow_eq_some_iff.mpr ⟨?_, ?_⟩⟩
        · rw [Int.toNat_of_nonneg hlow]
        · rw [graceLimit]
          have hhigh := hfits.2
          omega

end Toml

open Toml

/-- The keys of the section on the database, and what they have to hold. -/
def databaseKeys : List (String × Kind) :=
  [("port", .port), ("require_tls", .flag), ("verify_tls", .flag)]

/-- The keys of the section on artifacts, and what they have to hold. -/
def artifactKeys : List (String × Kind) :=
  [("bucket", .text), ("region", .text), ("upload_grace_secs", .seconds)]

/-- The keys of the section on logging, and what they have to hold. -/
def loggingKeys : List (String × Kind) := [("filter", .text), ("json", .flag)]

/-- The sections of a configuration with their keys. -/
def configSections : List (String × List (String × Kind)) :=
  [("database", databaseKeys), ("artifacts", artifactKeys), ("logging", loggingKeys)]

/-- A table has values of the right kinds under these keys, as far as it has any. -/
def Toml.FitsKeys (keys : List (String × Kind)) (v : Toml) : Prop :=
  ∃ fields, v = .table fields ∧ ∀ k ∈ keys, ∀ w, (k.1, w) ∈ fields → k.2.Admits w

/-- Each section of a configuration is a table that fits, as far as it is there. -/
def Acceptable (members : List (String × Toml)) : Prop :=
  ∀ s ∈ configSections, ∀ v, (s.1, v) ∈ members → v.FitsKeys s.2

/-- A document has a value under a key of a section. -/
def HasValue (members : List (String × Toml)) (name key : String) (v : Toml) : Prop :=
  ∃ fields, (name, .table fields) ∈ members ∧ (key, v) ∈ fields

/-- What a document has under a key of a section counts, and the default if it has nothing there. -/
structure Merges {α : Type} (members : List (String × Toml)) (name key : String) (write : α → Toml)
    (default a : α) : Prop where
  given : ∀ v, HasValue members name key v → v = write a
  absent : (∀ v, ¬ HasValue members name key v) → a = default

/-- Every field of a configuration is what a document gives for it, or the default. -/
structure Config.MergedFrom (members : List (String × Toml)) (c : Config) : Prop where
  port : Merges members "database" "port" (fun n : Nat => .integer n) 5432 c.database.port
  requireTls : Merges members "database" "require_tls" .bool true c.database.requireTls
  verifyTls : Merges members "database" "verify_tls" .bool true c.database.verifyTls
  bucket :
    Merges members "artifacts" "bucket" .text "appsmith-internal-cy-db" c.artifacts.bucket
  region : Merges members "artifacts" "region" .text "ap-south-1" c.artifacts.region
  uploadGraceSecs : Merges members "artifacts" "upload_grace_secs" (fun n : Nat => .integer n) 30
    c.artifacts.uploadGraceSecs
  filter : Merges members "logging" "filter" .text "info" c.logging.filter
  json : Merges members "logging" "json" .bool false c.logging.json

/-! ## Sections -/

/-- A value that is neither an array nor a date. -/
def Toml.IsPlain : Toml → Prop
  | .array _ => False
  | .moment _ => False
  | _ => True

instance : DecidablePred Toml.IsPlain
  | .array _ => .isFalse id
  | .moment _ => .isFalse id
  | .text _ => .isTrue trivial
  | .integer _ => .isTrue trivial
  | .decimal _ => .isTrue trivial
  | .bool _ => .isTrue trivial
  | .table _ => .isTrue trivial

/-- A table fits its keys when it has the right kind of value wherever it has one of them. -/
theorem fitsKeys_table_iff {keys : List (String × Kind)} {fields : List (String × Toml)} :
    (Toml.table fields).FitsKeys keys ↔
      ∀ k ∈ keys, ∀ w, (k.1, w) ∈ fields → k.2.Admits w := by
  constructor
  · rintro ⟨fields', heq, h⟩
    cases heq
    exact h
  · intro h
    exact ⟨fields, rfl, h⟩

/-- A reader makes something of the tables that fit these keys, and of no other plain value. -/
def ReadsSection {S : Type} (keys : List (String × Kind)) (ofSection : Toml → Option S) : Prop :=
  ∀ {v}, v.WellFormed → v.IsPlain → ((∃ c, ofSection v = some c) ↔ v.FitsKeys keys)

section Sections

variable {S : Type} {keys : List (String × Kind)} {ofSection : Toml → Option S}
  {fields : List (String × Toml)}

/-- It is enough to look at tables, if nothing but tables is read. -/
theorem readsSection_of_table
    (hother : ∀ v, v.IsPlain → (∀ fields, v ≠ .table fields) → ofSection v = none)
    (htable : ∀ {fields}, (Toml.table fields).WellFormed →
      ((∃ c, ofSection (.table fields) = some c) ↔
        ∀ k ∈ keys, ∀ w, (k.1, w) ∈ fields → k.2.Admits w)) :
    ReadsSection keys ofSection := by
  intro v hv hplain
  by_cases hfields : ∃ fields, v = .table fields
  · obtain ⟨fields, rfl⟩ := hfields
    rw [fitsKeys_table_iff]
    exact htable hv
  · rw [hother v hplain fun fields heq => hfields ⟨fields, heq⟩]
    constructor
    · rintro ⟨c, hc⟩
      cases hc
    · rintro ⟨fields, heq, -⟩
      exact absurd ⟨fields, heq⟩ hfields

/-- A section that is written plainly and is no table is refused. -/
theorem fields?_eq_none {names : List String} {v : Toml} (hplain : v.IsPlain)
    (h : ∀ fields, v ≠ .table fields) : fields? names v = none := by
  cases v with
  | table fields => exact absurd rfl (h fields)
  | array items => exact hplain.elim
  | moment s => exact hplain.elim
  | _ => rfl

/-- A field can be read if all values under its key are of its kind. -/
theorem exists_field_iff_admits {α : Type} {kind : Kind} {read : Toml → Option α}
    {write : α → Toml} (hkind : kind.ReadBy read write) (hfields : (Toml.table fields).WellFormed)
    (key : String) (default : α) :
    (∃ a, field fields key read default = some a) ↔ ∀ w, (key, w) ∈ fields → kind.Admits w := by
  cases hfields with
  | table hnodup hvalues =>
    rw [exists_field_iff hnodup]
    constructor
    · intro h w hw
      obtain ⟨a, ha⟩ := h w hw
      exact (hkind.of_read ha).1
    · intro h w hw
      exact hkind.exists_read (hvalues _ hw) (h w hw)

/-- The fields of the database section, one by one. -/
theorem DatabaseConfig.ofToml?_table {c : DatabaseConfig} :
    DatabaseConfig.ofToml? (.table fields) = some c ↔
      field fields "port" (asNatBelow portLimit) DatabaseConfig.default.port = some c.port ∧
      field fields "require_tls" asBool DatabaseConfig.default.requireTls = some c.requireTls ∧
      field fields "verify_tls" asBool DatabaseConfig.default.verifyTls = some c.verifyTls := by
  obtain ⟨port, requireTls, verifyTls⟩ := c
  simp [DatabaseConfig.ofToml?, fields?, Option.bind_eq_some_iff, -Bool.exists_bool]

theorem ArtifactConfig.ofToml?_table {c : ArtifactConfig} :
    ArtifactConfig.ofToml? (.table fields) = some c ↔
      field fields "bucket" asText ArtifactConfig.default.bucket = some c.bucket ∧
      field fields "region" asText ArtifactConfig.default.region = some c.region ∧
      field fields "upload_grace_secs" (asNatBelow graceLimit)
        ArtifactConfig.default.uploadGraceSecs = some c.uploadGraceSecs := by
  obtain ⟨bucket, region, grace⟩ := c
  simp [ArtifactConfig.ofToml?, fields?, Option.bind_eq_some_iff]

theorem LoggingConfig.ofToml?_table {c : LoggingConfig} :
    LoggingConfig.ofToml? (.table fields) = some c ↔
      field fields "filter" asText LoggingConfig.default.filter = some c.filter ∧
      field fields "json" asBool LoggingConfig.default.json = some c.json := by
  obtain ⟨filter, json⟩ := c
  simp [LoggingConfig.ofToml?, fields?, Option.bind_eq_some_iff, -Bool.exists_bool]

/-- The database section is read exactly when each of its keys has a value of its kind. -/
theorem DatabaseConfig.readsSection : ReadsSection databaseKeys DatabaseConfig.ofToml? := by
  refine readsSection_of_table (fun v hplain hv => ?_) fun hfields => ?_
  · rw [DatabaseConfig.ofToml?, fields?_eq_none hplain hv]
    rfl
  · simp only [databaseKeys, List.forall_mem_cons, List.not_mem_nil, false_imp_iff, implies_true,
      and_true]
    rw [← exists_field_iff_admits port_readBy hfields "port" DatabaseConfig.default.port,
      ← exists_field_iff_admits flag_readBy hfields "require_tls" DatabaseConfig.default.requireTls,
      ← exists_field_iff_admits flag_readBy hfields "verify_tls" DatabaseConfig.default.verifyTls]
    constructor
    · rintro ⟨c, hc⟩
      obtain ⟨hport, hrequire, hverify⟩ := DatabaseConfig.ofToml?_table.mp hc
      exact ⟨⟨_, hport⟩, ⟨_, hrequire⟩, ⟨_, hverify⟩⟩
    · rintro ⟨⟨port, hport⟩, ⟨requireTls, hrequire⟩, verifyTls, hverify⟩
      exact ⟨⟨port, requireTls, verifyTls⟩,
        DatabaseConfig.ofToml?_table.mpr ⟨hport, hrequire, hverify⟩⟩

theorem ArtifactConfig.readsSection : ReadsSection artifactKeys ArtifactConfig.ofToml? := by
  refine readsSection_of_table (fun v hplain hv => ?_) fun hfields => ?_
  · rw [ArtifactConfig.ofToml?, fields?_eq_none hplain hv]
    rfl
  · simp only [artifactKeys, List.forall_mem_cons, List.not_mem_nil, false_imp_iff, implies_true,
      and_true]
    rw [← exists_field_iff_admits text_readBy hfields "bucket" ArtifactConfig.default.bucket,
      ← exists_field_iff_admits text_readBy hfields "region" ArtifactConfig.default.region,
      ← exists_field_iff_admits seconds_readBy hfields "upload_grace_secs"
        ArtifactConfig.default.uploadGraceSecs]
    constructor
    · rintro ⟨c, hc⟩
      obtain ⟨hbucket, hregion, hgrace⟩ := ArtifactConfig.ofToml?_table.mp hc
      exact ⟨⟨_, hbucket⟩, ⟨_, hregion⟩, ⟨_, hgrace⟩⟩
    · rintro ⟨⟨bucket, hbucket⟩, ⟨region, hregion⟩, grace, hgrace⟩
      exact ⟨⟨bucket, region, grace⟩,
        ArtifactConfig.ofToml?_table.mpr ⟨hbucket, hregion, hgrace⟩⟩

theorem LoggingConfig.readsSection : ReadsSection loggingKeys LoggingConfig.ofToml? := by
  refine readsSection_of_table (fun v hplain hv => ?_) fun hfields => ?_
  · rw [LoggingConfig.ofToml?, fields?_eq_none hplain hv]
    rfl
  · simp only [loggingKeys, List.forall_mem_cons, List.not_mem_nil, false_imp_iff, implies_true,
      and_true]
    rw [← exists_field_iff_admits text_readBy hfields "filter" LoggingConfig.default.filter,
      ← exists_field_iff_admits flag_readBy hfields "json" LoggingConfig.default.json]
    constructor
    · rintro ⟨c, hc⟩
      obtain ⟨hfilter, hjson⟩ := LoggingConfig.ofToml?_table.mp hc
      exact ⟨⟨_, hfilter⟩, ⟨_, hjson⟩⟩
    · rintro ⟨⟨filter, hfilter⟩, json, hjson⟩
      exact ⟨⟨filter, json⟩, LoggingConfig.ofToml?_table.mpr ⟨hfilter, hjson⟩⟩

end Sections

/-! ## Documents -/

section Documents

variable {members : List (String × Toml)}

/-- The sections of a document, one by one. -/
theorem Config.ofToml?_eq_some_iff {c : Config} :
    Config.ofToml? members = some c ↔
      field members "database" DatabaseConfig.ofToml? DatabaseConfig.default = some c.database ∧
      field members "artifacts" ArtifactConfig.ofToml? ArtifactConfig.default = some c.artifacts ∧
      field members "logging" LoggingConfig.ofToml? LoggingConfig.default = some c.logging := by
  obtain ⟨database, artifacts, logging⟩ := c
  simp [Config.ofToml?, Option.bind_eq_some_iff]

/-- A section that can be read fits its keys wherever it stands. -/
theorem exists_section_iff {S : Type} {keys : List (String × Kind)} {ofSection : Toml → Option S}
    (hreads : ReadsSection keys ofSection) (hmembers : (Toml.table members).WellFormed)
    {name : String} (hplain : ∀ v, (name, v) ∈ members → v.IsPlain) (default : S) :
    (∃ s, field members name ofSection default = some s) ↔
      ∀ v, (name, v) ∈ members → v.FitsKeys keys := by
  cases hmembers with
  | table hnodup hvalues =>
    rw [exists_field_iff hnodup]
    exact forall_congr' fun v => forall_congr' fun hv => hreads (hvalues _ hv) (hplain v hv)

/-- A document is a configuration if its sections can be read. -/
theorem exists_ofToml?_iff (hmembers : (Toml.table members).WellFormed)
    (hplain : ∀ m ∈ members, m.1 ∈ configSections.map Prod.fst → m.2.IsPlain) :
    (∃ c, Config.ofToml? members = some c) ↔ Acceptable members := by
  have hsection (name : String) (hname : name ∈ configSections.map Prod.fst) (v : Toml)
      (hv : (name, v) ∈ members) : v.IsPlain := hplain _ hv hname
  unfold Acceptable
  simp only [configSections, List.forall_mem_cons, List.not_mem_nil, false_imp_iff, implies_true,
    and_true]
  rw [← exists_section_iff DatabaseConfig.readsSection hmembers (hsection "database" (by decide))
      DatabaseConfig.default,
    ← exists_section_iff ArtifactConfig.readsSection hmembers (hsection "artifacts" (by decide))
      ArtifactConfig.default,
    ← exists_section_iff LoggingConfig.readsSection hmembers (hsection "logging" (by decide))
      LoggingConfig.default]
  constructor
  · rintro ⟨c, hc⟩
    obtain ⟨hdatabase, hartifacts, hlogging⟩ := Config.ofToml?_eq_some_iff.mp hc
    exact ⟨⟨_, hdatabase⟩, ⟨_, hartifacts⟩, ⟨_, hlogging⟩⟩
  · rintro ⟨⟨database, hdatabase⟩, ⟨artifacts, hartifacts⟩, logging, hlogging⟩
    exact ⟨⟨database, artifacts, logging⟩,
      Config.ofToml?_eq_some_iff.mpr ⟨hdatabase, hartifacts, hlogging⟩⟩

/-- A field of a section is merged, whichever of the two levels its default comes from. -/
theorem merges_of_field {S α : Type} {keys : List (String × Kind)} {ofSection : Toml → Option S}
    {name key : String} {kind : Kind} {read : Toml → Option α} {write : α → Toml} {default s : S}
    (proj : S → α) (hreads : ReadsSection keys ofSection) (hkind : kind.ReadBy read write)
    (htable : ∀ {fields s}, ofSection (.table fields) = some s →
      field fields key read (proj default) = some (proj s))
    (hmembers : (Toml.table members).WellFormed)
    (hplain : ∀ v, (name, v) ∈ members → v.IsPlain)
    (hsection : field members name ofSection default = some s) :
    Merges members name key write (proj default) (proj s) := by
  cases hmembers with
  | table hnodup hvalues =>
    obtain ⟨hgiven, habsent⟩ := (field_eq_some_iff hnodup).mp hsection
    have hfield : ∀ fields, (name, .table fields) ∈ members →
        (∀ w, (key, w) ∈ fields → read w = some (proj s)) ∧
          ((∀ w, (key, w) ∉ fields) → proj s = proj default) := by
      intro fields hmem
      cases hvalues _ hmem with
      | table hnodup _ => exact (field_eq_some_iff hnodup).mp (htable (hgiven _ hmem))
    constructor
    · rintro w ⟨fields, hmem, hw⟩
      exact (hkind.of_read ((hfield fields hmem).1 w hw)).2
    · intro hnone
      -- the key is missing because the section is, or although the section is there
      by_cases hthere : ∃ v, (name, v) ∈ members
      · obtain ⟨v, hv⟩ := hthere
        obtain ⟨fields, rfl, -⟩ :=
          (hreads (hvalues _ hv) (hplain v hv)).mp ⟨s, hgiven v hv⟩
        exact (hfield fields hv).2 fun w hw => hnone w ⟨fields, hv, hw⟩
      · rw [habsent fun v hv => hthere ⟨v, hv⟩]

/-- **Each field is merged on its own.** -/
theorem Config.mergedFrom_of_ofToml? {c : Config} (hmembers : (Toml.table members).WellFormed)
    (hplain : ∀ m ∈ members, m.1 ∈ configSections.map Prod.fst → m.2.IsPlain)
    (h : Config.ofToml? members = some c) : c.MergedFrom members := by
  have hsection (name : String) (hname : name ∈ configSections.map Prod.fst) (v : Toml)
      (hv : (name, v) ∈ members) : v.IsPlain := hplain _ hv hname
  have hdatabase := hsection "database" (by decide)
  have hartifacts := hsection "artifacts" (by decide)
  have hlogging := hsection "logging" (by decide)
  obtain ⟨hd, ha, hl⟩ := Config.ofToml?_eq_some_iff.mp h
  -- field by field, since no field depends on another
  constructor
  · exact merges_of_field DatabaseConfig.port DatabaseConfig.readsSection port_readBy
      (fun h => (DatabaseConfig.ofToml?_table.mp h).1) hmembers hdatabase hd
  · exact merges_of_field DatabaseConfig.requireTls DatabaseConfig.readsSection flag_readBy
      (fun h => (DatabaseConfig.ofToml?_table.mp h).2.1) hmembers hdatabase hd
  · exact merges_of_field DatabaseConfig.verifyTls DatabaseConfig.readsSection flag_readBy
      (fun h => (DatabaseConfig.ofToml?_table.mp h).2.2) hmembers hdatabase hd
  · exact merges_of_field ArtifactConfig.bucket ArtifactConfig.readsSection text_readBy
      (fun h => (ArtifactConfig.ofToml?_table.mp h).1) hmembers hartifacts ha
  · exact merges_of_field ArtifactConfig.region ArtifactConfig.readsSection text_readBy
      (fun h => (ArtifactConfig.ofToml?_table.mp h).2.1) hmembers hartifacts ha
  · exact merges_of_field ArtifactConfig.uploadGraceSecs ArtifactConfig.readsSection
      seconds_readBy (fun h => (ArtifactConfig.ofToml?_table.mp h).2.2) hmembers hartifacts ha
  · exact merges_of_field LoggingConfig.filter LoggingConfig.readsSection text_readBy
      (fun h => (LoggingConfig.ofToml?_table.mp h).1) hmembers hlogging hl
  · exact merges_of_field LoggingConfig.json LoggingConfig.readsSection flag_readBy
      (fun h => (LoggingConfig.ofToml?_table.mp h).2) hmembers hlogging hl

end Documents

/-! ## What is passed over -/

/-- A change of a table that leaves the values of known keys alone. -/
inductive Toml.Edit (known : List String) :
    List (String × Toml) → List (String × Toml) → Prop where
  /-- Keys stand in another order. -/
  | reorder {fields fields' : List (String × Toml)} (hnodup : (fields.map Prod.fst).Nodup)
      (hperm : fields.Perm fields') : Edit known fields fields'
  /-- A key is inserted that is not known. -/
  | insert {key : String} (before after : List (String × Toml)) (v : Toml) (hkey : key ∉ known) :
      Edit known (before ++ after) (before ++ (key, v) :: after)

/-- A change of a document that no configuration shows. -/
inductive DocumentEdit : List (String × Toml) → List (String × Toml) → Prop where
  /-- Sections stand in another order, or one is inserted that is not known. -/
  | outside {members members' : List (String × Toml)}
      (h : Toml.Edit (configSections.map Prod.fst) members members') : DocumentEdit members members'
  /-- The keys of a section stand in another order, or one is inserted that is not known. -/
  | inside {name : String} {keys : List (String × Kind)} {fields fields' : List (String × Toml)}
      (before after : List (String × Toml)) (hsection : (name, keys) ∈ configSections)
      (h : Toml.Edit (keys.map Prod.fst) fields fields') :
      DocumentEdit (before ++ (name, .table fields) :: after)
        (before ++ (name, .table fields') :: after)

section Edits

variable {known : List String} {fields fields' members members' : List (String × Toml)}

/-- No edit changes a field that is known. -/
theorem Toml.Edit.field_eq {α : Type} {read : Toml → Option α} {default : α}
    (h : Toml.Edit known fields fields') (name : String) (hname : name ∈ known) :
    field fields name read default = field fields' name read default := by
  have hlookup : fields.lookup name = fields'.lookup name := by
    -- a name that occurs once is found in any order, and a new member has another name
    cases h with
    | reorder hnodup hperm => exact lookup_perm hnodup hperm
    | insert before after v hkey =>
      refine (lookup_insert ?_ before after v).symm
      rintro rfl
      exact hkey hname
  rw [field, field, hlookup]

/-- Another value that is read alike leaves all fields as they are. -/
theorem field_replace {α : Type} {read : Toml → Option α} {default : α} {name key : String}
    {v w : Toml} (h : key = name → read v = read w) (before after : List (String × Toml)) :
    field (before ++ (name, v) :: after) key read default =
      field (before ++ (name, w) :: after) key read default := by
  rw [field, field, List.lookup_append, List.lookup_append, lookup_cons, lookup_cons]
  cases before.lookup key with
  | some found => rfl
  | none =>
    by_cases hkey : key = name
    · rw [if_pos hkey, if_pos hkey]
      exact h hkey
    · rw [if_neg hkey, if_neg hkey]

/-- An edit of a section changes nothing that is read from it. -/
theorem DatabaseConfig.ofToml?_edit
    (h : Toml.Edit (databaseKeys.map Prod.fst) fields fields') :
    DatabaseConfig.ofToml? (.table fields) = DatabaseConfig.ofToml? (.table fields') := by
  refine Option.ext fun c => ?_
  rw [DatabaseConfig.ofToml?_table, DatabaseConfig.ofToml?_table, h.field_eq "port" (by decide),
    h.field_eq "require_tls" (by decide), h.field_eq "verify_tls" (by decide)]

theorem ArtifactConfig.ofToml?_edit
    (h : Toml.Edit (artifactKeys.map Prod.fst) fields fields') :
    ArtifactConfig.ofToml? (.table fields) = ArtifactConfig.ofToml? (.table fields') := by
  refine Option.ext fun c => ?_
  rw [ArtifactConfig.ofToml?_table, ArtifactConfig.ofToml?_table, h.field_eq "bucket" (by decide),
    h.field_eq "region" (by decide), h.field_eq "upload_grace_secs" (by decide)]

theorem LoggingConfig.ofToml?_edit
    (h : Toml.Edit (loggingKeys.map Prod.fst) fields fields') :
    LoggingConfig.ofToml? (.table fields) = LoggingConfig.ofToml? (.table fields') := by
  refine Option.ext fun c => ?_
  rw [LoggingConfig.ofToml?_table, LoggingConfig.ofToml?_table, h.field_eq "filter" (by decide),
    h.field_eq "json" (by decide)]

/-- An edit of a document changes nothing that is read from it. -/
theorem DocumentEdit.ofToml?_eq (h : DocumentEdit members members') :
    Config.ofToml? members = Config.ofToml? members' := by
  refine Option.ext fun c => ?_
  rw [Config.ofToml?_eq_some_iff, Config.ofToml?_eq_some_iff]
  -- outside the sections no section is touched; inside one, only that one
  cases h with
  | outside h =>
    rw [h.field_eq "database" (by decide), h.field_eq "artifacts" (by decide),
      h.field_eq "logging" (by decide)]
  | @inside name keys fields fields' before after hsection h =>
    -- the names of the sections differ, so that a name says which keys are known
    have hlookup : configSections.lookup name = some keys :=
      (lookup_eq_some_iff_mem (by decide)).mpr hsection
    have hdatabase : "database" = name →
        DatabaseConfig.ofToml? (.table fields) = DatabaseConfig.ofToml? (.table fields') := by
      rintro rfl
      obtain rfl : databaseKeys = keys := Option.some.inj hlookup
      exact DatabaseConfig.ofToml?_edit h
    have hartifacts : "artifacts" = name →
        ArtifactConfig.ofToml? (.table fields) = ArtifactConfig.ofToml? (.table fields') := by
      rintro rfl
      obtain rfl : artifactKeys = keys := Option.some.inj hlookup
      exact ArtifactConfig.ofToml?_edit h
    have hlogging : "logging" = name →
        LoggingConfig.ofToml? (.table fields) = LoggingConfig.ofToml? (.table fields') := by
      rintro rfl
      obtain rfl : loggingKeys = keys := Option.some.inj hlookup
      exact LoggingConfig.ofToml?_edit h
    rw [field_replace hdatabase before after, field_replace hartifacts before after,
      field_replace hlogging before after]

/-- Documents that differ in what is passed over are the same configuration. -/
theorem ofToml?_eq_of_eqvGen (h : Relation.EqvGen DocumentEdit members members') :
    Config.ofToml? members = Config.ofToml? members' := by
  induction h with
  | rel _ _ h => exact h.ofToml?_eq
  | refl _ => rfl
  | symm _ _ _ ih => exact ih.symm
  | trans _ _ _ _ _ ih ih' => exact ih.trans ih'

end Edits

/-- **A partial document is merged with the defaults field by field.** It is accepted exactly if
each section that it has is a table whose known keys hold what they have to; the fields of the
configuration are then what it gives for them, and the defaults where it gives nothing; and a
document that has other sections and keys besides, or all of them in another order, is accepted or
refused alike and is the same configuration. -/
theorem Config.read_merges {cs : List Char} {members : List (String × Toml)}
    (h : Toml.read cs = some members)
    (hplain : ∀ m ∈ members, m.1 ∈ ["database", "artifacts", "logging"] → m.2.IsPlain) :
    ((∃ c, Config.read cs = some c) ↔ Acceptable members) ∧
      (∀ c, Config.read cs = some c → c.MergedFrom members) ∧
      ∀ cs' members', Toml.read cs' = some members' →
        Relation.EqvGen DocumentEdit members members' → Config.read cs' = Config.read cs := by
  have hread : Config.read cs = Config.ofToml? members := by
    rw [Config.read, h]
    rfl
  have hmembers := wellFormed_read h
  rw [hread]
  refine ⟨exists_ofToml?_iff hmembers hplain,
    fun c hc => Config.mergedFrom_of_ofToml? hmembers hplain hc, fun cs' members' h' hedits => ?_⟩
  rw [Config.read, h', ofToml?_eq_of_eqvGen hedits]
  rfl

/-- A port that is too great, seconds below 0, and a section that is no table. -/
example : Config.read "[database]\nport = 65536\n".toList = none ∧
    Config.read "[artifacts]\nupload_grace_secs = -1\n".toList = none ∧
    Config.read "logging = true\n".toList = none := by
  decide +kernel

/-- A document that gives one field of one section and two of another. -/
def partialDocument : List Char :=
  "[artifacts]\nbucket = \"qa\"\n\n[database]\nport = 6543\nrequire_tls = false\n".toList

/-- What the partial document denotes. -/
def partialMembers : List (String × Toml) :=
  [("artifacts", .table [("bucket", .text "qa")]),
    ("database", .table [("port", .integer 6543), ("require_tls", .bool false)])]

/-- The same fields in another order, among others that are not known. -/
def extendedDocument : List Char :=
  ("title = 'ci'\n[database]\nrequire_tls = false\nport = 6_543\n[database.pool]\nsize = 2\n" ++
    "[artifacts]\nbucket = 'qa'\n[retries]\nmost = 3\n").toList

/-- What the extended document denotes. -/
def extendedMembers : List (String × Toml) :=
  [("title", .text "ci"),
    ("database", .table [("require_tls", .bool false), ("port", .integer 6543),
      ("pool", .table [("size", .integer 2)])]),
    ("artifacts", .table [("bucket", .text "qa")]), ("retries", .table [("most", .integer 3)])]

theorem eqvGen_extendedMembers : Relation.EqvGen DocumentEdit partialMembers extendedMembers := by
  let artifacts : String × Toml := ("artifacts", .table [("bucket", .text "qa")])
  let port : String × Toml := ("port", .integer 6543)
  let tls : String × Toml := ("require_tls", .bool false)
  let pool : String × Toml := ("pool", .table [("size", .integer 2)])
  have hdatabase : ("database", databaseKeys) ∈ configSections := List.mem_cons_self
  have hsections : DocumentEdit [artifacts, ("database", .table [port, tls])]
      [("database", .table [port, tls]), artifacts] :=
    .outside (.reorder (by decide) (.swap ..))
  have hkeys : DocumentEdit [("database", .table [port, tls]), artifacts]
      [("database", .table [tls, port]), artifacts] :=
    .inside [] [artifacts] hdatabase (.reorder (by decide) (.swap ..))
  have hpool : DocumentEdit [("database", .table [tls, port]), artifacts]
      [("database", .table [tls, port, pool]), artifacts] :=
    .inside [] [artifacts] hdatabase (.insert [tls, port] [] _ (by decide))
  have htitle : DocumentEdit [("database", .table [tls, port, pool]), artifacts]
      [("title", .text "ci"), ("database", .table [tls, port, pool]), artifacts] :=
    .outside (.insert [] _ _ (by decide))
  have hretries : DocumentEdit
      [("title", .text "ci"), ("database", .table [tls, port, pool]), artifacts] extendedMembers :=
    .outside (.insert [("title", .text "ci"), ("database", .table [tls, port, pool]), artifacts] []
      _ (by decide))
  -- sections, then keys, then what is unknown
  exact .trans _ _ _ (.rel _ _ hsections) (.trans _ _ _ (.rel _ _ hkeys)
    (.trans _ _ _ (.rel _ _ hpool) (.trans _ _ _ (.rel _ _ htitle) (.rel _ _ hretries))))

/-- Five of the fields have their defaults, in either document. -/
theorem Config.read_merges_partialDocument :
    Toml.read partialDocument = some partialMembers ∧ Acceptable partialMembers ∧
      ∃ c, Config.read partialDocument = some c ∧ Config.read extendedDocument = some c ∧
        c.MergedFrom partialMembers ∧
        c = ⟨⟨6543, false, true⟩, ⟨"qa", "ap-south-1", 30⟩, ⟨"info", false⟩⟩ := by
  have hpartial : Toml.read partialDocument = some partialMembers := by decide +kernel
  have hextended : Toml.read extendedDocument = some extendedMembers := by decide +kernel
  have hc : Config.read partialDocument =
      some ⟨⟨6543, false, true⟩, ⟨"qa", "ap-south-1", 30⟩, ⟨"info", false⟩⟩ := by
    decide +kernel
  obtain ⟨haccept, hmerged, hedits⟩ := Config.read_merges hpartial (by decide)
  exact ⟨hpartial, haccept.mp ⟨_, hc⟩, _, hc,
    (hedits extendedDocument extendedMembers hextended eqvGen_extendedMembers).trans hc,
    hmerged _ hc, rfl⟩

end RunJournal
