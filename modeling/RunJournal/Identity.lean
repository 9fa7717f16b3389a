import RunJournal.Environment
import RunJournal.Json.Value

/-!
# The identity of a recording

Which shard of which try of which workflow run is being recorded, and what is known about its
source. All of it comes from the environment and is fixed for the whole recording.
-/

namespace RunJournal

/-- Identifies one shard of one try of a workflow run. -/
structure Identity where
  workflowId : Int
  attempt : Int
  /-- What the shard is called. -/
  matrixId : String
  os : String
  repo : String
  committer : String
  runType : String
  branch : String
  commitMsg : String
deriving DecidableEq, Repr

/-- The name of the operating system in the form that dashboards group by. -/
def hostSystem : String := "Linux"

/-- The least and the greatest number of a workflow run, those of 64 bits with a sign. -/
def workflowRange : Int × Int := (-9223372036854775808, 9223372036854775807)

/-- The least and the greatest number of a try, those of 32 bits with a sign. -/
def attemptRange : Int × Int := (-2147483648, 2147483647)

/-- The identity that an environment gives, or the first error met. -/
def Identity.ofEnvironment (env : Environment) : Except ConfigError Identity := do
  let commitMsg := env.getOrPlaceholder "COMMIT_INFO_MESSAGE"
  let workflowId ← env.requireInt "RUNID" "an integer workflow run id"
    workflowRange.1 workflowRange.2
  let attempt ← env.requireInt "ATTEMPT_NUMBER" "an integer attempt number"
    attemptRange.1 attemptRange.2
  let repo ← env.require "REPOSITORY"
  let committer ← env.require "COMMITTER"
  let runType ← env.require "TAG"
  let branch ← env.require "BRANCH"
  let matrixId ← env.require "THIS_RUNNER"
  .ok ⟨workflowId, attempt, matrixId, hostSystem, repo, committer, runType, branch, commitMsg⟩

/-- An identity as JSON. -/
def Identity.toJson (i : Identity) : Json :=
  .object [("workflow_id", .int i.workflowId), ("attempt", .int i.attempt),
    ("matrix_id", .text i.matrixId), ("os", .text i.os), ("repo", .text i.repo),
    ("committer", .text i.committer), ("run_type", .text i.runType),
    ("branch", .text i.branch), ("commit_msg", .text i.commitMsg)]

end RunJournal
