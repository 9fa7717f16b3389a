import RunJournal.Database.Statement

/-!
# The schema

The statements that make the four tables and their indices. Each does nothing when its part is
there already. The two `UNIQUE` constraints are what lets any number of shards come to one row for
their attempt and one for each of them.
-/

namespace RunJournal

/-- The definition of a table from its columns and constraints. -/
def tableDefinition (name : String) (columns : List String) : String :=
  "CREATE TABLE IF NOT EXISTS public." ++ name ++ " ( " ++ ", ".intercalate columns ++ " )"

/-- The definition of an index on one column of a table. -/
def indexDefinition (name table column : String) : String :=
  "CREATE INDEX IF NOT EXISTS " ++ name ++ " ON public." ++ table ++ "(\"" ++ column ++ "\")"

/-- The definitions of all tables and indices, in an order in which each may follow those before
it. -/
def schemaDefinitions : List String := [
  tableDefinition "attempt" [
    "id BIGSERIAL PRIMARY KEY",
    "\"workflowId\" BIGINT NOT NULL",
    "attempt INTEGER NOT NULL",
    "browser TEXT",
    "os TEXT",
    "repo TEXT",
    "committer TEXT",
    "type TEXT",
    "\"commitMsg\" TEXT",
    "branch TEXT",
    "\"startTime\" TIMESTAMPTZ NOT NULL DEFAULT now()",
    "\"endTime\" TIMESTAMPTZ",
    "UNIQUE (\"workflowId\", attempt)"],
  tableDefinition "matrix" [
    "id BIGSERIAL PRIMARY KEY",
    "\"workflowId\" BIGINT NOT NULL",
    "\"matrixId\" TEXT NOT NULL",
    "status TEXT NOT NULL DEFAULT 'started'",
    "\"attemptId\" BIGINT NOT NULL REFERENCES public.attempt(id)",
    "UNIQUE (\"matrixId\", \"attemptId\")"],
  tableDefinition "specs" [
    "id BIGSERIAL PRIMARY KEY",
    "name TEXT NOT NULL",
    "\"matrixId\" BIGINT NOT NULL REFERENCES public.matrix(id)",
    "\"testCount\" INTEGER",
    "passes INTEGER",
    "failed INTEGER",
    "skipped INTEGER",
    "pending INTEGER",
    "status TEXT"],
  tableDefinition "tests" [
    "id BIGSERIAL PRIMARY KEY",
    "name TEXT NOT NULL",
    "\"specId\" BIGINT NOT NULL REFERENCES public.specs(id)",
    "status TEXT NOT NULL",
    "retries INTEGER NOT NULL",
    "\"retryData\" JSONB NOT NULL"],
  indexDefinition "idx_matrix_attempt" "matrix" "attemptId",
  indexDefinition "idx_specs_matrix" "specs" "matrixId",
  indexDefinition "idx_tests_spec" "tests" "specId"]

end RunJournal
