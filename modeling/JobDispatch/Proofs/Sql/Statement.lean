import JobDispatch.Number.Numeral
import JobDispatch.Sql.Query
import JobDispatch.Text.Blank

/-!
# What a query says

A database reads the text of a query.  It is made up of words, and says what is selected, from which
table, under which conditions, in which order and how much of it.  A value that is bound to the query
stands in it by its number.

## Main definitions

* `SqlStatement` — what a text says.
* `SqlStatement.words`, `SqlStatement.parse?` — the words of a text, and what they say.
* `JobFilter.statement`, `JobFilter.countStatement` — what the queries of a filter are to say.

## Main results

* `JobFilter.parse?_query`, `JobFilter.parse?_countQuery` — **the queries of a filter say what they are
  to say**, with the numbers of their values.
-/

namespace JobDispatch

/-- What is selected: some columns of the rows, or the number of rows. -/
inductive SqlSelection
  | columns (names : List String)
  | count
  deriving DecidableEq

/-- A column is to equal the value with a number. -/
structure SqlEquality where
  column : String
  value : Nat
  deriving DecidableEq

/-- **What a text says.** -/
structure SqlStatement where
  selection : SqlSelection
  table : String
  /-- What must hold of a row, all of it. -/
  equalities : List SqlEquality := []
  /-- The column by which the rows are sorted, the greatest first. -/
  descending : Option String := none
  /-- The number of the value that says how many rows are given at most. -/
  limit : Option Nat := none
  /-- The number of the value that says how many rows are left out at the front. -/
  offset : Option Nat := none
  deriving DecidableEq

namespace SqlStatement

/-! ### Reading a text -/

/-- The words of a text; a comma is a word. -/
def words (text : String) : List String :=
  (Text.words (text.toList.flatMap fun c => if c = ',' then [' ', ',', ' '] else [c])).map String.ofList

/-- The number of the value that a word stands for. -/
def placeholder? (word : String) : Option Nat :=
  match word.toList with
  | '$' :: ds => if ds.isEmpty || !ds.all Char.isDigit then none else some (Numeral.ofDigits ds)
  | _ => none

/-- Names with commas between them. -/
def names? : List String → Option (List String × List String)
  | name :: "," :: rest => (names? rest).map fun r => (name :: r.1, r.2)
  | name :: rest => some ([name], rest)
  | [] => none

/-- What is selected. -/
def selection? : List String → Option (SqlSelection × List String)
  | "SELECT" :: "COUNT(*)" :: rest => some (.count, rest)
  | "SELECT" :: rest => (names? rest).map fun r => (.columns r.1, r.2)
  | _ => none

/-- The table from which is selected. -/
def table? : List String → Option (String × List String)
  | "FROM" :: table :: rest => some (table, rest)
  | _ => none

/-- Conditions of which all must hold. -/
def conjunction? : List String → Option (List SqlEquality × List String)
  | column :: "=" :: word :: "AND" :: rest => do
    let value ← placeholder? word
    let (equalities, rest) ← conjunction? rest
    return (⟨column, value⟩ :: equalities, rest)
  | column :: "=" :: word :: rest => do
    let value ← placeholder? word
    return ([⟨column, value⟩], rest)
  | _ => none

/-- The conditions, if there are any. -/
def equalities? : List String → Option (List SqlEquality × List String)
  | "WHERE" :: rest => conjunction? rest
  | rest => some ([], rest)

/-- The order, if there is one. -/
def orderBy : List String → Option String × List String
  | "ORDER" :: "BY" :: column :: "DESC" :: rest => (some column, rest)
  | rest => (none, rest)

/-- The value after a keyword, if the keyword is there. -/
def valueAfter? (keyword : String) : List String → Option (Option Nat × List String)
  | first :: rest =>
    if first = keyword then
      match rest with
      | word :: rest => (placeholder? word).map fun n => (some n, rest)
      | [] => none
    else some (none, first :: rest)
  | [] => some (none, [])

/-- What some words say, from the first to the last. -/
def ofWords? (ws : List String) : Option SqlStatement := do
  let (selection, rest) ← selection? ws
  let (table, rest) ← table? rest
  let (equalities, rest) ← equalities? rest
  let (descending, rest) := orderBy rest
  let (limit, rest) ← valueAfter? "LIMIT" rest
  let (offset, rest) ← valueAfter? "OFFSET" rest
  guard rest.isEmpty
  return ⟨selection, table, equalities, descending, limit, offset⟩

/-- **What a text says.** -/
def parse? (text : String) : Option SqlStatement := ofWords? (words text)

/-- The words of a text do not run into those of one that begins with a blank, or is empty. -/
theorem words_append (s : String) {t : String} (h : t.toList.head?.getD ' ' = ' ') :
    words (s ++ t) = words s ++ words t := by
  rw [words, words, words, String.toList_append, ← List.map_append]
  congr 1
  generalize t.toList = cs at h
  cases cs with
  | nil => rw [List.append_nil, List.flatMap_nil, Text.words_nil, List.append_nil]
  | cons c cs =>
    obtain rfl : c = ' ' := h
    rw [List.flatMap_append, List.flatMap_cons]
    exact Text.words_append_blank (by decide) _ _

end SqlStatement

/-! ### The queries of a filter -/

namespace SqlQuery

/-- The values in the second part of a query are numbered on. -/
theorem textFrom_append (n : Nat) (q r : SqlQuery) :
    textFrom n (q ++ r) = textFrom n q ++ textFrom (n + q.values.length) r := by
  induction q generalizing n with
  | nil => simp [textFrom, values]
  | cons part q ih =>
    cases part with
    | fragment s => simp [textFrom, values, ih, String.append_assoc]
    | bound value =>
      simp [textFrom, values, ih, String.append_assoc, Nat.add_assoc, Nat.add_comm 1]

end SqlQuery

/-- The names of the columns of a job. -/
def jobColumnNames : List String :=
  ["id", "name", "job_type", "status", "priority", "estimated_duration", "payload", "result",
    "error_message", "retry_count", "max_retries", "created_at", "scheduled_at", "started_at",
    "completed_at"]

namespace JobFilter

/-- The conditions of a filter, with the numbers of their values. -/
def equalities (f : JobFilter) : List SqlEquality :=
  match f.status, f.jobType with
  | none, none => []
  | some _, none => [⟨"status", 1⟩]
  | none, some _ => [⟨"job_type", 1⟩]
  | some _, some _ => [⟨"status", 1⟩, ⟨"job_type", 2⟩]

/-- **What the query for a page is to say**: the rows that meet the conditions, the newest first. -/
def statement (f : JobFilter) : SqlStatement where
  selection := .columns jobColumnNames
  table := "jobs"
  equalities := f.equalities
  descending := some "created_at"
  limit := some (f.equalities.length + 1)
  offset := some (f.equalities.length + 2)

/-- **What the query for the number of jobs is to say.** -/
def countStatement (f : JobFilter) : SqlStatement where
  selection := .count
  table := "jobs"
  equalities := f.equalities

variable (f : JobFilter)

/-- The words of the conditions. -/
def conditionWords : List String :=
  match f.status, f.jobType with
  | none, none => []
  | some _, none => ["WHERE", "status", "=", "$1"]
  | none, some _ => ["WHERE", "job_type", "=", "$1"]
  | some _, some _ => ["WHERE", "status", "=", "$1", "AND", "job_type", "=", "$2"]

/-- The end of the query for a page: the order of the rows and the part of them that is wanted. -/
def pagePart : SqlQuery :=
  [.fragment " ORDER BY created_at DESC LIMIT ", .bound (.number f.pageSize.toNat),
   .fragment " OFFSET ", .bound (.number (min f.offset.toNat maxSqlNumber))]

/-- The words of the end, if so many values stand before it. -/
def pageWords (n : Nat) : List String :=
  ["ORDER", "BY", "created_at", "DESC", "LIMIT", "$" ++ toString (n + 1), "OFFSET",
    "$" ++ toString (n + 2)]

/-- Each condition has a value. -/
theorem length_values_conditions : f.conditions.values.length = f.equalities.length := by
  obtain ⟨status, jobType⟩ := f
  cases status <;> cases jobType <;> rfl

/-- The conditions stand behind a blank, if there are any. -/
theorem words_conditions :
    SqlStatement.words (SqlQuery.textFrom 1 f.conditions) = f.conditionWords ∧
      (SqlQuery.textFrom 1 f.conditions).toList.head?.getD ' ' = ' ' := by
  -- the text does not depend on the values, only on which of them there are
  obtain ⟨status, jobType⟩ := f
  cases status <;> cases jobType <;>
    simp only [conditions, conditionWords, statusCondition, jobTypeCondition, Option.map_none,
      Option.map_some, SqlQuery.textFrom, List.cons_append, List.nil_append] <;>
    decide +kernel

/-- The end stands behind a blank. -/
theorem words_pagePart :
    SqlStatement.words (SqlQuery.textFrom (1 + f.equalities.length) f.pagePart)
        = pageWords f.equalities.length ∧
      (SqlQuery.textFrom (1 + f.equalities.length) f.pagePart).toList.head?.getD ' ' = ' ' := by
  obtain ⟨status, jobType⟩ := f
  cases status <;> cases jobType <;>
    simp only [pagePart, equalities, SqlQuery.textFrom] <;>
    decide +kernel

/-- The words of the query for a page. -/
theorem words_query : SqlStatement.words f.query.text =
    "SELECT" :: jobColumnNames.intersperse "," ++ ["FROM", "jobs"] ++ f.conditionWords ++
      pageWords f.equalities.length := by
  have hselected : SqlStatement.words ("SELECT " ++ jobColumns ++ " FROM jobs")
      = "SELECT" :: jobColumnNames.intersperse "," ++ ["FROM", "jobs"] := by
    decide +kernel
  obtain ⟨hconditions, hbefore⟩ := f.words_conditions
  obtain ⟨hpage, hbetween⟩ := f.words_pagePart
  calc SqlStatement.words f.query.text
      = SqlStatement.words (("SELECT " ++ jobColumns ++ " FROM jobs") ++
          SqlQuery.textFrom 1 (f.conditions ++ f.pagePart)) := rfl
    _ = SqlStatement.words (("SELECT " ++ jobColumns ++ " FROM jobs") ++
          SqlQuery.textFrom 1 f.conditions ++ SqlQuery.textFrom (1 + f.equalities.length) f.pagePart) := by
        rw [SqlQuery.textFrom_append, length_values_conditions, ← String.append_assoc]
    _ = _ := by
        rw [SqlStatement.words_append _ hbetween, SqlStatement.words_append _ hbefore, hselected,
          hconditions, hpage]

/-- The words of the query for the number of jobs. -/
theorem words_countQuery : SqlStatement.words f.countQuery.text =
    ["SELECT", "COUNT(*)", "FROM", "jobs"] ++ f.conditionWords := by
  have hselected : SqlStatement.words "SELECT COUNT(*) FROM jobs"
      = ["SELECT", "COUNT(*)", "FROM", "jobs"] := by
    decide +kernel
  obtain ⟨hconditions, hbefore⟩ := f.words_conditions
  calc SqlStatement.words f.countQuery.text
      = SqlStatement.words ("SELECT COUNT(*) FROM jobs" ++ SqlQuery.textFrom 1 f.conditions) := rfl
    _ = _ := by rw [SqlStatement.words_append _ hbefore, hselected, hconditions]

/-- **The query for a page says what it is to say.** -/
theorem parse?_query : SqlStatement.parse? f.query.text = some f.statement := by
  rw [SqlStatement.parse?, words_query]
  obtain ⟨status, jobType⟩ := f
  cases status <;> cases jobType <;>
    simp only [conditionWords, statement, equalities] <;>
    decide +kernel

/-- **The query for the number of jobs says what it is to say.** -/
theorem parse?_countQuery : SqlStatement.parse? f.countQuery.text = some f.countStatement := by
  rw [SqlStatement.parse?, words_countQuery]
  obtain ⟨status, jobType⟩ := f
  cases status <;> cases jobType <;>
    simp only [conditionWords, countStatement, equalities] <;>
    decide +kernel

example : ({ status := some .failed, jobType := some "word_count" } : JobFilter).countQuery.text
    = "SELECT COUNT(*) FROM jobs WHERE status = $1 AND job_type = $2" := by
  decide +kernel

end JobFilter

end JobDispatch
