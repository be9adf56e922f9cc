import JobDispatch.Proofs.Sql.Table
import JobDispatch.Proofs.Store.Pages

/-!
# Listing jobs in a database

The rows of the jobs of a store stand in a table, in any order.  What the two queries of a filter give for
it is then determined, and is what the store lists: the same jobs one after another, and their number.

## Main definitions

* `Job.row`, `Job.cells` — a job as a row.
* `SqlRow.Holds` — the job that is read from a row.

## Main results

* `Job.job_row` — the row of a job holds it.
* `JobFilter.values_query` — the size and the offset of a page are bound exactly.
* `SqlStatement.Chooses.perm`, `SqlStatement.orders_iff` — what is chosen, and in which order.
* `JobFilter.queries_select` — **the queries of a filter select what the store selects.**
-/

namespace JobDispatch

/-! ### Records as rows -/

/-- The row of a job. -/
def Job.row (j : Job) : JobRow where
  id := j.id
  name := j.name
  jobType := j.jobType
  status := j.status
  priority := Int32.ofNat j.priority.toNat
  estimatedDuration := j.estimatedDuration
  payload := j.payload
  result := j.result
  errorMessage := j.errorMessage
  retryCount := Int32.ofNat j.retryCount.toNat
  maxRetries := Int32.ofNat j.maxRetries.toNat
  createdAt := j.createdAt
  scheduledAt := j.scheduledAt
  startedAt := j.startedAt
  completedAt := j.completedAt

/-- The row of a job, column by column. -/
def Job.cells (j : Job) : SqlRow := j.row.cells

/-- A row is read as the record of a job. -/
def SqlRow.Holds (row : SqlRow) (j : Job) : Prop := ∃ r, JobRow.read? row = some r ∧ r.job = .ok j

theorem JobRow.within_ofNat {limit n : Nat} (h : n ≤ limit) (hlimit : limit < 2 ^ 31) :
    within limit (Int32.ofNat n) = .ok n := by
  have hn : (Int32.ofNat n).toInt = n := Int32.toInt_ofNat_of_lt (by omega)
  rw [within, hn, if_pos ⟨Int.natCast_nonneg n, Int.ofNat_le.mpr h⟩, Int.toNat_natCast]

/-- **The row of a job holds it.** -/
theorem Job.job_row (j : Job) : j.row.job = .ok j := by
  have hpriority := JobRow.within_ofNat (Nat.le_of_lt_succ j.priority.toNat_lt) (by decide)
  have hretries := JobRow.within_ofNat (Nat.le_of_lt_succ j.retryCount.toNat_lt) (by decide)
  have hmost := JobRow.within_ofNat (Nat.le_of_lt_succ j.maxRetries.toNat_lt) (by decide)
  simp only [JobRow.job, row, hpriority, hretries, hmost, bind, Except.bind, pure, Except.pure,
    UInt8.ofNat_toNat, UInt16.ofNat_toNat]

theorem Job.holds_cells (j : Job) : SqlRow.Holds j.cells j :=
  ⟨j.row, JobRow.read?_cells j.row, j.job_row⟩

namespace JobFilter

variable (f : JobFilter)

/-- The conditions hold of the row of a job if it meets them, whatever values follow theirs. -/
theorem holds_equalities {values : List SqlValue} (hvalues : f.conditions.values <+: values) (j : Job) :
    (∀ e ∈ f.equalities, (e.holds? values j.cells).isSome) ∧
      (f.equalities.all fun e => e.holds? values j.cells == some true) = f.isMatch j := by
  obtain ⟨more, rfl⟩ := hvalues
  obtain ⟨status, jobType⟩ := f
  cases status <;> cases jobType <;>
    simp [equalities, isMatch, conditions, statusCondition, jobTypeCondition, SqlQuery.values,
      SqlEquality.holds?, Job.cells, JobRow.cells, Job.row, List.lookup_cons, SqlValue.numbered?,
      SqlCell.equals?]

/-- **The values of the query for a page**: those of the conditions, and the size and the offset of the
page, exactly. -/
theorem values_query : f.query.values = f.conditions.values ++
    [.number f.pageSize.toNat, .number ((f.page.toNat - 1) * f.pageSize.toNat : Nat)] := by
  obtain ⟨-, -, hoffset⟩ := f.toNat_offset
  have hlt : f.offset.toNat < maxSqlNumber := by
    rw [hoffset]
    exact Nat.lt_of_le_of_lt f.mul_pageSize_le (by decide)
  have hexact : min (f.offset.toNat : Int) maxSqlNumber = f.offset.toNat :=
    min_eq_left (Int.ofNat_le.mpr hlt.le)
  rw [← hoffset]
  simp [query, SqlQuery.values, hexact]

/-- **The part of the rows that is wanted is the page.** -/
theorem part?_statement (listed : List SqlRow) : f.statement.part? f.query.values listed
    = some ((listed.drop ((f.page.toNat - 1) * f.pageSize.toNat)).take f.pageSize.toNat) := by
  -- the two values stand behind those of the conditions
  have hbehind : ∀ n, SqlValue.numbered? f.query.values (f.equalities.length + n + 1)
      = [.number f.pageSize.toNat, .number ((f.page.toNat - 1) * f.pageSize.toNat : Nat)][n]? := by
    intro n
    rw [values_query, SqlValue.numbered?, ← length_values_conditions,
      List.getElem?_append_right (Nat.le_add_right _ n), Nat.add_sub_cancel_left]
  have hlimit : SqlValue.count? f.query.values (f.equalities.length + 1) = some f.pageSize.toNat := by
    rw [SqlValue.count?, hbehind 0]
    rfl
  have hoffset : SqlValue.count? f.query.values (f.equalities.length + 2)
      = some ((f.page.toNat - 1) * f.pageSize.toNat) := by
    rw [SqlValue.count?, hbehind 1]
    rfl
  simp [SqlStatement.part?, statement, hlimit, hoffset]

end JobFilter

/-! ### What is chosen, and in which order -/

section

variable {s : Store} {f : JobFilter} {q : SqlStatement} {table chosen listed : List SqlRow}
  {values : List SqlValue}

/-- **The conditions choose the rows of the matching jobs.** -/
theorem SqlStatement.Chooses.perm (hq : q.equalities = f.equalities)
    (hvalues : f.conditions.values <+: values) (htable : table.Perm (s.jobs.map Job.cells))
    (h : q.Chooses values table chosen) :
    chosen.Perm ((s.jobs.filter f.isMatch).map Job.cells) := by
  rw [h.eq_filter, hq]
  refine (htable.filter _).trans (List.Perm.of_eq ?_)
  rw [List.filter_map]
  exact congrArg _ (List.filter_congr fun j _ => (f.holds_equalities hvalues j).2)

/-- The conditions can be checked for the rows of jobs. -/
theorem SqlStatement.exists_chooses (hq : q.equalities = f.equalities)
    (hvalues : f.conditions.values <+: values) (htable : table.Perm (s.jobs.map Job.cells)) :
    ∃ chosen, q.Chooses values table chosen := by
  refine ⟨_, fun row hrow => ?_, rfl⟩
  obtain ⟨j, -, rfl⟩ := List.mem_map.mp (htable.mem_iff.mp hrow)
  rw [hq]
  exact (f.holds_equalities hvalues j).1

/-- What is a list of images but for the order is a list of images. -/
theorem exists_eq_map_of_perm {α β : Type} {g : α → β} {l : List β} {m : List α} (h : l.Perm (m.map g)) :
    ∃ k : List α, l = k.map g ∧ k.Perm m :=
  (congrFun₂ (List.eq_map_comp_perm g) l m).mpr h

/-- What images have is determined by what they are images of. -/
theorem forall₂_map_eq_some_iff {α β γ : Type} {g : α → β} {g? : β → Option γ} {g' : α → γ}
    (h : ∀ a, g? (g a) = some (g' a)) {l : List α} {m : List γ} :
    List.Forall₂ (fun b c => g? b = some c) (l.map g) m ↔ m = l.map g' := by
  have hrel : (fun a c => g? (g a) = some c) = fun a c => g' a = c := by
    funext a c
    rw [h, Option.some.injEq]
  rw [List.forall₂_map_left_iff, hrel, ← List.forall₂_map_left_iff, List.forall₂_eq_eq_eq, eq_comm]

/-- The time at which a job was created stands in its row. -/
theorem Job.lookup_createdAt (j : Job) : j.cells.lookup "created_at" = some (.time j.createdAt) := by
  simp [cells, JobRow.cells, row, List.lookup_cons]

/-- **The order is that of the jobs.** -/
theorem SqlStatement.orders_iff (hs : s.DistinctTimes) (hq : q.descending = some "created_at")
    (hchosen : chosen.Perm ((s.jobs.filter f.isMatch).map Job.cells)) :
    q.Orders chosen listed ↔ listed = (s.newestFirst f).map Job.cells := by
  constructor
  · rintro ⟨hperm, hdescending⟩
    obtain ⟨l, rfl, hl⟩ := exists_eq_map_of_perm (hperm.trans hchosen)
    obtain ⟨keys, hkeys, hsorted⟩ := hdescending _ hq
    rw [(forall₂_map_eq_some_iff Job.lookup_createdAt).mp hkeys, List.pairwise_map] at hsorted
    rw [Store.Lists.eq (fun h => h.asymm) (Store.lists_of_perm hs hl hsorted)
      (Store.lists_newestFirst hs f)]
  · rintro rfl
    refine ⟨((List.mergeSort_perm _ _).map _).trans hchosen.symm, fun column hcolumn => ?_⟩
    obtain rfl := Option.some.inj (hq.symm.trans hcolumn)
    exact ⟨_, (forall₂_map_eq_some_iff Job.lookup_createdAt).mpr rfl,
      List.pairwise_map.mpr (Store.pairwise_newestFirst s f)⟩

end

/-! ### What the queries give -/

namespace JobFilter

variable {s : Store} {tables : String → Option (List SqlRow)} {table : List SqlRow}

/-- **The query for a page gives the rows of the jobs on it.** -/
theorem gives_query (hs : s.DistinctTimes) (f : JobFilter) (hjobs : tables "jobs" = some table)
    (htable : table.Perm (s.jobs.map Job.cells)) (answer : SqlAnswer) :
    f.query.Gives tables answer ↔ answer = .rows ((s.query f).jobs.map Job.cells) := by
  have hvalues : f.conditions.values <+: f.query.values := ⟨_, f.values_query.symm⟩
  have hpart : f.statement.part? f.query.values ((s.newestFirst f).map Job.cells)
      = some ((s.query f).jobs.map Job.cells) := by
    rw [part?_statement, Store.jobs_query, List.map_take, List.map_drop]
  have hcolumns : ∀ j : Job, SqlStatement.columns? jobColumnNames j.cells = some j.cells := fun j =>
    JobRow.columns?_cells j.row
  constructor
  · rintro ⟨q, hq, hgives⟩
    obtain rfl := Option.some.inj (f.parse?_query.symm.trans hq)
    cases hgives with
    | number hselection => cases hselection
    | rows hselection htable' hchosen hlisted hpart' hrows =>
      cases hselection
      obtain rfl := Option.some.inj (htable'.symm.trans hjobs)
      obtain rfl := (SqlStatement.orders_iff hs rfl (hchosen.perm rfl hvalues htable)).mp hlisted
      obtain rfl := Option.some.inj (hpart'.symm.trans hpart)
      rw [(forall₂_map_eq_some_iff hcolumns).mp hrows]
  · rintro rfl
    obtain ⟨chosen, hchosen⟩ := SqlStatement.exists_chooses (q := f.statement) rfl hvalues htable
    have hlisted : f.statement.Orders chosen ((s.newestFirst f).map Job.cells) :=
      (SqlStatement.orders_iff hs rfl (hchosen.perm rfl hvalues htable)).mpr rfl
    exact ⟨f.statement, f.parse?_query,
      .rows rfl hjobs hchosen hlisted hpart ((forall₂_map_eq_some_iff hcolumns).mpr rfl)⟩

/-- **The query for the number of jobs gives how many match.** -/
theorem gives_countQuery (f : JobFilter) (hjobs : tables "jobs" = some table)
    (htable : table.Perm (s.jobs.map Job.cells)) (answer : SqlAnswer) :
    f.countQuery.Gives tables answer ↔ answer = .number (s.query f).total := by
  have hvalues : f.conditions.values <+: f.countQuery.values := ⟨[], List.append_nil _⟩
  have hlength : ∀ {chosen}, f.countStatement.Chooses f.countQuery.values table chosen →
      chosen.length = (s.query f).total := by
    intro chosen hchosen
    rw [(hchosen.perm rfl hvalues htable).length_eq, List.length_map, Store.total_query,
      List.countP_eq_length_filter]
  constructor
  · rintro ⟨q, hq, hgives⟩
    obtain rfl := Option.some.inj (f.parse?_countQuery.symm.trans hq)
    cases hgives with
    | rows hselection => cases hselection
    | number hselection hwhole htable' hchosen =>
      obtain rfl := Option.some.inj (htable'.symm.trans hjobs)
      rw [hlength hchosen]
  · rintro rfl
    obtain ⟨chosen, hchosen⟩ :=
      SqlStatement.exists_chooses (q := f.countStatement) rfl hvalues htable
    rw [← hlength hchosen]
    exact ⟨f.countStatement, f.parse?_countQuery, .number rfl ⟨rfl, rfl, rfl⟩ hjobs hchosen⟩

/-- **The queries of a filter select what the store selects.**  If no two records were created at the same
time and the table holds their rows, in any order, then the query for a page can give nothing but the rows
of the jobs that the store lists, in its order; the other query can give nothing but their number.  The
page size and the number of jobs before the page are bound to the query as they are. -/
theorem queries_select (hs : s.DistinctTimes) (f : JobFilter) (hjobs : tables "jobs" = some table)
    (htable : table.Perm (s.jobs.map Job.cells)) :
    (∃ rows, (∀ answer, f.query.Gives tables answer ↔ answer = .rows rows) ∧
      List.Forall₂ SqlRow.Holds rows (s.query f).jobs) ∧
    (∀ answer, f.countQuery.Gives tables answer ↔ answer = .number (s.query f).total) ∧
    f.query.values = f.countQuery.values ++
      [.number f.pageSize.toNat, .number ((f.page.toNat - 1) * f.pageSize.toNat : Nat)] ∧
    (f.page.toNat - 1) * f.pageSize.toNat < maxSqlNumber := by
  refine ⟨⟨_, gives_query hs f hjobs htable, ?_⟩, gives_countQuery f hjobs htable, f.values_query, ?_⟩
  · exact List.forall₂_map_left_iff.mpr (List.forall₂_same.mpr fun j _ => j.holds_cells)
  · exact Nat.lt_of_le_of_lt f.mul_pageSize_le (by decide)

end JobFilter

/-- Three jobs of two types, the newest in the middle. -/
def Store.reports : Store :=
  let report : NewJob := ⟨"report", "sleep", 5, Double.one, 3, .object []⟩
  ⟨[report.record (.ofNat 1) ⟨2, 0⟩, report.record (.ofNat 2) ⟨3, 0⟩,
    { report with jobType := "word_count" }.record (.ofNat 3) ⟨1, 0⟩]⟩

/-- A database with the rows of these jobs, the last one first. -/
def reportTables (name : String) : Option (List SqlRow) :=
  if name = "jobs" then some (Store.reports.jobs.reverse.map Job.cells) else none

/-- The two jobs of one type are selected, the newest first, and counted. -/
theorem JobFilter.selected_of_reports :
    Store.reports.DistinctTimes ∧ reportTables "jobs" = some (Store.reports.jobs.reverse.map Job.cells) ∧
      (Store.reports.jobs.reverse.map Job.cells).Perm (Store.reports.jobs.map Job.cells) ∧
      (∃ rows, (everything.withJobType "sleep").query.Gives reportTables (.rows rows) ∧
        List.Forall₂ SqlRow.Holds rows [Store.reports.jobs[1], Store.reports.jobs[0]]) ∧
      (everything.withJobType "sleep").countQuery.Gives reportTables (.number 2) := by
  have hs : Store.reports.DistinctTimes := by
    rw [Store.DistinctTimes]
    decide
  have hjobs : reportTables "jobs" = some (Store.reports.jobs.reverse.map Job.cells) := if_pos rfl
  have htable : (Store.reports.jobs.reverse.map Job.cells).Perm (Store.reports.jobs.map Job.cells) :=
    (List.reverse_perm _).map _
  obtain ⟨⟨rows, hrows, hholds⟩, hcount, -⟩ :=
    queries_select hs (everything.withJobType "sleep") hjobs htable
  have hfound : Store.reports.newestFirst (everything.withJobType "sleep")
      = [Store.reports.jobs[1], Store.reports.jobs[0]] := by
    have hswap : [Store.reports.jobs[1], Store.reports.jobs[0]].Perm
        (Store.reports.jobs.filter (everything.withJobType "sleep").isMatch) := List.Perm.swap _ _ []
    exact (Store.lists_newestFirst hs _).eq (fun h => h.asymm)
      (Store.lists_of_perm hs hswap (by decide))
  rw [Store.jobs_query, hfound] at hholds
  have htotal : (Store.reports.query (everything.withJobType "sleep")).total = 2 := by
    rw [Store.total_query]
    decide
  exact ⟨hs, hjobs, htable, ⟨rows, (hrows _).mpr rfl, hholds⟩, (hcount _).mpr (by rw [htotal])⟩

end JobDispatch
