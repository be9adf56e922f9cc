import JobDispatch.Proofs.Store.Ages
import Mathlib.Algebra.Order.Floor.Div

/-!
# The pages of a listing

A filter names a page by two numbers of 32 bits.  Whatever they are, each is moved to the nearest one that
is allowed.  The pages of one width are cut from one list, the matching records from the newest to the
oldest: page after page, with nothing between them and nothing left over.

## Main definitions

* `JobFilter.asking` — a filter, at the page that is asked for.
* `JobFilter.width` — how many jobs a page holds if a size is asked for.
* `JobPage.IsCut` — a page is a certain part of a list.
* `Store.firstPages` — the first pages, one behind another.

## Main results

* `JobFilter.toNat_offset` — what stands before a page is counted without an overflow.
* `Store.isCut_query` — a page is cut from the matching records.
* `Store.pages_partition` — **the pages list every matching record once.**
-/

namespace JobDispatch

/-! ### The page that is asked for -/

namespace JobFilter

variable (f : JobFilter) (page size : UInt32)

/-- The filter at the page, and with the page size, that are asked for. -/
def asking : JobFilter := (f.atPage page).withPageSize size

/-- How many jobs a page holds, if a size is asked for. -/
def width : Nat := max 1 (min size.toNat 100)

theorem width_pos : 0 < width size := Nat.le_max_left _ _

theorem toNat_page_atPage : (f.atPage page).page.toNat = max 1 page.toNat := by
  rw [atPage]
  split <;> next h => simp [UInt32.le_iff_toNat_le] at h ⊢; omega

theorem isMatch_atPage : (f.atPage page).isMatch = f.isMatch := by
  rw [atPage]
  split <;> rfl

/-- A page size that is set is the nearest one that is allowed, and nothing else changes. -/
theorem exists_withPageSize_eq : ∃ (w : UInt32) (h : 1 ≤ w) (h' : w ≤ 100),
    f.withPageSize size = { f with pageSize := w, one_le_pageSize := h, pageSize_le := h' } ∧
      w.toNat = width size := by
  rw [withPageSize, width]
  split
  · next h =>
    split
    · next h' =>
      refine ⟨size, h, h', rfl, ?_⟩
      simp [UInt32.le_iff_toNat_le] at h h'
      omega
    · next h' =>
      refine ⟨100, by decide, by decide, rfl, ?_⟩
      simp [UInt32.le_iff_toNat_le] at h' ⊢
      omega
  · next h =>
    refine ⟨1, by decide, by decide, rfl, ?_⟩
    simp [UInt32.le_iff_toNat_le] at h ⊢
    omega

/-- The page is the one that is asked for, or the first. -/
theorem toNat_page_asking : (f.asking page size).page.toNat = max 1 page.toNat := by
  obtain ⟨w, h, h', hw, -⟩ := (f.atPage page).exists_withPageSize_eq size
  rw [asking, hw, ← toNat_page_atPage f page]

/-- The page size is the nearest one to the one that is asked for. -/
theorem toNat_pageSize_asking : (f.asking page size).pageSize.toNat = width size := by
  obtain ⟨w, h, h', hw, hwidth⟩ := (f.atPage page).exists_withPageSize_eq size
  rw [asking, hw, ← hwidth]

/-- The conditions stay as they are. -/
theorem isMatch_asking : (f.asking page size).isMatch = f.isMatch := by
  obtain ⟨w, h, h', hw, -⟩ := (f.atPage page).exists_withPageSize_eq size
  rw [asking, hw, ← isMatch_atPage f page]
  rfl

/-- How many records stand before a page at most. -/
theorem mul_pageSize_le : (f.page.toNat - 1) * f.pageSize.toNat ≤ (2 ^ 32 - 1) * 100 := by
  have hpage := f.page.toNat_lt
  exact Nat.mul_le_mul (by omega) (UInt32.le_iff_toNat_le.mp f.pageSize_le)

/-- **What stands before a page is counted exactly**: no page is below the first, and the number of those
before it, times the page size, stays within 64 bits. -/
theorem toNat_offset : 1 ≤ f.page.toNat ∧ (f.page - 1).toNat = f.page.toNat - 1 ∧
    f.offset.toNat = (f.page.toNat - 1) * f.pageSize.toNat := by
  have hbefore : (f.page - 1).toNat = f.page.toNat - 1 := UInt32.toNat_sub_of_le _ _ f.one_le_page
  refine ⟨UInt32.le_iff_toNat_le.mp f.one_le_page, hbefore, ?_⟩
  have hle := f.mul_pageSize_le
  rw [offset, UInt64.toNat_mul, UInt32.toNat_toUInt64, UInt32.toNat_toUInt64, hbefore]
  exact Nat.mod_eq_of_lt (by omega)

end JobFilter

/-! ### Cutting a page -/

/-- **A page is a certain part of a list**, and names the number of all that it is a part of. -/
structure JobPage.IsCut (p : JobPage) (found : List Job) (number width : Nat) : Prop where
  page : p.page.toNat = number
  pageSize : p.pageSize.toNat = width
  total : p.total = found.length
  getElem? : ∀ k, p.jobs[k]? = if k < width then found[(number - 1) * width + k]? else none

namespace Store

variable (s : Store) (f : JobFilter) (page size : UInt32)

/-- The matching records do not depend on the page. -/
theorem newestFirst_asking : s.newestFirst (f.asking page size) = s.newestFirst f := by
  rw [newestFirst, newestFirst, JobFilter.isMatch_asking]

/-- The records on a page. -/
theorem jobs_query : (s.query f).jobs
    = ((s.newestFirst f).drop ((f.page.toNat - 1) * f.pageSize.toNat)).take f.pageSize.toNat := by
  obtain ⟨-, -, hoffset⟩ := f.toNat_offset
  rw [query, hoffset]

/-- The records on the page that is asked for. -/
theorem jobs_query_asking : (s.query (f.asking page size)).jobs
    = ((s.newestFirst f).drop ((max 1 page.toNat - 1) * JobFilter.width size)).take
        (JobFilter.width size) := by
  rw [jobs_query, newestFirst_asking, JobFilter.toNat_page_asking, JobFilter.toNat_pageSize_asking]

/-- **A page is cut from the matching records.** -/
theorem isCut_query : (s.query (f.asking page size)).IsCut (s.newestFirst f) (max 1 page.toNat)
    (JobFilter.width size) where
  page := JobFilter.toNat_page_asking _ _ _
  pageSize := JobFilter.toNat_pageSize_asking _ _ _
  total := by rw [query, newestFirst_asking]
  getElem? k := by
    rw [jobs_query_asking, List.getElem?_take, List.getElem?_drop]

/-! ### All pages -/

/-- The records on the first pages, one page behind another. -/
def firstPages (last : Nat) : List Job :=
  (List.range last).flatMap fun n => (s.query (f.asking (.ofNat (n + 1)) size)).jobs

/-- **The first pages list the first of the matching records.** -/
theorem firstPages_eq {last : Nat} (h : last < UInt32.size) :
    s.firstPages f size last = (s.newestFirst f).take (last * JobFilter.width size) := by
  induction last with
  | zero => rw [Nat.zero_mul, List.take_zero]; rfl
  | succ last ih =>
    have hnumber : (UInt32.ofNat (last + 1)).toNat = last + 1 := UInt32.toNat_ofNat_of_lt h
    have hnext : (s.query (f.asking (.ofNat (last + 1)) size)).jobs
        = ((s.newestFirst f).drop (last * JobFilter.width size)).take (JobFilter.width size) := by
      rw [jobs_query_asking, hnumber, max_eq_right (Nat.le_add_left 1 last), Nat.add_sub_cancel]
    rw [firstPages, List.range_succ, List.flatMap_append, List.flatMap_singleton, hnext,
      ← firstPages, ih (Nat.lt_of_succ_lt h), Nat.succ_mul, List.take_add]

/-- **All pages list all matching records.** -/
theorem firstPages_ceilDiv
    (h : (s.newestFirst f).length ⌈/⌉ JobFilter.width size < UInt32.size) :
    s.firstPages f size ((s.newestFirst f).length ⌈/⌉ JobFilter.width size) = s.newestFirst f := by
  rw [firstPages_eq s f size h, Nat.mul_comm]
  exact List.take_of_length_le (le_smul_ceilDiv (JobFilter.width_pos size))

/-- After the last page nothing is listed. -/
theorem jobs_query_eq_nil (h : (s.newestFirst f).length ⌈/⌉ JobFilter.width size < page.toNat) :
    (s.query (f.asking page size)).jobs = [] := by
  have hbefore : (s.newestFirst f).length ⌈/⌉ JobFilter.width size ≤ max 1 page.toNat - 1 := by omega
  have hall := (ceilDiv_le_iff_le_smul (JobFilter.width_pos size)).mp hbefore
  rw [jobs_query_asking, List.drop_eq_nil_of_le (by rwa [Nat.mul_comm]), List.take_nil]

variable {s}

/-- **The pages list every matching record once.**  If no two records were created at the same time, then
there is one list of the matching records from the newest to the oldest, and whatever page and size are
asked for: the page is cut from that list where its number says and names the length of the list, the
pages one behind another are the list, and those after them are empty. -/
theorem pages_partition (hs : s.DistinctTimes) (f : JobFilter) :
    ∃ found, s.Lists f.Wants (fun i j => j.Older i) found ∧
      (∀ page size, (s.query (f.asking page size)).IsCut found (max 1 page.toNat)
        (JobFilter.width size)) ∧
      (∀ page size, 1 ≤ (f.asking page size).page ∧
        ((f.asking page size).page - 1).toNat = max 1 page.toNat - 1 ∧
        (f.asking page size).offset.toNat = (max 1 page.toNat - 1) * JobFilter.width size) ∧
      (∀ size last, last < UInt32.size →
        s.firstPages f size last = found.take (last * JobFilter.width size)) ∧
      ∀ size,
        (found.length ⌈/⌉ JobFilter.width size < UInt32.size →
          s.firstPages f size (found.length ⌈/⌉ JobFilter.width size) = found) ∧
        ∀ page : UInt32, found.length ⌈/⌉ JobFilter.width size < page.toNat →
          (s.query (f.asking page size)).jobs = [] := by
  refine ⟨s.newestFirst f, lists_newestFirst hs f, isCut_query s f, ?_, ?_, ?_⟩
  · intro page size
    obtain ⟨-, hbefore, hoffset⟩ := (f.asking page size).toNat_offset
    refine ⟨(f.asking page size).one_le_page, ?_, ?_⟩
    · rw [hbefore, JobFilter.toNat_page_asking]
    · rw [hoffset, JobFilter.toNat_page_asking, JobFilter.toNat_pageSize_asking]
  · intro size last h
    exact firstPages_eq s f size h
  · intro size
    exact ⟨firstPages_ceilDiv s f size, fun page => jobs_query_eq_nil s f page size⟩

/-- Three jobs that wait, the newest in the middle. -/
def threeReports : Store :=
  let new : NewJob := ⟨"report", "sleep", 5, Double.one, 3, .object []⟩
  ⟨[new.record (.ofNat 1) ⟨2, 0⟩, new.record (.ofNat 2) ⟨3, 0⟩, new.record (.ofNat 3) ⟨1, 0⟩]⟩

/-- Two pages list them, page zero is the first of them, and the third is empty. -/
theorem pages_of_threeReports :
    threeReports.DistinctTimes ∧
      ((threeReports.firstPages .everything 2 2).map Job.id) = [.ofNat 2, .ofNat 1, .ofNat 3] ∧
      (threeReports.query (JobFilter.everything.asking 0 2)).total = 3 ∧
      (threeReports.query (JobFilter.everything.asking 0 2)).page = 1 ∧
      (threeReports.query (JobFilter.everything.asking 2 2)).jobs[0]? = threeReports.jobs[2]? ∧
      (threeReports.query (JobFilter.everything.asking 3 2)).jobs = [] := by
  have hs : threeReports.DistinctTimes := by
    rw [DistinctTimes]
    decide
  obtain ⟨found, hlist, hcut, -, -, hpages⟩ := pages_partition hs .everything
  obtain rfl : found = [threeReports.jobs[1], threeReports.jobs[0], threeReports.jobs[2]] := by
    have hswap : [threeReports.jobs[1], threeReports.jobs[0], threeReports.jobs[2]].Perm
        (threeReports.jobs.filter JobFilter.everything.isMatch) := List.Perm.swap _ _ _
    exact hlist.eq (fun h => h.asymm) (lists_of_perm hs hswap (by decide))
  obtain ⟨hall, hnone⟩ := hpages 2
  have hall : threeReports.firstPages .everything 2 2 = _ := hall (by decide)
  have hfirst := hcut 0 2
  have hsecond := hcut 2 2
  exact ⟨hs, by rw [hall]; rfl, hfirst.total, UInt32.toNat_inj.mp hfirst.page, hsecond.getElem? 0,
    hnone 3 (by decide)⟩

end Store

end JobDispatch
