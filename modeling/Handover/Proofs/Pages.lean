import Handover.Job
import Handover.Proofs.Table
import Handover.Submission

/-!
Contract: what a page of a store lists, and what it leaves out.

A page holds the first rows that pass, in the order of their ids. So none of
those that it leaves out comes before its last row, and an empty page says that
no row passes at all.
-/

set_option autoImplicit false

namespace Handover

/-! ## Rows in the order of their ids -/

section Ascending

variable {α : Type} [Keyed α RowId] {front rest : List α} {row other : α}

theorem key_le_of_ascending
    (ascending : (front ++ row :: rest).Pairwise fun left right => key left < key right)
    (member : other ∈ front ++ [row]) : key other ≤ key row := by
  rcases List.mem_append.1 member with inFront | same
  · exact Fin.le_of_lt ((List.pairwise_append.1 ascending).2.2 other inFront row List.mem_cons_self)
  · exact List.mem_singleton.1 same ▸ Fin.le_refl _

/-- The rows with larger ids than one of them are those that come behind it. -/
theorem filter_behind
    (ascending : (front ++ row :: rest).Pairwise fun left right => key left < key right) :
    (front ++ row :: rest).filter (fun other => decide (key row < key other)) = rest := by
  have ahead := (List.pairwise_cons.1 (List.pairwise_append.1 ascending).2.1).1
  have skipped : (front ++ [row]).filter (fun other => decide (key row < key other)) = [] :=
    List.filter_eq_nil_iff.2 fun other member => by simpa using key_le_of_ascending ascending member
  have kept : rest.filter (fun other => decide (key row < key other)) = rest :=
    List.filter_eq_self.2 fun other member => decide_eq_true (ahead other member)
  rw [List.append_cons, List.filter_append, skipped, kept, List.nil_append]

omit [Keyed α RowId] in
/-- A page and what comes behind it make up the list. -/
theorem split_behind_page {rows : List α} {limit : Nat} (isLast : (rows.take limit).getLast? = some row) :
    ∃ front, rows = front ++ row :: rows.drop limit := by
  obtain ⟨front, page⟩ := List.getLast?_eq_some_iff.1 isLast
  refine ⟨front, ?_⟩
  conv_lhs => rw [← List.take_append_drop limit rows, page]
  rw [List.append_assoc, List.singleton_append]

end Ascending

/-! ## Pages -/

namespace Table

section Page

variable {α κ : Type} [Keyed α κ] [LT κ] {table : Table α} {passes : α → Bool} {limit : Nat}

theorem mem_of_mem_page {row : α} (member : row ∈ (table.rows.filter passes).take limit) :
    row ∈ table ∧ passes row = true :=
  List.mem_filter.1 (List.mem_of_mem_take member)

/-- A page leaves out no row that comes before its last one. -/
theorem mem_page_of_not_after {row last : α}
    (isLast : ((table.rows.filter passes).take limit).getLast? = some last)
    (member : row ∈ table) (passing : passes row = true) (notAfter : ¬ key last < key row) :
    row ∈ (table.rows.filter passes).take limit := by
  have ordered := table.ordered.filter passes
  have listed : row ∈ table.rows.filter passes := List.mem_filter.2 ⟨member, passing⟩
  rw [← List.take_append_drop limit (table.rows.filter passes)] at ordered listed
  rcases List.mem_append.1 listed with taken | dropped
  · exact taken
  · have before := (List.pairwise_append.1 ordered).2.2 last (List.mem_of_getLast? isLast) row dropped
    exact absurd before notAfter

/-- The rows of a page come before its last one. -/
theorem eq_last_or_before_of_mem_page {row last : α}
    (isLast : ((table.rows.filter passes).take limit).getLast? = some last)
    (member : row ∈ (table.rows.filter passes).take limit) : row = last ∨ key row < key last := by
  have ordered := (table.ordered.filter passes).sublist (List.take_sublist limit _)
  obtain ⟨front, split⟩ := List.getLast?_eq_some_iff.1 isLast
  rw [split] at ordered member
  rcases List.mem_append.1 member with inFront | same
  · exact .inr ((List.pairwise_append.1 ordered).2.2 row inFront last List.mem_cons_self)
  · exact .inl (List.mem_singleton.1 same)

theorem page_eq_nil_iff (positive : 0 < limit) :
    (table.rows.filter passes).take limit = [] ↔ ∀ row ∈ table, passes row = false := by
  have some : limit ≠ 0 := Nat.ne_of_gt positive
  simp [List.take_eq_nil_iff, some, mem_def]

end Page

end Table

/-- A listing can be resumed after a row with such an id, and no listing begins behind it. -/
def RowId.Resumable (id : RowId) : Prop := 0 < id ∧ id < RowId.last

instance (id : RowId) : Decidable id.Resumable := inferInstanceAs (Decidable (_ ∧ _))

/-- A listing that is resumed after a row id tells rows behind it, but for the largest row
id: resumed after that one it tells its row again. -/
theorem RowId.lt_or_last_of_following_le {after id : RowId} (reached : after.following ≤ id) :
    after < id ∨ after = last ∧ id = last := by
  rcases lt_or_eq_last_of_following_le reached with before | rfl
  · exact .inl before
  · rw [following_last] at reached
    exact .inr ⟨rfl, Fin.le_antisymm id.le_last reached⟩

/-- The node owns the job, and the job still needs an owner. -/
def Job.HeldBy (job : Job) (node : Address) : Prop := job.owner = node ∧ job.isUnfinished = true

instance (job : Job) (node : Address) : Decidable (job.HeldBy node) :=
  inferInstanceAs (Decidable (_ ∧ _))

namespace Jobs

variable {jobs : Jobs} {after : RowId} {node : Address} {limit : Nat}

private theorem passes_iff {job : Job} :
    (decide (after.following ≤ job.id) && job.owner == node &&
        JobStatus.unfinished.contains job.status) = true ↔
      after.following ≤ job.id ∧ job.HeldBy node := by
  simp [Job.HeldBy, Job.isUnfinished, JobStatus.isUnfinished, and_assoc]

theorem mem_page {job : Job} (member : job ∈ jobs.page after JobStatus.unfinished node limit) :
    job ∈ jobs ∧ after.following ≤ job.id ∧ job.HeldBy node := by
  obtain ⟨inside, passing⟩ := Table.mem_of_mem_page member
  exact ⟨inside, passes_iff.1 passing⟩

theorem mem_page_of_le {job last : Job}
    (isLast : (jobs.page after JobStatus.unfinished node limit).getLast? = some last)
    (member : job ∈ jobs) (reached : after.following ≤ job.id) (held : job.HeldBy node)
    (notAfter : job.id ≤ last.id) : job ∈ jobs.page after JobStatus.unfinished node limit :=
  Table.mem_page_of_not_after isLast member (passes_iff.2 ⟨reached, held⟩)
    (Fin.not_lt.2 notAfter)

theorem le_last_of_mem_page {statuses : List JobStatus} {job last : Job}
    (isLast : (jobs.page after statuses node limit).getLast? = some last)
    (member : job ∈ jobs.page after statuses node limit) : job.id ≤ last.id := by
  rcases Table.eq_last_or_before_of_mem_page isLast member with rfl | before
  · exact Fin.le_refl _
  · exact Fin.le_of_lt before

theorem page_eq_nil_iff (positive : 0 < limit) :
    jobs.page after JobStatus.unfinished node limit = [] ↔
      ∀ job ∈ jobs, after.following ≤ job.id → ¬ job.HeldBy node := by
  apply (Table.page_eq_nil_iff positive).trans
  simp only [← Bool.not_eq_true, passes_iff, not_and]

theorem nodup_page_ids (statuses : List JobStatus) :
    ((jobs.page after statuses node limit).map Job.id).Nodup :=
  jobs.nodup_keys.sublist
    (((List.take_sublist _ _).trans List.filter_sublist).map Job.id)

end Jobs

namespace Cache

variable {cache : Cache} {after : RowId} {node : Address} {limit : Nat}

private theorem passes_iff {row : CacheRow} :
    (decide (after.following ≤ row.id) && row.owner == node &&
        (none : Option Stage).all (fun wanted => row.stage == wanted.code) &&
        (none : Option String).all (fun wanted => row.group == some wanted)) = true ↔
      after.following ≤ row.id ∧ row.owner = node := by
  simp

theorem mem_page {row : CacheRow} (member : row ∈ cache.page after node none none limit) :
    row ∈ cache ∧ after.following ≤ row.id ∧ row.owner = node := by
  obtain ⟨inside, passing⟩ := Table.mem_of_mem_page member
  exact ⟨inside, passes_iff.1 passing⟩

theorem mem_page_of_le {row last : CacheRow}
    (isLast : (cache.page after node none none limit).getLast? = some last)
    (member : row ∈ cache) (reached : after.following ≤ row.id) (owned : row.owner = node)
    (notAfter : row.id ≤ last.id) : row ∈ cache.page after node none none limit :=
  Table.mem_page_of_not_after isLast member (passes_iff.2 ⟨reached, owned⟩)
    (Fin.not_lt.2 notAfter)

theorem le_last_of_mem_page {row last : CacheRow}
    (isLast : (cache.page after node none none limit).getLast? = some last)
    (member : row ∈ cache.page after node none none limit) : row.id ≤ last.id := by
  rcases Table.eq_last_or_before_of_mem_page isLast member with rfl | before
  · exact Fin.le_refl _
  · exact Fin.le_of_lt before

theorem page_eq_nil_iff (positive : 0 < limit) :
    cache.page after node none none limit = [] ↔
      ∀ row ∈ cache, after.following ≤ row.id → row.owner ≠ node := by
  apply (Table.page_eq_nil_iff positive).trans
  simp only [← Bool.not_eq_true, passes_iff, not_and, ne_eq]

theorem nodup_page_ids : ((cache.page after node none none limit).map CacheRow.id).Nodup :=
  cache.nodup_keys.sublist
    (((List.take_sublist _ _).trans List.filter_sublist).map CacheRow.id)

end Cache

end Handover
