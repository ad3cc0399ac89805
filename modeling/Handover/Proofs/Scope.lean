import Handover.Proofs.Balance
import Handover.Proofs.LastRow

/-!
Contract: the part of the stores that a takeover has to do with.

Owns: the rows of a table that have given ids; stores that hold the same rows within such a
scope and keep all else out of it; and that each of the calls by which the work of a node is
taken over is answered alike over such stores, and leaves them so.

Rows outside of the scope are not with the node, and no row of the scope shares its job id with
one of them. So a listing of what the node has tells only rows of the scope, and a move or a
deletion by job id reaches no others.
-/

set_option autoImplicit false

namespace Handover

/-! ## Rows with given ids -/

namespace Table

variable {α κ : Type} [Keyed α κ] [LT κ] [DecidableEq κ]

/-- The rows that have one of these keys. -/
def only (keys : List κ) (table : Table α) : Table α := table.filter fun row => keys.contains (key row)

variable {keys : List κ} {table : Table α}

theorem mem_only {row : α} : row ∈ table.only keys ↔ row ∈ table ∧ key row ∈ keys := by
  simp [only]

theorem find?_only {wanted : κ} (inside : wanted ∈ keys) :
    (table.only keys).find? wanted = table.find? wanted := by
  simp only [find?, only, rows_filter, List.find?_filter]
  congr 1
  funext row
  by_cases here : key row = wanted
  · simp [here, inside]
  · simp [here]

theorem only_update (change : α → α) (keeps : ∀ row, key (change row) = key row) :
    (table.update change keeps).only keys = (table.only keys).update change keeps := by
  apply ext_rows
  simp only [only, rows_filter, rows_update, List.filter_map, Function.comp_def, keeps]

theorem only_filter (keep : α → Bool) : (table.filter keep).only keys = (table.only keys).filter keep := by
  apply ext_rows
  simp only [only, rows_filter, List.filter_filter, Bool.and_comm]

/-- A question that only rows with these keys answer with yes can be put to these alone. -/
theorem filter_only {passes : α → Bool} (within : ∀ row ∈ table, passes row = true → key row ∈ keys) :
    (table.only keys).rows.filter passes = table.rows.filter passes := by
  rw [only, rows_filter, List.filter_filter]
  refine List.filter_congr fun row member => ?_
  cases passing : passes row with
  | false => rfl
  | true => simpa using within row member passing

/-- Tables that hold the same wanted rows hold the same rows under the keys of these. -/
theorem only_eq_only [Std.Asymm (α := κ) (· < ·)] {left right : Table α} {wanted : α → Prop}
    (same : ∀ row, wanted row → (row ∈ left ↔ row ∈ right))
    (ofWanted : ∀ wantedKey, wantedKey ∈ keys ↔ ∃ mine ∈ left, wanted mine ∧ key mine = wantedKey) :
    left.only keys = right.only keys := by
  refine ext_mem fun row => ?_
  rw [mem_only, mem_only]
  refine and_congr_left fun named => ?_
  obtain ⟨mine, inside, isWanted, sameKey⟩ := (ofWanted _).1 named
  have there : mine ∈ right := (same mine isWanted).1 inside
  constructor
  · intro member
    rwa [eq_of_key_eq member inside sameKey.symm]
  · intro member
    rwa [eq_of_key_eq member there sameKey.symm]

end Table

/-! ## Jobs -/

namespace Jobs

/-- Stores with the same jobs under these ids, without a further job that the node holds. -/
structure Match (node : Address) (ids : List RowId) (left right : Jobs) : Prop where
  same : left.only ids = right.only ids
  held : ∀ job ∈ left, job.HeldBy node → job.id ∈ ids
  heldThere : ∀ job ∈ right, job.HeldBy node → job.id ∈ ids

namespace Match

variable {node : Address} {ids : List RowId} {left right : Jobs} (matching : Match node ids left right)

include matching

theorem find?_eq {id : RowId} (inside : id ∈ ids) : left.find? id = right.find? id := by
  rw [← Table.find?_only inside, matching.same, Table.find?_only inside]

theorem page_eq (after : RowId) (limit : Nat) :
    left.page after JobStatus.unfinished node limit = right.page after JobStatus.unfinished node limit := by
  have listed : ∀ {jobs : Jobs}, (∀ job ∈ jobs, job.HeldBy node → job.id ∈ ids) →
      ∀ job ∈ jobs, (decide (after.following ≤ job.id) && job.owner == node &&
        JobStatus.unfinished.contains job.status) = true → key job ∈ ids := by
    intro jobs held job inside passing
    simp only [Bool.and_eq_true, beq_iff_eq] at passing
    exact held job inside ⟨passing.1.2, passing.2⟩
  unfold page
  rw [← Table.filter_only (listed matching.held), ← Table.filter_only (listed matching.heldThere),
    matching.same]

/-- Jobs of the scope go to another node. -/
theorem reassign {dest : Address} (other : dest ≠ node) {moved : List RowId} (among : ∀ id ∈ moved, id ∈ ids) :
    Match node ids (left.reassign dest moved).1 (right.reassign dest moved).1 ∧
      (left.reassign dest moved).2 = (right.reassign dest moved).2 := by
  have stays : ∀ {jobs : Jobs}, (∀ job ∈ jobs, job.HeldBy node → job.id ∈ ids) →
      ∀ job ∈ (jobs.reassign dest moved).1, job.HeldBy node → job.id ∈ ids := by
    intro jobs held job member stillHeld
    obtain ⟨old, inside, rfl⟩ := List.mem_map.1 member
    by_cases goes : moved.contains old.id = true
    · rw [if_pos goes] at stillHeld
      exact absurd stillHeld.1 other
    · rw [if_neg goes] at stillHeld ⊢
      exact held old inside stillHeld
  refine ⟨⟨?_, stays matching.held, stays matching.heldThere⟩, ?_⟩
  · simp only [Jobs.reassign, Table.only_update, matching.same]
  · refine List.countP_congr fun id member => ?_
    rw [matching.find?_eq (among id member)]

end Match

/-- A mark changes no owner. -/
theorem ownerOf_mark (jobs : Jobs) (jobId : String) (status : JobStatus) (error : String) (id : RowId) :
    (jobs.mark jobId status error).ownerOf id = jobs.ownerOf id := by
  simp only [ownerOf, mark, Table.find?_update, Option.map_map]
  congr 1
  funext job
  simp only [Function.comp_apply]
  split <;> rfl

end Jobs

/-! ## Rows of the cache -/

namespace Cache

/-- The node has only rows with these ids, and no other row has one of their names. -/
structure Within (node : Address) (ids : List RowId) (names : List String) (cache : Cache) : Prop where
  owned : ∀ row ∈ cache, row.owner = node → row.id ∈ ids
  named : ∀ row ∈ cache, row.owner = node → row.namesNoJob = false → row.jobId ∈ names
  unshared : ∀ row ∈ cache, row.jobId ∈ names → row.id ∈ ids

/-- Stores with the same rows under these ids, without a further row that the node has. -/
structure Match (node : Address) (ids : List RowId) (names : List String) (left right : Cache) : Prop where
  same : left.only ids = right.only ids
  within : Within node ids names left
  withinThere : Within node ids names right

variable {node : Address} {ids : List RowId} {names : List String} {cache left right : Cache}

theorem Within.update (within : Within node ids names cache) (change : CacheRow → CacheRow)
    (keeps : ∀ row, key (change row) = key row) (keepsName : ∀ row, (change row).jobId = row.jobId)
    (gives : ∀ row, (change row).owner = node → row.owner = node) :
    Within node ids names (cache.update change keeps) := by
  have keepsId : ∀ row, (change row).id = row.id := keeps
  refine ⟨?_, ?_, ?_⟩
  · intro row member owned
    obtain ⟨old, inside, rfl⟩ := List.mem_map.1 member
    rw [keepsId]
    exact within.owned old inside (gives old owned)
  · intro row member owned namesOne
    obtain ⟨old, inside, rfl⟩ := List.mem_map.1 member
    rw [CacheRow.namesNoJob, keepsName] at namesOne
    rw [keepsName]
    exact within.named old inside (gives old owned) namesOne
  · intro row member named
    obtain ⟨old, inside, rfl⟩ := List.mem_map.1 member
    rw [keepsName] at named
    rw [keepsId]
    exact within.unshared old inside named

theorem Within.filter (within : Within node ids names cache) (keep : CacheRow → Bool) :
    Within node ids names (cache.filter keep) where
  owned := fun row member => within.owned row (Table.mem_filter.1 member).1
  named := fun row member => within.named row (Table.mem_filter.1 member).1
  unshared := fun row member => within.unshared row (Table.mem_filter.1 member).1

namespace Match

variable (matching : Match node ids names left right)

include matching

theorem find?_eq {id : RowId} (inside : id ∈ ids) : left.find? id = right.find? id := by
  rw [← Table.find?_only inside, matching.same, Table.find?_only inside]

theorem filter (keep : CacheRow → Bool) : Match node ids names (left.filter keep) (right.filter keep) where
  same := by rw [Table.only_filter, Table.only_filter, matching.same]
  within := matching.within.filter keep
  withinThere := matching.withinThere.filter keep

theorem page_eq (after : RowId) (limit : Nat) :
    left.page after node none none limit = right.page after node none none limit := by
  have listed : ∀ {cache : Cache}, Within node ids names cache → ∀ row ∈ cache,
      (decide (after.following ≤ row.id) && row.owner == node &&
        (none : Option Stage).all (fun wanted => row.stage == wanted.code) &&
        (none : Option String).all (fun wanted => row.group == some wanted)) = true → key row ∈ ids := by
    intro cache within row inside passing
    simp only [Bool.and_eq_true, beq_iff_eq] at passing
    exact within.owned row inside passing.1.1.2
  unfold page
  rw [← Table.filter_only (listed matching.within), ← Table.filter_only (listed matching.withinThere),
    matching.same]

/-- Rows go to another node by names of the scope. -/
theorem reassign {dest : Address} (other : dest ≠ node) {jobIds : List String}
    (among : ∀ jobId ∈ jobIds, jobId ∈ names) :
    Match node ids names (left.reassign dest jobIds).1 (right.reassign dest jobIds).1 ∧
      (left.reassign dest jobIds).2 = (right.reassign dest jobIds).2 := by
  have stays : ∀ {cache : Cache}, Within node ids names cache →
      Within node ids names (cache.reassign dest jobIds).1 := by
    intro cache within
    refine within.update _ (fun row => by split <;> rfl) (fun row => ?_) fun row owned => ?_
    · split <;> rfl
    · split at owned
      case isTrue => exact absurd owned other
      case isFalse => exact owned
  have counted : ∀ {cache : Cache}, Within node ids names cache →
      (cache.reassign dest jobIds).2 = ((cache.only ids).rows.filter fun row => jobIds.contains row.jobId).length := by
    intro cache within
    rw [Table.filter_only fun row inside named =>
      within.unshared row inside (among _ (List.contains_iff_mem.1 named))]
    exact List.countP_eq_length_filter
  refine ⟨⟨?_, stays matching.within, stays matching.withinThere⟩, ?_⟩
  · simp only [Cache.reassign, Table.only_update, matching.same]
  · rw [counted matching.within, counted matching.withinThere, matching.same]

end Match

end Cache

/-! ## All collaborators -/

/-- What a takeover of a node has to do with. -/
structure Scope where
  /-- The ids of its jobs. -/
  jobs : List RowId
  /-- The ids of its rows in the cache. -/
  rows : List RowId
  /-- The job ids that these rows name. -/
  names : List String

namespace World

/-- The same nodes are alive, and within the scope the stores hold the same. -/
structure Match (node : Address) (scope : Scope) (here there : World) : Prop where
  members : here.members = there.members
  jobs : here.jobs.Match node scope.jobs there.jobs
  rows : here.cache.Match node scope.rows scope.names there.cache

/-- The same, but of the jobs just the owners. -/
structure MatchOwners (node : Address) (scope : Scope) (here there : World) : Prop where
  members : here.members = there.members
  owners : ∀ id ∈ scope.jobs, here.jobs.ownerOf id = there.jobs.ownerOf id
  rows : here.cache.Match node scope.rows scope.names there.cache

theorem Match.toOwners {node : Address} {scope : Scope} {here there : World}
    (matching : Match node scope here there) : MatchOwners node scope here there where
  members := matching.members
  owners := fun _ inside => congrArg (Option.map Job.owner) (matching.jobs.find?_eq inside)
  rows := matching.rows

end World

end Handover
