import Handover.Proofs.Fate
import Mathlib.Data.List.Nodup

/-!
Contract: counting the rows that calls moved or dealt with.

Owns: the count that a list of calls answers, and when it is the number of the
rows that the calls name.

The stores answer how many rows a move found. That is the number of rows named
where every name stands for one row, which holds of row ids always, and of job ids
where no two rows share one.
-/

set_option autoImplicit false

namespace Handover

/-- Rows that are picked by distinct names, each of which stands for one row. -/
theorem countP_contains_eq_length {α ν : Type} [BEq ν] [LawfulBEq ν] {rows : List α}
    (name : α → ν) {names : List ν} (rowsDistinct : rows.Nodup) (namesDistinct : names.Nodup)
    (sole : ∀ wanted ∈ names, ∃ row ∈ rows, name row = wanted ∧
      ∀ other ∈ rows, name other = wanted → other = row) :
    rows.countP (fun row => names.contains (name row)) = names.length := by
  let picked := rows.filter fun row => names.contains (name row)
  have apart : (picked.map name).Nodup := by
    refine List.Nodup.map_on ?_ (rowsDistinct.filter _)
    intro left leftIn right rightIn same
    obtain ⟨leftRow, leftNamed⟩ := List.mem_filter.1 leftIn
    obtain ⟨row, _, _, only⟩ := sole (name left) (by simpa using leftNamed)
    rw [only left leftRow rfl, only right (List.mem_filter.1 rightIn).1 same.symm]
  have sameNames : List.Perm (picked.map name) names := by
    refine (List.perm_ext_iff_of_nodup apart namesDistinct).2 fun wanted => ?_
    constructor
    · intro member
      obtain ⟨row, rowIn, rfl⟩ := List.mem_map.1 member
      simpa using (List.mem_filter.1 rowIn).2
    · intro member
      obtain ⟨row, rowIn, rfl, _⟩ := sole wanted member
      exact List.mem_map.2 ⟨row, List.mem_filter.2 ⟨rowIn, by simpa using member⟩, rfl⟩
  rw [List.countP_eq_length_filter, ← List.length_map (f := name), sameNames.length_eq]

/-! ## Moved rows -/

namespace World

/-- How many rows a call is answered to have moved. -/
def countMade (world : World) : Made → Nat
  | (.reassignJobs dest ids, none) => (world.jobs.reassign dest ids).2
  | (.reassignCache dest jobIds, none) => (world.cache.reassign dest jobIds).2
  | _ => 0

/-- How many rows calls are answered to have moved. -/
def movedCount : World → List Made → Nat
  | _, [] => 0
  | world, one :: rest => world.countMade one + (world.afterMade one).movedCount rest

theorem movedCount_append (world : World) (first second : List Made) :
    world.movedCount (first ++ second) =
      world.movedCount first + (world.replay first).movedCount second := by
  induction first generalizing world with
  | nil => simp [movedCount]
  | cons one rest inductionHypothesis =>
      have replayed : world.replay (one :: rest) = (world.afterMade one).replay rest := rfl
      simp only [List.cons_append, movedCount, inductionHypothesis, replayed, Nat.add_assoc]

/-- No call adds a job or takes one away. -/
theorem afterMade_job_ids (world : World) (one : Made) :
    (world.afterMade one).jobs.rows.map Job.id = world.jobs.rows.map Job.id := by
  obtain ⟨request, refused⟩ := one
  cases refused with
  | some text => rfl
  | none =>
      cases request
      case reassignJobs dest ids =>
        refine List.map_map.trans (List.map_congr_left fun job _ => ?_)
        simp only [Function.comp_apply]
        split <;> rfl
      case markJob jobId status error =>
        refine List.map_map.trans (List.map_congr_left fun job _ => ?_)
        simp only [Function.comp_apply]
        split <;> rfl
      all_goals rfl

theorem replay_job_ids (world : World) (made : List Made) :
    (world.replay made).jobs.rows.map Job.id = world.jobs.rows.map Job.id :=
  replay_keeps (fun other => other.jobs.rows.map Job.id = world.jobs.rows.map Job.id)
    (fun one _ other same => (afterMade_job_ids other one).trans same) rfl

private theorem reassign_count {jobs : Jobs} {dest : Address} {ids : List RowId}
    (known : ∀ id ∈ ids, id ∈ jobs.rows.map Job.id) : (jobs.reassign dest ids).2 = ids.length := by
  refine List.countP_eq_length.2 fun id member => ?_
  obtain ⟨job, jobIn, rfl⟩ := List.mem_map.1 (known id member)
  have found : jobs.find? job.id = some job := Table.find?_eq_some_iff.2 ⟨jobIn, rfl⟩
  rw [found]
  rfl

/-- Moves of known jobs count all the ids they name. -/
theorem movedCount_of_jobs {world : World} {made : List Made} (noRows : Mover.rows.moves made = [])
    (known : ∀ id ∈ movedNames (Mover.jobs.moves made), id ∈ world.jobs.rows.map Job.id) :
    world.movedCount made = (movedNames (Mover.jobs.moves made)).length := by
  induction made generalizing world with
  | nil => rfl
  | cons one rest inductionHypothesis =>
      have split : movedNames (Mover.jobs.moves (one :: rest)) =
          movedNames (Mover.jobs.moves [one]) ++ movedNames (Mover.jobs.moves rest) := by
        rw [Mover.moves_cons, movedNames_append]
      have noneNow : Mover.rows.moves [one] = [] ∧ Mover.rows.moves rest = [] := by
        rwa [Mover.moves_cons, List.append_eq_nil_iff] at noRows
      rw [split] at known ⊢
      have later : (world.afterMade one).movedCount rest = _ :=
        inductionHypothesis noneNow.2 fun id member => by
          rw [afterMade_job_ids]
          exact known id (List.mem_append_right _ member)
      have now : world.countMade one = (movedNames (Mover.jobs.moves [one])).length := by
        unfold countMade
        split
        case h_1 dest ids =>
          rw [reassign_count fun id member => known id
            (by simp [movedNames, Mover.moves, Mover.jobs, member])]
          simp [movedNames, Mover.moves, Mover.jobs]
        case h_2 dest jobIds => simp [Mover.moves, Mover.rows] at noneNow
        case h_3 noJobs _ =>
          have empty : Mover.jobs.moves [one] = [] := by
            refine List.eq_nil_iff_forall_not_mem.2 fun move member => ?_
            exact noJobs _ _ (List.mem_singleton.1 (Mover.mem_moves.1 member)).symm
          simp [empty, movedNames]
      rw [List.length_append, movedCount, now, later]

theorem movedCount_eq_zero {world : World} {made : List Made} (noJobs : Mover.jobs.moves made = [])
    (noRows : Mover.rows.moves made = []) : world.movedCount made = 0 := by
  have counted : world.movedCount made = _ := movedCount_of_jobs noRows (by simp [noJobs, movedNames])
  simpa [noJobs, movedNames] using counted

end World

/-- The row is in the cache, and no other row has its job id. -/
def Cache.Sole (cache : Cache) (row : CacheRow) : Prop :=
  row ∈ cache ∧ ∀ other ∈ cache, other.jobId = row.jobId → other = row

theorem World.sole_afterMade {world : World} {one : Made} {row : CacheRow}
    (sole : world.cache.Sole row) (stays : ¬ row.RemovedBy [one]) :
    (world.afterMade one).cache.Sole (row.movedBy [one]) := by
  have left : row.fate [one] = some (row.movedBy [one]) := if_neg stays
  refine ⟨World.mem_replay_cache.2 ⟨row, sole.1, left⟩, ?_⟩
  intro other member same
  have replayed : other ∈ (world.replay [one]).cache := member
  obtain ⟨before, beforeIn, fated⟩ := World.mem_replay_cache.1 replayed
  obtain ⟨_, rfl⟩ := CacheRow.fate_eq_some_iff.1 fated
  rw [sole.2 before beforeIn same]

/-- Moves of sole rows count all the job ids they name. -/
theorem World.movedCount_of_rows {world : World} {made : List Made}
    (noJobs : Mover.jobs.moves made = [])
    (distinct : ∀ move ∈ Mover.rows.moves made, move.2.Nodup)
    (sole : ∀ name ∈ movedNames (Mover.rows.moves made), ∃ row, row.jobId = name ∧
      world.cache.Sole row ∧ ¬ row.RemovedBy made) :
    world.movedCount made = (movedNames (Mover.rows.moves made)).length := by
  induction made generalizing world with
  | nil => rfl
  | cons one rest inductionHypothesis =>
      have split : movedNames (Mover.rows.moves (one :: rest)) =
          movedNames (Mover.rows.moves [one]) ++ movedNames (Mover.rows.moves rest) := by
        rw [Mover.moves_cons, movedNames_append]
      have noneNow : Mover.jobs.moves [one] = [] ∧ Mover.jobs.moves rest = [] := by
        rwa [Mover.moves_cons, List.append_eq_nil_iff] at noJobs
      rw [split] at sole ⊢
      rw [Mover.moves_cons] at distinct
      have later : (world.afterMade one).movedCount rest = _ := inductionHypothesis noneNow.2
        (fun move member => distinct move (List.mem_append_right _ member)) fun name member => by
          obtain ⟨row, sameName, soleNow, stays⟩ := sole name (List.mem_append_right _ member)
          rw [← List.singleton_append, CacheRow.removedBy_append, not_or] at stays
          exact ⟨row.movedBy [one], sameName, sole_afterMade soleNow stays.1, stays.2⟩
      have now : world.countMade one = (movedNames (Mover.rows.moves [one])).length := by
        unfold countMade
        split
        case h_1 dest ids => simp [Mover.moves, Mover.jobs] at noneNow
        case h_2 dest jobIds =>
          have all : movedNames (Mover.rows.moves [(.reassignCache dest jobIds, none)]) = jobIds := by
            simp [movedNames, Mover.moves, Mover.rows]
          rw [all] at sole ⊢
          have distinctNow : jobIds.Nodup :=
            distinct (dest, jobIds) (by simp [Mover.moves, Mover.rows])
          refine countP_contains_eq_length CacheRow.jobId ?_ distinctNow ?_
          · exact world.cache.nodup_rows
          · intro wanted member
            obtain ⟨row, sameName, ⟨rowIn, only⟩, _⟩ := sole wanted (List.mem_append_left _ member)
            exact ⟨row, rowIn, sameName, fun other otherIn same =>
              only other otherIn (same.trans sameName.symm)⟩
        case h_3 _ noRows =>
          have empty : Mover.rows.moves [one] = [] := by
            refine List.eq_nil_iff_forall_not_mem.2 fun move member => ?_
            exact noRows _ _ (List.mem_singleton.1 (Mover.mem_moves.1 member)).symm
          simp [empty, movedNames]
      rw [List.length_append, movedCount, now, later]

/-! ## Dealt with rows -/

/-- The rows that calls removed by their row ids. -/
def droppedIds (made : List Made) : List RowId :=
  made.filterMap fun
    | (.deleteRow id, none) => some id
    | _ => none

/-- The job ids under which calls marked a job. -/
def markedNames (made : List Made) : List String :=
  made.filterMap fun
    | (.markJob jobId _ _, none) => some jobId
    | _ => none

/-- How many rows calls dealt with for good: a row without a job id is dropped, and
for any other the failure of its job is recorded. -/
def dealtCount (made : List Made) : Nat := (droppedIds made).length + (markedNames made).length

theorem mem_droppedIds {made : List Made} {id : RowId} :
    id ∈ droppedIds made ↔ (.deleteRow id, none) ∈ made := by
  simp only [droppedIds, List.mem_filterMap]
  constructor
  · rintro ⟨one, member, told⟩
    split at told
    · cases told
      exact member
    · cases told
  · intro member
    exact ⟨_, member, rfl⟩

theorem mem_markedNames {made : List Made} {jobId : String} :
    jobId ∈ markedNames made ↔ ∃ status error, (.markJob jobId status error, none) ∈ made := by
  simp only [markedNames, List.mem_filterMap]
  constructor
  · rintro ⟨one, member, told⟩
    split at told
    · cases told
      exact ⟨_, _, member⟩
    · cases told
  · rintro ⟨status, error, member⟩
    exact ⟨_, member, rfl⟩

theorem dealtCount_append (first second : List Made) :
    dealtCount (first ++ second) = dealtCount first + dealtCount second := by
  simp only [dealtCount, droppedIds, markedNames, List.filterMap_append, List.length_append]
  omega

end Handover
