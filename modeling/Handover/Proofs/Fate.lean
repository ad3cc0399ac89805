import Handover.Proofs.Play
import Handover.Proofs.Table
import Mathlib.Data.List.Perm.Basic

/-!
Contract: what becomes of the rows of the stores under a list of calls.

Owns: the moves and the removals among calls; the fate of a job and of a cache
row, told row by row; what the collaborators hold after calls, in terms of fates.

A job is moved by its row id. A cache row is moved by its job id, so that rows
with one job id are moved together and removed together; only a removal by row id
concerns one row alone.
-/

set_option autoImplicit false

namespace Handover

/-! ## Moves -/

section Moves

variable {ν : Type}

/-- The rows that are named by the moves. -/
def movedNames (moves : List (Address × List ν)) : List ν := moves.flatMap Prod.snd

theorem movedNames_append (first second : List (Address × List ν)) :
    movedNames (first ++ second) = movedNames first ++ movedNames second := List.flatMap_append

variable [BEq ν]

/-- The owner that a row goes to by the last of the moves that name it. -/
def newOwner (moves : List (Address × List ν)) (name : ν) : Option Address :=
  moves.foldr (fun move later => later.or (if move.2.contains name then some move.1 else none)) none

theorem newOwner_append (first second : List (Address × List ν)) (name : ν) :
    newOwner (first ++ second) name = (newOwner second name).or (newOwner first name) := by
  induction first with
  | nil => simp [newOwner]
  | cons move rest inductionHypothesis =>
      have step : ∀ moves, newOwner (move :: moves) name =
          (newOwner moves name).or (if move.2.contains name then some move.1 else none) :=
        fun _ => rfl
      rw [List.cons_append, step, step, inductionHypothesis, Option.or_assoc]

variable [LawfulBEq ν]

theorem newOwner_eq_none_iff {moves : List (Address × List ν)} {name : ν} :
    newOwner moves name = none ↔ name ∉ movedNames moves := by
  induction moves with
  | nil => simp [newOwner, movedNames]
  | cons move rest inductionHypothesis =>
      have step : newOwner (move :: rest) name =
          (newOwner rest name).or (if move.2.contains name then some move.1 else none) := rfl
      simp only [step, Option.or_eq_none_iff, inductionHypothesis, movedNames, List.flatMap_cons,
        List.mem_append, not_or]
      simp [and_comm]

/-- A new owner is the destination of a move that names the row. -/
theorem exists_move_of_newOwner {moves : List (Address × List ν)} {name : ν} {dest : Address}
    (moved : newOwner moves name = some dest) : ∃ names, (dest, names) ∈ moves ∧ name ∈ names := by
  induction moves with
  | nil => cases moved
  | cons move rest inductionHypothesis =>
      rcases Option.or_eq_some_iff.1 moved with later | ⟨_, now⟩
      · obtain ⟨names, member, named⟩ := inductionHypothesis later
        exact ⟨names, List.mem_cons_of_mem _ member, named⟩
      · split at now
        case isTrue named =>
          cases now
          exact ⟨move.2, List.mem_cons_self, by simpa using named⟩
        case isFalse => cases now

end Moves

/-- A kind of call that gives rows a new owner, and how it is told from the others. -/
structure Mover (ν : Type) where
  call : Address → List ν → Call
  told : Made → Option (Address × List ν)
  told_eq_some_iff : ∀ one move, told one = some move ↔ one = (call move.1 move.2, none)
  told_weigh : ∀ demand refused, told (.weigh demand, refused) = none

namespace Mover

/-- Jobs are moved by their row ids. -/
def jobs : Mover RowId where
  call := .reassignJobs
  told := fun
    | (.reassignJobs dest ids, none) => some (dest, ids)
    | _ => none
  told_eq_some_iff := by
    rintro ⟨request, refused⟩ ⟨dest, ids⟩
    cases refused <;> cases request <;> simp
  told_weigh := fun _ _ => rfl

/-- Cache rows are moved by their job ids. -/
def rows : Mover String where
  call := .reassignCache
  told := fun
    | (.reassignCache dest jobIds, none) => some (dest, jobIds)
    | _ => none
  told_eq_some_iff := by
    rintro ⟨request, refused⟩ ⟨dest, jobIds⟩
    cases refused <;> cases request <;> simp
  told_weigh := fun _ _ => rfl

variable {ν : Type} (mover : Mover ν)

def moves (made : List Made) : List (Address × List ν) := made.filterMap mover.told

def Accepted (made : List Made) : Prop :=
  ∀ dest names text, (mover.call dest names, some text) ∉ made

variable {mover}

theorem Accepted.of_cons {one : Made} {rest : List Made} (accepted : mover.Accepted (one :: rest)) :
    mover.Accepted rest :=
  fun dest names text member => accepted dest names text (List.mem_cons_of_mem _ member)

theorem Accepted.of_append {first second : List Made} (accepted : mover.Accepted (first ++ second)) :
    mover.Accepted first ∧ mover.Accepted second :=
  ⟨fun dest names text member => accepted dest names text (List.mem_append_left _ member),
    fun dest names text member => accepted dest names text (List.mem_append_right _ member)⟩

theorem mem_moves {made : List Made} {dest : Address} {names : List ν} :
    (dest, names) ∈ mover.moves made ↔ (mover.call dest names, none) ∈ made := by
  simp [moves, List.mem_filterMap, mover.told_eq_some_iff]

theorem moves_append (first second : List Made) :
    mover.moves (first ++ second) = mover.moves first ++ mover.moves second :=
  List.filterMap_append

theorem moves_cons (one : Made) (rest : List Made) :
    mover.moves (one :: rest) = mover.moves [one] ++ mover.moves rest :=
  moves_append [one] rest

end Mover

/-! ## Jobs -/

/-- A job where calls moved it. -/
def Job.movedBy (job : Job) (made : List Made) : Job :=
  { job with owner := (newOwner (Mover.jobs.moves made) job.id).getD job.owner }

theorem Job.movedBy_append (job : Job) (first second : List Made) :
    job.movedBy (first ++ second) = (job.movedBy first).movedBy second := by
  simp [Job.movedBy, Mover.moves_append, newOwner_append]

theorem Job.movedBy_of_not_moved {job : Job} {made : List Made}
    (notMoved : job.id ∉ movedNames (Mover.jobs.moves made)) : job.movedBy made = job := by
  simp [Job.movedBy, newOwner_eq_none_iff.2 notMoved]

/-- No call marked a job. -/
def Unmarked (made : List Made) : Prop :=
  ∀ jobId status error, (.markJob jobId status error, none) ∉ made

private theorem afterMade_jobs (world : World) {one : Made} (unmarked : Unmarked [one]) :
    (world.afterMade one).jobs.rows = world.jobs.rows.map fun job => job.movedBy [one] := by
  obtain ⟨request, refused⟩ := one
  cases refused with
  | some text => cases request <;> exact (List.map_id _).symm
  | none =>
      cases request
      case markJob jobId status error =>
        exact absurd List.mem_cons_self (unmarked jobId status error)
      case reassignJobs dest ids =>
        refine List.map_congr_left fun job _ => ?_
        by_cases named : job.id ∈ ids <;> simp [Job.movedBy, Mover.moves, Mover.jobs, newOwner, named]
      all_goals exact (List.map_id _).symm

theorem World.replay_jobs {made : List Made} (unmarked : Unmarked made) (world : World) :
    (world.replay made).jobs.rows = world.jobs.rows.map fun job => job.movedBy made := by
  induction made generalizing world with
  | nil => exact (List.map_id _).symm
  | cons one rest inductionHypothesis =>
      have now : Unmarked [one] := fun jobId status error member =>
        unmarked jobId status error (List.mem_singleton.1 member ▸ List.mem_cons_self)
      have later : Unmarked rest := fun jobId status error member =>
        unmarked jobId status error (List.mem_cons_of_mem _ member)
      calc ((world.afterMade one).replay rest).jobs.rows
          = (world.afterMade one).jobs.rows.map fun job => job.movedBy rest :=
            inductionHypothesis later _
        _ = world.jobs.rows.map fun job => job.movedBy (one :: rest) := by
            rw [afterMade_jobs world now, List.map_map]
            exact List.map_congr_left fun job _ => (job.movedBy_append [one] rest).symm

theorem World.mem_replay_jobs {made : List Made} (unmarked : Unmarked made) {world : World}
    {job : Job} :
    job ∈ (world.replay made).jobs ↔ ∃ before ∈ world.jobs, before.movedBy made = job := by
  rw [Table.mem_def, World.replay_jobs unmarked, List.mem_map]
  rfl

/-! ## Cache rows -/

namespace CacheRow

/-- A cache row where calls moved it. -/
def movedBy (row : CacheRow) (made : List Made) : CacheRow :=
  { row with owner := (newOwner (Mover.rows.moves made) row.jobId).getD row.owner }

theorem movedBy_append (row : CacheRow) (first second : List Made) :
    row.movedBy (first ++ second) = (row.movedBy first).movedBy second := by
  simp [movedBy, Mover.moves_append, newOwner_append]

theorem movedBy_of_not_moved {row : CacheRow} {made : List Made}
    (notMoved : row.jobId ∉ movedNames (Mover.rows.moves made)) : row.movedBy made = row := by
  simp [movedBy, newOwner_eq_none_iff.2 notMoved]

/-- A call removed the row, by its job id or by its row id. -/
def RemovedBy (row : CacheRow) (made : List Made) : Prop :=
  (.deleteJob row.jobId, none) ∈ made ∨ (.deleteRow row.id, none) ∈ made

instance (row : CacheRow) (made : List Made) : Decidable (row.RemovedBy made) :=
  inferInstanceAs (Decidable (_ ∨ _))

theorem removedBy_append {row : CacheRow} {first second : List Made} :
    row.RemovedBy (first ++ second) ↔ row.RemovedBy first ∨ row.RemovedBy second := by
  simp only [RemovedBy, List.mem_append]
  tauto

/-- What calls leave of a cache row. -/
def fate (row : CacheRow) (made : List Made) : Option CacheRow :=
  if row.RemovedBy made then none else some (row.movedBy made)

theorem fate_eq_some_iff {row left : CacheRow} {made : List Made} :
    row.fate made = some left ↔ ¬ row.RemovedBy made ∧ row.movedBy made = left := by
  unfold fate
  split
  case isTrue removed => simp [removed]
  case isFalse stays => simp [stays]

theorem fate_append (row : CacheRow) (first second : List Made) :
    row.fate (first ++ second) = (row.fate first).bind fun left => left.fate second := by
  unfold fate
  by_cases removed : row.RemovedBy first
  · rw [if_pos (removedBy_append.2 (.inl removed)), if_pos removed]
    rfl
  · have same : row.RemovedBy (first ++ second) ↔ (row.movedBy first).RemovedBy second := by
      rw [removedBy_append]
      exact or_iff_right removed
    rw [if_neg removed, Option.bind_some]
    simp only [same, movedBy_append]

end CacheRow

private theorem afterMade_cache (world : World) (one : Made) :
    (world.afterMade one).cache.rows = world.cache.rows.filterMap fun row => row.fate [one] := by
  obtain ⟨request, refused⟩ := one
  cases refused with
  | some text =>
      refine Eq.trans List.filterMap_some.symm (List.filterMap_congr fun row _ => ?_)
      simp [CacheRow.fate, CacheRow.RemovedBy, CacheRow.movedBy, Mover.moves, Mover.rows, newOwner]
  | none =>
      cases request
      case reassignCache dest jobIds =>
        apply Eq.trans (congrFun List.filterMap_eq_map _).symm
        refine List.filterMap_congr fun row _ => ?_
        by_cases named : row.jobId ∈ jobIds <;>
          simp [CacheRow.fate, CacheRow.RemovedBy, CacheRow.movedBy, Mover.moves, Mover.rows, newOwner,
            named]
      case deleteJob jobId =>
        apply Eq.trans (congrFun List.filterMap_eq_filter _).symm
        refine List.filterMap_congr fun row _ => ?_
        by_cases same : row.jobId = jobId <;>
          simp [CacheRow.fate, CacheRow.RemovedBy, CacheRow.movedBy, Mover.moves, Mover.rows, newOwner,
            same]
      case deleteRow id =>
        apply Eq.trans (congrFun List.filterMap_eq_filter _).symm
        refine List.filterMap_congr fun row _ => ?_
        by_cases same : row.id = id <;>
          simp [CacheRow.fate, CacheRow.RemovedBy, CacheRow.movedBy, Mover.moves, Mover.rows,
            newOwner, key, same]
      all_goals exact List.filterMap_some.symm

theorem World.replay_cache (world : World) (made : List Made) :
    (world.replay made).cache.rows = world.cache.rows.filterMap fun row => row.fate made := by
  induction made generalizing world with
  | nil => exact List.filterMap_some.symm
  | cons one rest inductionHypothesis =>
      calc ((world.afterMade one).replay rest).cache.rows
          = (world.afterMade one).cache.rows.filterMap fun row => row.fate rest :=
            inductionHypothesis _
        _ = world.cache.rows.filterMap fun row => row.fate (one :: rest) := by
            rw [afterMade_cache, List.filterMap_filterMap]
            exact List.filterMap_congr fun row _ => (row.fate_append [one] rest).symm

theorem World.mem_replay_cache {made : List Made} {world : World} {row : CacheRow} :
    row ∈ (world.replay made).cache ↔ ∃ before ∈ world.cache, before.fate made = some row := by
  rw [Table.mem_def, World.replay_cache, List.mem_filterMap]
  rfl

end Handover
