import Handover.Proofs.CacheStage
import Handover.Proofs.Marks

/-!
Contract: what the cache stage of a takeover does to the rows of the cache, where no
two rows share a job id.

Owns: the account of a cache stage in terms of the rows and the jobs before and
after it, for a stage that gets an answer to every question it asks. Moves,
removals and marks may be refused, on any page and in any pattern.

Where rows share job ids they share what becomes of them, which is the matter of
`Handover.Proofs.SharedIds`.
-/

set_option autoImplicit false

namespace Handover

namespace CacheRow

/-- The row names a job, and its stage has a known code. -/
def Converts (row : CacheRow) : Prop := row.namesNoJob = false ∧ (row.stage = 1 ∨ row.stage = 2)

instance (row : CacheRow) : Decidable row.Converts := inferInstanceAs (Decidable (_ ∧ _))

theorem converts_iff {row : CacheRow} : row.Converts ↔ ∃ one, row.read = .ok one := by
  unfold Converts CacheRow.read Stage.ofCode?
  cases row.namesNoJob with
  | true => simp
  | false =>
      by_cases queued : row.stage = 1
      · simp [queued]
      · by_cases submitted : row.stage = 2
        · simp [submitted]
        · simp [queued, submitted]

theorem not_converts_iff {row : CacheRow} : ¬ row.Converts ↔ ∃ flaw, row.read = .error flaw := by
  rw [converts_iff]
  cases row.read <;> simp

/-- Every call that deals with the unreadable row was accepted. -/
def DealtWithBy (row : CacheRow) (made : List Made) : Prop :=
  if row.namesNoJob then (.deleteRow row.id, none) ∈ made
  else (.deleteJob row.jobId, none) ∈ made ∧ row.jobId ∈ markedNames made

instance (row : CacheRow) (made : List Made) : Decidable (row.DealtWithBy made) := by
  unfold DealtWithBy
  infer_instance

theorem DealtWithBy.removed {row : CacheRow} {made : List Made} (dealt : row.DealtWithBy made) :
    row.RemovedBy made := by
  unfold DealtWithBy at dealt
  split at dealt
  · exact .inr dealt
  · exact .inl dealt.1

end CacheRow

namespace Takeover

open Coordinator (TaskId)

/-- What became of the rows of `node`, told from the stores before and after. -/
structure RowsReclaimed (before after : World) (node : Address) (tally : Tally)
    (made : List Made) : Prop where
  known : ∀ row ∈ after.cache, ∃ old ∈ before.cache, old.id = row.id
  /-- A row of another node is as it was. -/
  foreign : ∀ row ∈ before.cache, row.owner ≠ node → row ∈ after.cache
  /-- A readable row is as it was but for its owner. -/
  handed : ∀ row ∈ before.cache, row.owner = node → row.Converts →
    ∃ owner, { row with owner := owner } ∈ after.cache ∧
      (owner = node ∨ before.members.isAlive owner = true ∧ owner ≠ node)
  countedMoved : tally.reassigned = before.cache.rows.countP fun row =>
    decide (row.owner = node ∧ row.Converts ∧
      ∃ now ∈ after.cache.rows, now.id = row.id ∧ now.owner ≠ node)
  /-- An unreadable row is removed, or is as it was. -/
  unreadable : ∀ row ∈ before.cache, row.owner = node → ¬ row.Converts →
    row ∈ after.cache ∨ ∀ now ∈ after.cache, now.id ≠ row.id
  /-- An unreadable row that was dealt with is removed. -/
  dealtWith : ∀ row ∈ before.cache, row.owner = node → ¬ row.Converts → row.DealtWithBy made →
    ∀ now ∈ after.cache, now.id ≠ row.id
  countedDealt : tally.failed = before.cache.rows.countP fun row =>
    decide (row.owner = node ∧ ¬ row.Converts ∧ row.DealtWithBy made)
  jobIds : after.jobs.rows.map Job.id = before.jobs.rows.map Job.id
  /-- A job changes only if it is the first with the job id of an unreadable row that
  was dealt with, and then it takes the failure of that row. -/
  jobs : ∀ job ∈ before.jobs, job ∈ after.jobs ∨
    before.jobs.findJob? job.jobId = some job ∧ ∃ row ∈ before.cache, ∃ flaw moment,
      row.owner = node ∧ row.read = .error flaw ∧ row.namesNoJob = false ∧
        row.jobId = job.jobId ∧ row.DealtWithBy made ∧
          { job with
            status := .submitFailed
            error := some (failureText moment row.jobId (flawDetail row flaw)) } ∈ after.jobs
  /-- Such a job does change. -/
  failed : ∀ row ∈ before.cache, row.owner = node → ¬ row.Converts → row.namesNoJob = false →
    row.DealtWithBy made → ∀ job, before.jobs.findJob? row.jobId = some job →
      ∃ flaw moment, row.read = .error flaw ∧
        { job with
          status := .submitFailed
          error := some (failureText moment row.jobId (flawDetail row flaw)) } ∈ after.jobs
  looked : tally.leftover = true ↔ ∃ row ∈ after.cache, row.owner = node
  reset : tally.leftover = true → after.members.record? node = some .neverAlive

section Distinct

variable {world : World} {node : Address} {after : RowId} {made : List Made}

/-- Where names are distinct, a row with a moved name is one that the page listed. -/
theorem RowsTaken.of_moved (taken : RowsTaken world node after made)
    (distinct : world.cache.Distinct) {row : CacheRow} (inside : row ∈ world.cache)
    (moved : row.jobId ∈ movedNames (Mover.rows.moves made)) : row.owner = node ∧ row.Converts := by
  obtain ⟨other, one, listable, read, same⟩ := taken.moved row.jobId moved
  obtain rfl := distinct other listable.1 row inside (CacheRow.read_eq_ok read).1 same
  exact ⟨listable.2.1, CacheRow.converts_iff.2 ⟨one, read⟩⟩

/-- Where names are distinct, a removed row is an unreadable one of the node. -/
theorem RowsTaken.of_removed (taken : RowsTaken world node after made)
    (distinct : world.cache.Distinct) {row : CacheRow} (inside : row ∈ world.cache)
    (removed : row.RemovedBy made) : row.owner = node ∧ ¬ row.Converts := by
  rcases removed with byName | byId
  · obtain ⟨other, flaw, listable, read, named, same⟩ := CacheCall.deletes taken.calls byName
    obtain rfl := distinct other listable.1 row inside named same
    exact ⟨listable.2.1, CacheRow.not_converts_iff.2 ⟨flaw, read⟩⟩
  · obtain ⟨other, listable, nameless, same⟩ := CacheCall.drops taken.calls byId
    obtain rfl := Table.eq_of_key_eq listable.1 inside same
    exact ⟨listable.2.1, fun converts => by cases nameless.symm.trans converts.1⟩

/-- A marked job id is that of one unreadable row of the node. -/
theorem RowsTaken.of_marked (taken : RowsTaken world node after made)
    (distinct : world.cache.Distinct) {row : CacheRow} (inside : row ∈ world.cache)
    {status : JobStatus} {error : String} (marked : (.markJob row.jobId status error, none) ∈ made) :
    row.owner = node ∧ row.namesNoJob = false ∧ status = .submitFailed ∧ ∃ flaw moment,
      row.read = .error flaw ∧ error = failureText moment row.jobId (flawDetail row flaw) := by
  obtain ⟨other, flaw, moment, listable, read, named, same, rfl, rfl⟩ :=
    CacheCall.marks taken.calls marked
  obtain rfl := distinct other listable.1 row inside named same
  exact ⟨listable.2.1, named, rfl, flaw, moment, read, rfl⟩

theorem RowsTaken.nameless (taken : RowsTaken world node after made) {row : CacheRow}
    (inside : row ∈ world.cache) (member : row.id ∈ droppedIds made) : row.namesNoJob = true := by
  obtain ⟨other, listable, nameless, same⟩ := CacheCall.drops taken.calls (mem_droppedIds.1 member)
  exact Table.eq_of_key_eq listable.1 inside same ▸ nameless

theorem RowsTaken.named (taken : RowsTaken world node after made) (distinct : world.cache.Distinct)
    {row : CacheRow} (inside : row ∈ world.cache) (member : row.jobId ∈ markedNames made) :
    row.namesNoJob = false := by
  obtain ⟨status, error, call⟩ := mem_markedNames.1 member
  exact (taken.of_marked distinct inside call).2.1

/-- Where names are distinct, a moved name is that of one row, which stays in the cache. -/
theorem RowsTaken.sole (taken : RowsTaken world node after made) (distinct : world.cache.Distinct)
    {name : String} (moved : name ∈ movedNames (Mover.rows.moves made)) :
    ∃ row, row.jobId = name ∧ world.cache.Sole row ∧ ¬ row.RemovedBy made := by
  obtain ⟨row, one, listable, read, rfl⟩ := taken.moved name moved
  have named := (CacheRow.read_eq_ok read).1
  refine ⟨row, rfl, ⟨listable.1, fun other inside same =>
    (distinct row listable.1 other inside named same.symm).symm⟩, fun removed => ?_⟩
  exact (taken.of_removed distinct listable.1 removed).2 (CacheRow.converts_iff.2 ⟨one, read⟩)

end Distinct

/-- A row with the id of an earlier one is what calls left of it. -/
theorem eq_movedBy_of_id {world : World} {made : List Made} {row now : CacheRow}
    (inside : row ∈ world.cache) (member : now ∈ (world.replay made).cache) (same : now.id = row.id) :
    ¬ row.RemovedBy made ∧ now = row.movedBy made := by
  obtain ⟨before, beforeIn, fated⟩ := World.mem_replay_cache.1 member
  obtain ⟨stays, rfl⟩ := CacheRow.fate_eq_some_iff.1 fated
  obtain rfl : before = row := Table.eq_of_key_eq beforeIn inside same
  exact ⟨stays, rfl⟩

theorem movedBy_mem {world : World} {made : List Made} {row : CacheRow} (inside : row ∈ world.cache)
    (stays : ¬ row.RemovedBy made) : row.movedBy made ∈ (world.replay made).cache :=
  World.mem_replay_cache.2 ⟨row, inside, CacheRow.fate_eq_some_iff.2 ⟨stays, rfl⟩⟩

private theorem countP_split {α : Type} (rows : List α) (first second : α → Bool)
    (apart : ∀ row ∈ rows, first row = true → second row = false) :
    rows.countP (fun row => first row || second row) = rows.countP first + rows.countP second := by
  induction rows with
  | nil => rfl
  | cons row rows inductionHypothesis =>
      have here := apart row List.mem_cons_self
      have later := inductionHypothesis fun other member => apart other (List.mem_cons_of_mem _ member)
      simp only [List.countP_cons, later]
      cases isFirst : first row with
      | true => simp [here isFirst]; omega
      | false => simp; omega

section Accounts

variable {world : World} {node : Address} {made : List Made}

/-- The moved rows are those that left the node. -/
theorem RowsTaken.countedMoved (taken : RowsTaken world node RowId.last made)
    (distinct : world.cache.Distinct) :
    world.movedCount made = world.cache.rows.countP fun row =>
      decide (row.owner = node ∧ row.Converts ∧
        ∃ now ∈ (world.replay made).cache.rows, now.id = row.id ∧ now.owner ≠ node) := by
  have movedOnce := taken.movedOnce distinct
  rw [World.movedCount_of_rows (CacheCall.no_jobs taken.calls)
    (fun move member => (List.nodup_flatMap.1 movedOnce).1 move member)
    (fun name moved => taken.sole distinct moved),
    ← countP_contains_eq_length CacheRow.jobId
      world.cache.nodup_rows movedOnce]
  · refine List.countP_congr fun row inside => ?_
    rw [List.contains_iff_mem, decide_eq_true_iff]
    constructor
    · intro moved
      obtain ⟨owned, converts⟩ := taken.of_moved distinct inside moved
      refine ⟨owned, converts, row.movedBy made, movedBy_mem inside fun removed =>
        (taken.of_removed distinct inside removed).2 converts, rfl, ?_⟩
      cases moves : newOwner (Mover.rows.moves made) row.jobId with
      | none => exact absurd moved (newOwner_eq_none_iff.1 moves)
      | some dest =>
          simpa [CacheRow.movedBy, moves] using
            (Membership.mem_others.1 (CacheCall.newOwner_among taken.calls moves)).2
    · rintro ⟨owned, _, now, nowIn, same, left⟩
      obtain ⟨_, rfl⟩ := eq_movedBy_of_id inside nowIn same
      by_contra notMoved
      rw [CacheRow.movedBy_of_not_moved notMoved] at left
      exact left owned
  · intro name moved
    obtain ⟨row, same, ⟨inside, only⟩, _⟩ := taken.sole distinct moved
    exact ⟨row, inside, same, fun other otherIn sameOther =>
      only other otherIn (sameOther.trans same.symm)⟩

/-- A row whose drop or mark was accepted is an unreadable one that was dealt with. -/
theorem RowsTaken.dealtWith_iff (taken : RowsTaken world node RowId.last made)
    (distinct : world.cache.Distinct) {row : CacheRow} (inside : row ∈ world.cache) :
    row.id ∈ droppedIds made ∨ row.jobId ∈ markedNames made ↔
      row.owner = node ∧ ¬ row.Converts ∧ row.DealtWithBy made := by
  constructor
  · intro member
    have dealt : row.DealtWithBy made := by
      rcases member with byId | byName
      · rw [CacheRow.DealtWithBy, if_pos (taken.nameless inside byId)]
        exact mem_droppedIds.1 byId
      · rw [CacheRow.DealtWithBy, taken.named distinct inside byName]
        exact ⟨taken.deleted _ byName, byName⟩
    obtain ⟨owned, unread⟩ := taken.of_removed distinct inside dealt.removed
    exact ⟨owned, unread, dealt⟩
  · rintro ⟨_, _, dealt⟩
    unfold CacheRow.DealtWithBy at dealt
    split at dealt
    · exact .inl (mem_droppedIds.2 dealt)
    · exact .inr dealt.2

/-- The rows dealt with are those of which every call was accepted. -/
theorem RowsTaken.countedDealt (taken : RowsTaken world node RowId.last made)
    (distinct : world.cache.Distinct) :
    dealtCount made = world.cache.rows.countP fun row =>
      decide (row.owner = node ∧ ¬ row.Converts ∧ row.DealtWithBy made) := by
  have rows : world.cache.rows.Nodup := world.cache.nodup_rows
  have dropped : world.cache.rows.countP (fun row => (droppedIds made).contains row.id) =
      (droppedIds made).length := by
    refine countP_contains_eq_length CacheRow.id rows taken.droppedOnce fun id member => ?_
    obtain ⟨row, listable, _, rfl⟩ := CacheCall.drops taken.calls (mem_droppedIds.1 member)
    exact ⟨row, listable.1, rfl, fun other inside same => Table.eq_of_key_eq inside listable.1 same⟩
  have marked : world.cache.rows.countP (fun row => (markedNames made).contains row.jobId) =
      (markedNames made).length := by
    refine countP_contains_eq_length CacheRow.jobId rows (taken.markedOnce distinct)
      fun jobId member => ?_
    obtain ⟨status, error, call⟩ := mem_markedNames.1 member
    obtain ⟨row, _, _, listable, _, named, rfl, _⟩ := CacheCall.marks taken.calls call
    exact ⟨row, listable.1, rfl, fun other inside same =>
      (distinct row listable.1 other inside named same.symm).symm⟩
  rw [dealtCount, ← dropped, ← marked, ← countP_split]
  · refine List.countP_congr fun row inside => ?_
    rw [Bool.or_eq_true, List.contains_iff_mem, List.contains_iff_mem, decide_eq_true_iff]
    exact taken.dealtWith_iff distinct inside
  · intro row inside byId
    rw [List.contains_iff_mem] at byId
    rw [← Bool.not_eq_true, List.contains_iff_mem]
    intro byName
    cases (taken.nameless inside byId).symm.trans (taken.named distinct inside byName)

theorem RowsSettled.reclaimed {tally : Tally} (settled : RowsSettled world node tally made)
    (distinct : world.cache.Distinct) : RowsReclaimed world (world.replay made) node tally made := by
  have taken := settled.taken
  have marked := World.replay_jobs_marked (CacheCall.no_jobs taken.calls) world
  constructor
  case known =>
    intro row member
    obtain ⟨before, inside, fated⟩ := World.mem_replay_cache.1 member
    obtain ⟨_, rfl⟩ := CacheRow.fate_eq_some_iff.1 fated
    exact ⟨before, inside, rfl⟩
  case foreign =>
    intro row inside notOwned
    have notMoved := fun moved => notOwned (taken.of_moved distinct inside moved).1
    have stays := fun removed => notOwned (taken.of_removed distinct inside removed).1
    exact CacheRow.movedBy_of_not_moved notMoved ▸ movedBy_mem inside stays
  case handed =>
    intro row inside owned converts
    have stays : ¬ row.RemovedBy made := fun removed =>
      (taken.of_removed distinct inside removed).2 converts
    refine ⟨_, movedBy_mem inside stays, ?_⟩
    cases moves : newOwner (Mover.rows.moves made) row.jobId with
    | none => exact .inl (by simpa using owned)
    | some dest =>
        exact .inr (Membership.mem_others.1 (CacheCall.newOwner_among taken.calls moves))
  case countedMoved => exact settled.countedMoved.trans (taken.countedMoved distinct)
  case unreadable =>
    intro row inside _ unread
    by_cases removed : row.RemovedBy made
    · exact .inr fun now member same => (eq_movedBy_of_id inside member same).1 removed
    · have notMoved := fun moved => unread (taken.of_moved distinct inside moved).2
      exact .inl (CacheRow.movedBy_of_not_moved notMoved ▸ movedBy_mem inside removed)
  case dealtWith =>
    intro row inside _ _ dealt now member same
    exact (eq_movedBy_of_id inside member same).1 dealt.removed
  case countedDealt => exact settled.countedDealt.trans (taken.countedDealt distinct)
  case jobIds =>
    rw [marked, List.map_map]
    exact List.map_congr_left fun job _ => Job.markedBy_id
  case jobs =>
    intro job inside
    have now : job.markedBy world.jobs made ∈ (world.replay made).jobs :=
      Table.mem_def.2 (marked ▸ List.mem_map_of_mem inside)
    rcases Job.markedBy_cases world.jobs made job with
      same | ⟨first, status, error, call, changed⟩
    · exact .inl (same ▸ now)
    · obtain ⟨row, flaw, moment, listable, read, named, same, rfl, rfl⟩ :=
        CacheCall.marks taken.calls call
      have byName : row.jobId ∈ markedNames made := same ▸ mem_markedNames.2 ⟨_, _, call⟩
      refine .inr ⟨first, row, listable.1, flaw, moment, listable.2.1, read, named, same, ?_,
        changed ▸ now⟩
      rw [CacheRow.DealtWithBy, named]
      exact ⟨taken.deleted _ byName, byName⟩
  case failed =>
    intro row inside _ _ named dealt job first
    rw [CacheRow.DealtWithBy, named] at dealt
    have jobInside := (Jobs.findJob?_jobId first).1
    obtain ⟨status, error, last⟩ := exists_lastMark dealt.2
    obtain ⟨_, _, rfl, flaw, moment, read, rfl⟩ :=
      taken.of_marked distinct inside (mem_of_lastMark last)
    refine ⟨flaw, moment, read, Table.mem_def.2 ?_⟩
    rw [marked, ← Job.markedBy_of_first first last]
    exact List.mem_map_of_mem jobInside
  case looked => exact settled.looked
  case reset => exact settled.reset

end Accounts

/-- The cache stage conserves the rows, sets aside the unreadable ones and accounts for
both, whichever moves, removals and marks are refused. Where no removal is refused only
readable rows stay, and where no move is refused either and there is someone to go to,
no row stays. -/
theorem rows_reclaimed (id : TaskId) (chances : Chances) (settings : Settings) (node : Address)
    (jobs : Tally) (session : Session) (dead : session.world.members.isAlive node = false)
    (positive : 0 < settings.pageSize) (inRange : ∀ row ∈ session.world.cache, row.id.Resumable)
    (distinct : session.world.cache.Distinct) (answered : Answered chances) :
    ∃ tally made after,
      Reaches id chances settings node (.opened jobs) session (.closing jobs tally) after ∧
      after.calls = session.calls ++ made ∧
      RowsReclaimed session.world after.world node tally made ∧
      ((∀ turn, (∀ row, (chances turn).refused (.deleteRow row) = none) ∧
          ∀ jobId, (chances turn).refused (.deleteJob jobId) = none) →
        (∀ row ∈ after.world.cache, row.owner = node → row.Converts) ∧
        ((∃ other, session.world.members.isAlive other = true ∧ other ≠ node) →
          (∀ turn dest jobIds, (chances turn).refused (.reassignCache dest jobIds) = none) →
            ∀ row ∈ after.world.cache, row.owner ≠ node)) := by
  obtain ⟨_, made, after, reaches, continues, tally, rfl, stage⟩ :=
    cacheStage_arrives id chances settings jobs dead positive inRange
  refine ⟨tally, made, after, reaches, continues.calls, ?_⟩
  cases stage with
  | broke broke _ => exact absurd broke (answered.not_broke continues)
  | settled unbroken settled =>
      rw [continues.world]
      refine ⟨settled.reclaimed distinct, ?_⟩
      intro unrefused
      have removals : RemovalsAccepted made :=
        ⟨fun id => continues.accepted fun turn => (unrefused turn).1 id,
          fun jobId => continues.accepted fun turn => (unrefused turn).2 jobId⟩
      refine ⟨fun row member owned => ?_, ?_⟩
      · by_contra unread
        refine settled.taken.hindered member owned ⟨removals, fun reads => ?_⟩
        exact absurd (CacheRow.converts_iff.2 reads) unread
      · rintro ⟨other, alive, apart⟩ unrefusedMoves row member owned
        have someone : session.world.members.others node ≠ [] :=
          List.ne_nil_of_mem (Membership.mem_others.2 ⟨alive, apart⟩)
        have accepted : Mover.rows.Accepted made := fun dest jobIds text =>
          continues.accepted (fun turn => unrefusedMoves turn dest jobIds) text
        exact settled.taken.hindered member owned ⟨removals, fun _ => ⟨someone, accepted⟩⟩

/-- Three rows of a dead node, of which one can be read, and a node that is alive. -/
private def mixedRows : World :=
  { World.initial with
    members := .ofList [(⟨"b:1"⟩, .heardAt ⟨0, 0⟩ 1)]
    cache := .ofList
      [⟨1, "j", ⟨"a:1"⟩, 1, none⟩, ⟨2, "k", ⟨"a:1"⟩, 7, none⟩, ⟨3, "", ⟨"a:1"⟩, 1, none⟩] }

/-- The readable row is moved and the other two are removed. -/
theorem rows_reclaimed_from_three :
    ∃ tally made after,
      Reaches 0 .calm default ⟨"a:1"⟩ (.opened {}) (.opening (.initial default mixedRows))
        (.closing {} tally) after ∧
      after.calls = [] ++ made ∧
      RowsReclaimed mixedRows after.world ⟨"a:1"⟩ tally made ∧
      ∀ row ∈ after.world.cache, row.owner ≠ ⟨"a:1"⟩ := by
  have inRange : ∀ row ∈ mixedRows.cache, row.id.Resumable := by
    have decided : ∀ row ∈ mixedRows.cache.rows, row.id.Resumable := by decide
    exact decided
  have distinct : mixedRows.cache.Distinct := by
    have decided : ∀ row ∈ mixedRows.cache.rows, ∀ other ∈ mixedRows.cache.rows,
        row.namesNoJob = false → row.jobId = other.jobId → row = other := by decide
    exact decided
  obtain ⟨tally, made, after, reaches, told, reclaimed, stay⟩ :=
    rows_reclaimed 0 .calm default ⟨"a:1"⟩ {} (.opening (.initial default mixedRows))
      (by decide) (by decide) inRange distinct fun _ _ _ => rfl
  exact ⟨tally, made, after, reaches, told, reclaimed,
    (stay fun _ => ⟨fun _ => rfl, fun _ => rfl⟩).2 ⟨⟨"b:1"⟩, by decide, by decide⟩ fun _ _ _ => rfl⟩

end Takeover

end Handover
