import Handover.Proofs.JobRound

/-!
Contract: the job stage of a takeover, whichever calls are refused.

Owns: what the pages so far have taken from the dead node, and how the stage comes
out.

The pager reads a table that it changes: a row that has moved is no longer listed.
What carries the stage is that a row is moved only by the page that lists it, and
that later pages list only larger row ids.
-/

set_option autoImplicit false

namespace Handover.Takeover

open Coordinator (TaskId)

/-! ## The pages so far -/

/-- What the pages up to the row id `after` have taken from the node. -/
structure JobsTaken (world : World) (node : Address) (after : RowId) (made : List Made) : Prop where
  calls : ∀ one ∈ made, JobCall node (world.members.others node) one.1
  unbroken : ¬ Broke made
  unreset : (world.replay made).members = world.members
  distinct : (movedNames (Mover.jobs.moves made)).Nodup
  held : ∀ id ∈ movedNames (Mover.jobs.moves made),
    ∃ job ∈ world.jobs, job.id = id ∧ job.HeldBy node ∧ id ≤ after
  all : world.members.others node ≠ [] → Mover.jobs.Accepted made →
    ∀ job ∈ world.jobs, job.HeldBy node → job.id ≤ after →
      job.id ∈ movedNames (Mover.jobs.moves made)

namespace JobsTaken

variable {world : World} {node : Address} {after : RowId} {made : List Made}

/-- Before the first page nothing was taken. -/
theorem opening (inRange : ∀ job ∈ world.jobs, job.id.Resumable) :
    JobsTaken world node 0 [(.isAlive node, none)] where
  calls := by
    intro one member
    rw [List.mem_singleton.1 member]
    exact .isAlive
  unbroken := by simp
  unreset := rfl
  distinct := List.nodup_nil
  held := fun _ member => absurd member List.not_mem_nil
  all := fun _ _ job inside _ reached =>
    absurd (inRange job inside).1 (Fin.not_lt.2 reached)

/-- Jobs behind the last page are as they were. -/
theorem mem_replay_iff (taken : JobsTaken world node after made) {job : Job} (behind : after < job.id) :
    job ∈ (world.replay made).jobs ↔ job ∈ world.jobs := by
  have notMoved : ∀ other : Job, other.id = job.id → other.movedBy made = other := by
    intro other same
    refine Job.movedBy_of_not_moved fun moved => ?_
    obtain ⟨_, _, _, _, reached⟩ := taken.held _ moved
    rw [same] at reached
    exact absurd behind (Fin.not_lt.2 reached)
  rw [World.mem_replay_jobs (JobCall.unmarked taken.calls)]
  constructor
  · rintro ⟨before, member, moved⟩
    have same : before.id = job.id := moved ▸ rfl
    rw [notMoved before same] at moved
    exact moved ▸ member
  · exact fun member => ⟨job, member, notMoved job rfl⟩

/-- A further page takes its rows, and no others. -/
theorem page (taken : JobsTaken world node after made) (room : after < RowId.last) {pageSize : Nat}
    {last : Job} {more : List Made}
    (isLast : ((world.replay made).jobs.page after JobStatus.unfinished node pageSize).getLast? =
      some last)
    (hands : Hands Mover.jobs (world.members.others node)
      (((world.replay made).jobs.page after JobStatus.unfinished node pageSize).map Job.id) more) :
    JobsTaken world node last.id
      (made ++ (.pageJobs after node pageSize, none) :: (.aliveNodes, none) :: more) := by
  have moves : movedNames (Mover.jobs.moves
      (made ++ (.pageJobs after node pageSize, none) :: (.aliveNodes, none) :: more)) =
        movedNames (Mover.jobs.moves made) ++ movedNames (Mover.jobs.moves more) := by
    rw [Mover.moves_append, movedNames_append]
    rfl
  have listed : ∀ job ∈ (world.replay made).jobs.page after JobStatus.unfinished node pageSize,
      job ∈ world.jobs ∧ job.HeldBy node ∧ after < job.id ∧ job.id ≤ last.id := by
    intro job member
    obtain ⟨inside, reached, heldNow⟩ := Jobs.mem_page member
    have behind := (RowId.following_le_iff room).1 reached
    exact ⟨(taken.mem_replay_iff behind).1 inside, heldNow, behind,
      Jobs.le_last_of_mem_page isLast member⟩
  have afterLast : after < last.id := (listed last (List.mem_of_getLast? isLast)).2.2.1
  constructor
  case calls =>
    intro one member
    rcases List.mem_append.1 member with before | now
    · exact taken.calls one before
    rcases List.mem_cons.1 now with rfl | now
    · exact .page after pageSize
    rcases List.mem_cons.1 now with rfl | now
    · exact .aliveNodes
    · exact hands.jobCall node one now
  case unbroken =>
    simpa [taken.unbroken] using hands.not_broke fun _ _ => rfl
  case unreset =>
    rw [World.replay_append]
    exact (hands.keeps_members (fun _ _ _ => rfl) _).trans taken.unreset
  case distinct =>
    rw [moves]
    have pageIds : (((world.replay made).jobs.page after JobStatus.unfinished node pageSize).map
        Job.id).Nodup := Jobs.nodup_page_ids JobStatus.unfinished
    apply taken.distinct.append (hands.nodup pageIds)
    intro id before now
    obtain ⟨_, _, _, _, reached⟩ := taken.held id before
    obtain ⟨job, inPage, rfl⟩ := List.mem_map.1 (hands.named.subset now)
    exact absurd (listed job inPage).2.2.1 (Fin.not_lt.2 reached)
  case held =>
    intro id member
    rw [moves] at member
    rcases List.mem_append.1 member with before | now
    · obtain ⟨job, inside, same, heldThen, reached⟩ := taken.held id before
      exact ⟨job, inside, same, heldThen, Fin.le_trans reached (Fin.le_of_lt afterLast)⟩
    · obtain ⟨job, inPage, rfl⟩ := List.mem_map.1 (hands.named.subset now)
      obtain ⟨inside, heldNow, _, reached⟩ := listed job inPage
      exact ⟨job, inside, rfl, heldNow, reached⟩
  case all =>
    intro some accepted job inside heldThen reached
    obtain ⟨acceptedBefore, acceptedNow⟩ := accepted.of_append
    rw [moves, List.mem_append]
    rcases Fin.lt_or_le after job.id with behind | before
    · right
      have acceptedMore := acceptedNow.of_cons.of_cons
      refine (hands.all some acceptedMore).mem_iff.2 (List.mem_map_of_mem ?_)
      exact Jobs.mem_page_of_le isLast ((taken.mem_replay_iff behind).2 inside)
        ((RowId.following_le_iff room).2 behind) heldThen reached
    · exact .inl (taken.all some acceptedBefore job inside heldThen before)

end JobsTaken

/-! ## The whole stage -/

/-- What a job stage that does not break off has done, and what it tells of it. -/
structure JobsSettled (world : World) (node : Address) (tally : Tally) (made : List Made) : Prop where
  distinct : (movedNames (Mover.jobs.moves made)).Nodup
  held : ∀ id ∈ movedNames (Mover.jobs.moves made),
    ∃ job ∈ world.jobs, job.id = id ∧ job.HeldBy node
  all : world.members.others node ≠ [] → Mover.jobs.Accepted made →
    ∀ job ∈ world.jobs, job.HeldBy node → job.id ∈ movedNames (Mover.jobs.moves made)
  counted : tally.reassigned = (movedNames (Mover.jobs.moves made)).length
  notSkipped : tally.skippedAlive = false
  looked : tally.leftover = true ↔ ∃ job ∈ (world.replay made).jobs, job.HeldBy node
  reset : tally.leftover = true → (world.replay made).members.record? node = some .neverAlive

/-- How the job stage comes out. A stage that breaks off tells nothing of what it did. -/
inductive JobStage (world : World) (node : Address) : Tally → List Made → Prop
  | broke {made : List Made} (broke : Broke made)
      (calls : ∀ one ∈ made, JobCall node (world.members.others node) one.1) :
      JobStage world node {} made
  | settled {tally : Tally} {made : List Made} (unbroken : ¬ Broke made)
      (calls : ∀ one ∈ made, JobCall node (world.members.others node) one.1)
      (settled : JobsSettled world node tally made) : JobStage world node tally made

theorem JobStage.calls {world : World} {node : Address} {tally : Tally} {made : List Made}
    (stage : JobStage world node tally made) :
    ∀ one ∈ made, JobCall node (world.members.others node) one.1 := by
  cases stage with
  | broke _ calls => exact calls
  | settled _ calls _ => exact calls

section Stage

variable {world : World} {node : Address} {after : RowId} {made : List Made} {pageSize : Nat}

/-- The last look finds a job of the node if there is one at all. -/
theorem looked_iff (unmarked : Unmarked made) (inRange : ∀ job ∈ world.jobs, job.id.Resumable) :
    (world.replay made).jobs.page 0 JobStatus.unfinished node 1 ≠ [] ↔
      ∃ job ∈ (world.replay made).jobs, job.HeldBy node := by
  rw [ne_eq, Jobs.page_eq_nil_iff Nat.one_pos]
  push Not
  constructor
  · rintro ⟨job, member, _, heldNow⟩
    exact ⟨job, member, heldNow⟩
  · rintro ⟨job, member, heldNow⟩
    obtain ⟨before, inside, moved⟩ := (World.mem_replay_jobs unmarked).1 member
    have same : before.id = job.id := moved ▸ rfl
    exact ⟨job, member, (RowId.following_le_iff (by decide)).2 (same ▸ (inRange before inside).1),
      heldNow⟩

namespace JobsTaken

/-- An empty page means that every job of the node has been on a page before. -/
theorem settled (taken : JobsTaken world node after made) (positive : 0 < pageSize)
    (room : after < RowId.last)
    (empty : (world.replay made).jobs.page after JobStatus.unfinished node pageSize = [])
    {more : List Made} (noMoves : Mover.jobs.moves more = []) {tally : Tally}
    (counted : tally.reassigned = world.movedCount made) (notSkipped : tally.skippedAlive = false)
    (looked : tally.leftover = true ↔ ∃ job ∈ (world.replay (made ++ more)).jobs, job.HeldBy node)
    (reset : tally.leftover = true →
      (world.replay (made ++ more)).members.record? node = some .neverAlive) :
    JobsSettled world node tally (made ++ more) := by
  have moves : Mover.jobs.moves (made ++ more) = Mover.jobs.moves made := by
    rw [Mover.moves_append, noMoves, List.append_nil]
  have noneBehind : ∀ job ∈ world.jobs, job.HeldBy node → job.id ≤ after := by
    intro job inside heldThen
    refine Fin.not_lt.1 fun behind => ?_
    exact (Jobs.page_eq_nil_iff positive).1 empty job ((taken.mem_replay_iff behind).2 inside)
      ((RowId.following_le_iff room).2 behind) heldThen
  constructor
  case distinct => exact moves ▸ taken.distinct
  case held =>
    intro id member
    obtain ⟨job, inside, same, heldThen, _⟩ := taken.held id (moves ▸ member)
    exact ⟨job, inside, same, heldThen⟩
  case all =>
    intro some accepted job inside heldThen
    rw [moves]
    exact taken.all some accepted.of_append.1 job inside heldThen (noneBehind job inside heldThen)
  case counted =>
    rw [counted, moves]
    refine World.movedCount_of_jobs (JobCall.no_rows taken.calls) fun id member => ?_
    obtain ⟨job, inside, same, _⟩ := taken.held id member
    exact List.mem_map.2 ⟨job, inside, same⟩
  case notSkipped => exact notSkipped
  case looked => exact looked
  case reset => exact reset

end JobsTaken

/-- Where the stage stands between two rounds. -/
inductive JobProgress (world : World) (node : Address) : Progress → List Made → Prop
  | page {after : RowId} {tally : Tally} {made : List Made} (room : after < RowId.last)
      (taken : JobsTaken world node after made)
      (counted : tally = { reassigned := world.movedCount made }) :
      JobProgress world node (.jobPage after tally) made
  | ended {tally : Tally} {made : List Made} (stage : JobStage world node tally made) :
      JobProgress world node (.opened tally) made

/-- A round brings the stage forward. -/
theorem JobProgress.round (positive : 0 < pageSize)
    (inRange : ∀ job ∈ world.jobs, job.id.Resumable) {tally : Tally}
    (room : after < RowId.last) (taken : JobsTaken world node after made)
    (counted : tally = { reassigned := world.movedCount made })
    {result : Except Fault Progress} {more : List Made}
    (played : JobRound (world.replay made) pageSize node after tally result more) :
    match result with
    | .ok next => JobProgress world node next (made ++ more) ∧
        next.ahead < (Progress.jobPage after tally).ahead
    | .error _ => JobStage world node {} (made ++ more) := by
  have sameNodes : (world.replay made).members.others node = world.members.others node := by
    rw [taken.unreset]
  have ahead := Progress.ahead_jobPage_pos after tally
  have unmarked := JobCall.unmarked taken.calls
  have calls : ∀ one ∈ made ++ more, JobCall node (world.members.others node) one.1 := by
    intro one member
    rcases List.mem_append.1 member with before | now
    · exact taken.calls one before
    · exact sameNodes ▸ played.calls one now
  cases played with
  | broke fault broke _ => exact .broke (broke_append.2 (.inr broke)) calls
  | clear empty nothing =>
      have kept : world.replay (made ++ [(.pageJobs after node pageSize, none),
          (.pageJobs 0 node 1, none)]) = world.replay made := World.replay_append _ _ _
      refine ⟨.ended (.settled (by simp [taken.unbroken]) calls ?_), ahead⟩
      apply taken.settled positive room empty rfl (by rw [counted]) (by rw [counted])
      · rw [kept, ← looked_iff unmarked inRange]
        simp [counted, nothing]
      · simp [counted]
  | left empty something =>
      have replayed : world.replay (made ++ [(.pageJobs after node pageSize, none),
          (.pageJobs 0 node 1, none), (.reset node .neverAlive true, none)]) =
          { world.replay made with
            members := (world.replay made).members.set node .neverAlive } := World.replay_append _ _ _
      refine ⟨.ended (.settled (by simp [taken.unbroken]) calls ?_), ahead⟩
      apply taken.settled positive room empty rfl (by rw [counted]) (by rw [counted])
      · rw [replayed]
        exact iff_of_true rfl ((looked_iff unmarked inRange).1 something)
      · intro _
        rw [replayed]
        exact Membership.record?_set_self
  | @page last more isLast hands =>
      rw [sameNodes] at hands
      have further := taken.page room isLast hands
      obtain ⟨inside, reached, _⟩ := Jobs.mem_page (List.mem_of_getLast? isLast)
      have behind := (RowId.following_le_iff room).1 reached
      have known := (taken.mem_replay_iff behind).1 inside
      refine ⟨.page (inRange last known).2 further ?_, ?_⟩
      · rw [counted, World.movedCount_append]
        simp [World.movedCount, World.countMade, World.afterMade, World.carryOut]
      · have := Fin.lt_def.1 behind
        have bound := last.id.isLt
        simp only [Progress.ahead]
        omega

/-- Played to its end, the job stage comes out in one of its ways. -/
theorem jobStage_arrives (id : TaskId) (chances : Chances) (settings : Settings) {session : Session}
    (dead : session.world.members.isAlive node = false) (positive : 0 < settings.pageSize)
    (inRange : ∀ job ∈ session.world.jobs, job.id.Resumable) :
    Arrives id chances settings node .opening session fun progress made _ =>
      ∃ tally, progress = .opened tally ∧ JobStage session.world node tally made := by
  have opens : (Takeover.round settings node .opening).Leads id chances session
      fun next made after => JobProgress session.world node next made := by
    have asked : (openJobs node).run.Leads id chances session fun result made _ =>
        JobProgress session.world node (result.toOption.getD (.opened {})) made := by
      refine .attemptAsk rfl (fun fault text _ => ?_) fun weigher after _ => .done _ _ ?_
      · refine .ended (.broke (by simp [decides]) fun one member => ?_)
        rw [List.mem_singleton.1 member]
        exact .isAlive
      · change JobProgress session.world node (if session.world.members.isAlive node = true then
          _ else _) _
        rw [dead]
        exact .page (by decide) (.opening inRange) rfl
    apply (orElse_leads asked _).mono
    rintro next made after - (stands | ⟨rfl, fault, stands⟩)
    · exact stands
    · exact stands
  apply (Arrives.of_round opens).trans
  intro next made opened continues progress
  refine Arrives.of_invariant
    (fun progress made after => after.world = session.world.replay made ∧
      JobProgress session.world node progress made)
    (fun progress made _ => ∃ tally, progress = .opened tally ∧
      JobStage session.world node tally made) ?_ ⟨continues.world, progress⟩
  rintro progress made middle ⟨same, stands⟩
  cases stands with
  | ended stage => exact .inl ⟨_, rfl, stage⟩
  | page room taken counted =>
      right
      apply (orElse_leads (jobRound_leads _ _ _) _).mono
      intro next more after continuesMore outcome
      rw [same] at outcome
      have replayed : after.world = session.world.replay (made ++ more) := by
        rw [continuesMore.world, same, World.replay_append]
      rcases outcome with played | ⟨rfl, fault, played⟩
      · obtain ⟨stands, fewer⟩ := JobProgress.round positive inRange room taken counted played
        exact ⟨⟨replayed, stands⟩, fewer⟩
      · refine ⟨⟨replayed, .ended (JobProgress.round positive inRange room taken counted played)⟩, ?_⟩
        exact Progress.ahead_jobPage_pos _ _

end Stage

end Handover.Takeover
