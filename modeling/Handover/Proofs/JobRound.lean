import Handover.Proofs.Pages
import Handover.Proofs.Parting
import Handover.Proofs.Rounds

/-!
Contract: one round of the job stage, whichever calls are refused.

Owns: the calls of the stage and what they leave alone, and what a round comes to.
-/

set_option autoImplicit false

namespace Handover.Takeover

open Coordinator (TaskId)

inductive JobCall (node : Address) (nodes : List Address) : Call → Prop
  | isAlive : JobCall node nodes (.isAlive node)
  | page (after : RowId) (limit : Nat) : JobCall node nodes (.pageJobs after node limit)
  | aliveNodes : JobCall node nodes .aliveNodes
  | weigh (demand : Demand) : JobCall node nodes (.weigh demand)
  | reassign {dest : Address} (ids : List RowId) (among : dest ∈ nodes) :
      JobCall node nodes (.reassignJobs dest ids)
  | reset : JobCall node nodes (.reset node .neverAlive true)

theorem Hands.jobCall {nodes : List Address} {names : List RowId} {made : List Made}
    (hands : Hands Mover.jobs nodes names made) (node : Address) :
    ∀ one ∈ made, JobCall node nodes one.1 := by
  intro one member
  rcases hands.only one member with ⟨demand, same⟩ | ⟨dest, taken, same, among⟩
  · exact same ▸ .weigh demand
  · exact same ▸ .reassign taken among

/-! ## What the calls leave alone -/

section Frame

variable {node : Address} {nodes : List Address} {made : List Made}

theorem JobCall.unmarked (calls : ∀ one ∈ made, JobCall node nodes one.1) : Unmarked made := by
  intro jobId status error member
  cases calls _ member

theorem JobCall.no_rows (calls : ∀ one ∈ made, JobCall node nodes one.1) :
    Mover.rows.moves made = [] := by
  refine List.eq_nil_iff_forall_not_mem.2 fun move member => ?_
  cases calls _ (Mover.mem_moves.1 member)

theorem JobCall.newOwner_among (calls : ∀ one ∈ made, JobCall node nodes one.1) {id : RowId}
    {dest : Address} (moved : newOwner (Mover.jobs.moves made) id = some dest) : dest ∈ nodes := by
  obtain ⟨ids, member, _⟩ := exists_move_of_newOwner moved
  have call := calls _ (Mover.mem_moves.1 member)
  cases call with
  | reassign _ among => exact among

theorem JobCall.afterMade_cache {one : Made} (call : JobCall node nodes one.1) (world : World) :
    (world.afterMade one).cache = world.cache := by
  obtain ⟨request, refused⟩ := one
  cases refused <;> cases call <;> rfl

/-- The job stage leaves the cache as it is. -/
theorem JobCall.replay_cache (calls : ∀ one ∈ made, JobCall node nodes one.1) (world : World) :
    (world.replay made).cache = world.cache :=
  World.replay_keeps (fun other => other.cache = world.cache)
    (fun one member other same => ((calls one member).afterMade_cache other).trans same) rfl

/-- The node stays dead, and the others stay as alive as they are. -/
theorem JobCall.replay_members (calls : ∀ one ∈ made, JobCall node nodes one.1) {world : World}
    (dead : world.members.isAlive node = false) :
    (world.replay made).members.isAlive node = false ∧
      (world.replay made).members.others node = world.members.others node := by
  refine World.replay_keeps (fun other => other.members.isAlive node = false ∧
    other.members.others node = world.members.others node) ?_ ⟨dead, rfl⟩
  rintro ⟨request, refused⟩ member other ⟨deadStill, same⟩
  cases refused with
  | some text => exact ⟨deadStill, same⟩
  | none =>
      have call := calls _ member
      cases call with
      | reset => exact ⟨Membership.isAlive_set_self, (Membership.others_set_of_dead rfl).trans same⟩
      | _ => exact ⟨deadStill, same⟩

end Frame

/-! ## One round -/

/-- What a round of the job stage comes to. -/
inductive JobRound (world : World) (pageSize : Nat) (node : Address) (after : RowId)
    (tally : Tally) : Except Fault Progress → List Made → Prop
  | broke (fault : Fault) {made : List Made} (broke : Broke made)
      (calls : ∀ one ∈ made, JobCall node (world.members.others node) one.1) :
      JobRound world pageSize node after tally (.error fault) made
  | clear (empty : world.jobs.page after JobStatus.unfinished node pageSize = [])
      (nothing : world.jobs.page 0 JobStatus.unfinished node 1 = []) :
      JobRound world pageSize node after tally (.ok (.opened tally))
        [(.pageJobs after node pageSize, none), (.pageJobs 0 node 1, none)]
  | left (empty : world.jobs.page after JobStatus.unfinished node pageSize = [])
      (something : world.jobs.page 0 JobStatus.unfinished node 1 ≠ []) :
      JobRound world pageSize node after tally (.ok (.opened { tally with leftover := true }))
        [(.pageJobs after node pageSize, none), (.pageJobs 0 node 1, none),
          (.reset node .neverAlive true, none)]
  | page {last : Job} {made : List Made}
      (isLast : (world.jobs.page after JobStatus.unfinished node pageSize).getLast? = some last)
      (hands : Hands Mover.jobs (world.members.others node)
        ((world.jobs.page after JobStatus.unfinished node pageSize).map Job.id) made) :
      JobRound world pageSize node after tally
        (.ok (.jobPage last.id
          { tally with reassigned := tally.reassigned + world.movedCount made }))
        ((.pageJobs after node pageSize, none) :: (.aliveNodes, none) :: made)

theorem JobRound.calls {world : World} {pageSize : Nat} {node : Address} {after : RowId}
    {tally : Tally} {result : Except Fault Progress} {made : List Made}
    (played : JobRound world pageSize node after tally result made) :
    ∀ one ∈ made, JobCall node (world.members.others node) one.1 := by
  cases played with
  | broke fault broke calls => exact calls
  | clear empty nothing =>
      intro one member
      rcases List.mem_cons.1 member with rfl | member
      · exact .page after pageSize
      · rw [List.mem_singleton.1 member]
        exact .page 0 1
  | left empty something =>
      intro one member
      rcases List.mem_cons.1 member with rfl | member
      · exact .page after pageSize
      rcases List.mem_cons.1 member with rfl | member
      · exact .page 0 1
      · rw [List.mem_singleton.1 member]
        exact .reset
  | page isLast hands =>
      intro one member
      rcases List.mem_cons.1 member with rfl | member
      · exact .page after pageSize
      rcases List.mem_cons.1 member with rfl | member
      · exact .aliveNodes
      · exact hands.jobCall node one member

section Scripts

variable {id : TaskId} {chances : Chances} {pageSize : Nat} {node : Address}

theorem jobRound_leads (after : RowId) (tally : Tally) (session : Session) :
    (jobRound pageSize node after tally).run.Leads id chances session fun result made _ =>
      JobRound session.world pageSize node after tally result made := by
  unfold jobRound
  refine .attemptAsk rfl (fun fault text _ => ?_) fun weigher paged continuesPaged => ?_
  · refine .broke fault (by simp [decides]) fun one member => ?_
    rw [List.mem_singleton.1 member]
    exact .page after pageSize
  have samePaged : paged.world = session.world := continuesPaged.world
  have replied : (session.world.carryOut weigher (.pageJobs after node pageSize)).1 =
    session.world.jobs.page after JobStatus.unfinished node pageSize := rfl
  rw [replied]
  cases isLast : (session.world.jobs.page after JobStatus.unfinished node pageSize).getLast? with
  | none =>
    have empty := List.getLast?_eq_none_iff.1 isLast
    refine .attemptAsk rfl (fun fault text _ => ?_) fun weigher looked continuesLooked => ?_
    · refine .broke fault (by simp [decides]) fun one member => ?_
      rcases List.mem_cons.1 member with rfl | member
      · exact .page after pageSize
      · rw [List.mem_singleton.1 member]
        exact .page 0 1
    change Script.Leads id chances (ExceptT.run (if
      (paged.world.jobs.page 0 JobStatus.unfinished node 1).isEmpty = true then _ else _)) _ _
    rw [samePaged]
    split
    case isTrue nothing => exact .done _ _ (.clear empty (List.isEmpty_iff.1 nothing))
    case isFalse something =>
      refine .attemptAsk rfl (fun fault text _ => ?_) fun weigher after _ => ?_
      · refine .broke fault (by simp [decides]) fun one member => ?_
        rcases List.mem_cons.1 member with rfl | member
        · exact .page after pageSize
        rcases List.mem_cons.1 member with rfl | member
        · exact .page 0 1
        · rw [List.mem_singleton.1 member]
          exact .reset
      · exact .done _ _ (.left empty fun nothing => something (List.isEmpty_iff.2 nothing))
  | some last =>
    apply Script.Leads.attempt destinations_leads
    · rintro fault made after ⟨text, rfl⟩
      refine .broke fault (by simp [decides]) fun one member => ?_
      rcases List.mem_cons.1 member with rfl | member
      · exact .page _ pageSize
      · rw [List.mem_singleton.1 member]
        exact .aliveNodes
    rintro nodes made asked continuesAsked ⟨rfl, others⟩
    have sameAsked : asked.world = session.world := continuesAsked.world.trans samePaged
    rw [samePaged] at others
    refine .attemptOf (moveKind_leads .cron _ nodes asked) ?_
    rintro cron cronMade afterCron continuesCron ⟨handsCron, countedCron⟩
    refine .attemptOf (moveKind_leads .backfill _ nodes afterCron) ?_
    rintro backfill backfillMade afterBackfill continuesBackfill ⟨handsBackfill, countedBackfill⟩
    refine .done _ _ ?_
    have counted : cron + backfill = session.world.movedCount (cronMade ++ backfillMade) := by
      rw [World.movedCount_append, countedCron, countedBackfill, continuesCron.world, sameAsked]
    have hands := (handsCron.append handsBackfill).perm (idsOfKind_perm _)
    rw [others] at hands
    rw [Nat.add_assoc, counted, List.append_nil]
    exact .page isLast hands

end Scripts

end Handover.Takeover
