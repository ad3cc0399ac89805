import Handover.Proofs.Pages
import Handover.Proofs.Parting
import Handover.Proofs.Rounds

/-!
Contract: one round of the cache stage, whichever calls are refused.

Owns: the calls of the stage and what they leave alone, and what a round comes to.

A row is listed by its owner and its row id, but moved and removed by its job id.
A round deals with the unreadable rows of its page first, and only then asks who
is alive; a refusal of that question breaks the round off with rows removed.
-/

set_option autoImplicit false

namespace Handover

namespace CacheRow

variable {row : CacheRow} {one : Submission}

theorem read_eq_ok (read : row.read = .ok one) : row.namesNoJob = false ∧ one.jobId = row.jobId := by
  unfold CacheRow.read at read
  split at read
  case isTrue => cases read
  case isFalse named =>
    split at read
    · cases read
    · cases read
      exact ⟨by simpa using named, rfl⟩

end CacheRow

/-- No two rows share a job id that names a job. -/
def Cache.Distinct (cache : Cache) : Prop :=
  ∀ row ∈ cache, ∀ other ∈ cache, row.namesNoJob = false → row.jobId = other.jobId → row = other

namespace Takeover

open Coordinator (TaskId)

/-! ## Readable rows -/

theorem mem_readable {page : List CacheRow} {one : Submission} :
    one ∈ readable page ↔ ∃ row ∈ page, row.read = .ok one := by
  simp only [readable, List.mem_filterMap]
  refine exists_congr fun row => and_congr_right fun _ => ?_
  cases row.read <;> simp [Except.toOption]

theorem readable_jobIds_sublist (page : List CacheRow) :
    ((readable page).map Submission.jobId).Sublist
      ((page.filter fun row => !row.namesNoJob).map CacheRow.jobId) := by
  induction page with
  | nil => exact .slnil
  | cons row page inductionHypothesis =>
      cases read : row.read with
      | error flaw =>
          have skipped : readable (row :: page) = readable page := by
            simp [readable, read, Except.toOption]
          rw [skipped]
          exact inductionHypothesis.trans
            (((List.sublist_cons_self row page).filter fun row => !row.namesNoJob).map CacheRow.jobId)
      | ok one =>
          obtain ⟨named, same⟩ := CacheRow.read_eq_ok read
          have taken : readable (row :: page) = one :: readable page := by
            simp [readable, read, Except.toOption]
          rw [taken, List.filter_cons_of_pos (by simp [named]), List.map_cons, List.map_cons, same]
          exact inductionHypothesis.cons_cons _

/-! ## Calls -/

/-- The calls of the cache stage, where it deals with rows among `rows`. -/
inductive CacheCall (node : Address) (nodes : List Address) (rows : CacheRow → Prop) : Call → Prop
  | isAlive : CacheCall node nodes rows (.isAlive node)
  | page (after : RowId) (limit : Nat) :
      CacheCall node nodes rows (.pageCache after node none none limit)
  | aliveNodes : CacheCall node nodes rows .aliveNodes
  | weigh (demand : Demand) : CacheCall node nodes rows (.weigh demand)
  | flaw {request : Call} (call : FlawCall rows request) : CacheCall node nodes rows request
  | reassign {dest : Address} (jobIds : List String) (among : dest ∈ nodes) :
      CacheCall node nodes rows (.reassignCache dest jobIds)
  | reset : CacheCall node nodes rows (.reset node .neverAlive true)

theorem CacheCall.mono {node : Address} {nodes : List Address} {rows others : CacheRow → Prop}
    {request : Call} (call : CacheCall node nodes rows request)
    (among : ∀ row, rows row → others row) : CacheCall node nodes others request := by
  cases call with
  | isAlive => exact .isAlive
  | page after limit => exact .page after limit
  | aliveNodes => exact .aliveNodes
  | weigh demand => exact .weigh demand
  | flaw call => exact .flaw (call.mono among)
  | reassign jobIds among => exact .reassign jobIds among
  | reset => exact .reset

theorem Hands.cacheCall {nodes : List Address} {names : List String} {made : List Made}
    (hands : Hands Mover.rows nodes names made) (node : Address) (rows : CacheRow → Prop) :
    ∀ one ∈ made, CacheCall node nodes rows one.1 := by
  intro one member
  rcases hands.only one member with ⟨demand, same⟩ | ⟨dest, taken, same, among⟩
  · exact same ▸ .weigh demand
  · exact same ▸ .reassign taken among

section Frame

variable {node : Address} {nodes : List Address} {rows : CacheRow → Prop} {made : List Made}

theorem CacheCall.no_jobs (calls : ∀ one ∈ made, CacheCall node nodes rows one.1) :
    Mover.jobs.moves made = [] := by
  refine List.eq_nil_iff_forall_not_mem.2 fun move member => ?_
  have call := calls _ (Mover.mem_moves.1 member)
  cases call with
  | flaw call => cases call

theorem CacheCall.newOwner_among (calls : ∀ one ∈ made, CacheCall node nodes rows one.1)
    {jobId : String} {dest : Address}
    (moved : newOwner (Mover.rows.moves made) jobId = some dest) : dest ∈ nodes := by
  obtain ⟨jobIds, member, _⟩ := exists_move_of_newOwner moved
  have call := calls _ (Mover.mem_moves.1 member)
  cases call with
  | reassign _ among => exact among
  | flaw call => cases call

/-- The node stays dead, and the others stay as alive as they are. -/
theorem CacheCall.replay_members (calls : ∀ one ∈ made, CacheCall node nodes rows one.1)
    {world : World} (dead : world.members.isAlive node = false) :
    (world.replay made).members.isAlive node = false ∧
      (world.replay made).members.others node = world.members.others node := by
  refine World.replay_keeps (fun other => other.members.isAlive node = false ∧
    other.members.others node = world.members.others node) ?_ ⟨dead, rfl⟩
  rintro ⟨request, refused⟩ member other ⟨deadStill, same⟩
  cases refused with
  | some text => exact ⟨deadStill, same⟩
  | none =>
      have call := calls _ member
      cases call with
      | reset => exact ⟨Membership.isAlive_set_self, (Membership.others_set_of_dead rfl).trans same⟩
      | flaw call => cases call <;> exact ⟨deadStill, same⟩
      | _ => exact ⟨deadStill, same⟩

theorem CacheCall.deletes (calls : ∀ one ∈ made, CacheCall node nodes rows one.1) {jobId : String}
    (deleted : (.deleteJob jobId, none) ∈ made) :
    ∃ row flaw, rows row ∧ row.read = .error flaw ∧ row.namesNoJob = false ∧ row.jobId = jobId := by
  have call := calls _ deleted
  cases call with
  | flaw call => exact call.of_deleteJob

theorem CacheCall.drops (calls : ∀ one ∈ made, CacheCall node nodes rows one.1) {id : RowId}
    (dropped : (.deleteRow id, none) ∈ made) :
    ∃ row, rows row ∧ row.namesNoJob = true ∧ row.id = id := by
  have call := calls _ dropped
  cases call with
  | flaw call => exact call.of_deleteRow

theorem CacheCall.marks (calls : ∀ one ∈ made, CacheCall node nodes rows one.1) {jobId error : String}
    {status : JobStatus} (marked : (.markJob jobId status error, none) ∈ made) :
    ∃ row flaw moment, rows row ∧ row.read = .error flaw ∧ row.namesNoJob = false ∧
      row.jobId = jobId ∧ status = .submitFailed ∧
        error = failureText moment row.jobId (flawDetail row flaw) := by
  have call := calls _ marked
  cases call with
  | flaw call => exact call.of_markJob

end Frame

/-! ## One round -/

/-- What a round of the cache stage comes to. -/
inductive CacheRound (world : World) (pageSize : Nat) (node : Address) (jobs : Tally)
    (after : RowId) (tally : Tally) : Except Fault Progress → List Made → Prop
  | broke (fault : Fault) {made : List Made} (broke : Broke made)
      (calls : ∀ one ∈ made, CacheCall node (world.members.others node)
        (· ∈ world.cache.page after node none none pageSize) one.1)
      (noMoves : Mover.rows.moves made = []) :
      CacheRound world pageSize node jobs after tally (.error fault) made
  | clear (empty : world.cache.page after node none none pageSize = [])
      (nothing : world.cache.page 0 node none none 1 = []) :
      CacheRound world pageSize node jobs after tally (.ok (.closing jobs tally))
        [(.pageCache after node none none pageSize, none), (.pageCache 0 node none none 1, none)]
  | left (empty : world.cache.page after node none none pageSize = [])
      (something : world.cache.page 0 node none none 1 ≠ []) :
      CacheRound world pageSize node jobs after tally
        (.ok (.closing jobs { tally with leftover := true }))
        [(.pageCache after node none none pageSize, none), (.pageCache 0 node none none 1, none),
          (.reset node .neverAlive true, none)]
  | page {last : CacheRow} {dealt handed : List Made}
      (isLast : (world.cache.page after node none none pageSize).getLast? = some last)
      (deals : DealsWithAll (world.cache.page after node none none pageSize) dealt)
      (hands : Hands Mover.rows (world.members.others node)
        ((readable (world.cache.page after node none none pageSize)).map Submission.jobId) handed)
      {made : List Made} (all : made = (.pageCache after node none none pageSize, none) ::
        (dealt ++ (.aliveNodes, none) :: handed)) :
      CacheRound world pageSize node jobs after tally
        (.ok (.cachePage jobs last.id
          { tally with
            reassigned := tally.reassigned + world.movedCount made
            failed := tally.failed + dealtCount made })) made

theorem DealsWithAll.no_moves {page : List CacheRow} {made : List Made}
    (deals : DealsWithAll page made) : Mover.jobs.moves made = [] ∧ Mover.rows.moves made = [] := by
  constructor
  · refine List.eq_nil_iff_forall_not_mem.2 fun move member => ?_
    cases deals.call _ (Mover.mem_moves.1 member)
  · refine List.eq_nil_iff_forall_not_mem.2 fun move member => ?_
    cases deals.call _ (Mover.mem_moves.1 member)

/-- Of the calls of a round with a page only the last ones move rows. -/
theorem DealsWithAll.page_moves {page : List CacheRow} {dealt : List Made}
    (deals : DealsWithAll page dealt) {after : RowId} {node : Address} {pageSize : Nat}
    {handed : List Made} :
    Mover.rows.moves ((.pageCache after node none none pageSize, none) ::
      (dealt ++ (.aliveNodes, none) :: handed)) = Mover.rows.moves handed := by
  rw [← List.singleton_append, Mover.moves_append, Mover.moves_append, deals.no_moves.2]
  rfl

theorem DealsWithAll.keeps_members {page : List CacheRow} {made : List Made}
    (deals : DealsWithAll page made) (world : World) :
    (world.replay made).members = world.members := by
  refine World.replay_keeps (fun other => other.members = world.members) ?_ rfl
  rintro ⟨request, refused⟩ member other same
  cases refused with
  | some text => exact same
  | none =>
      have call := deals.call _ member
      cases call <;> exact same

theorem Hands.no_rows_dealt_with {ν : Type} {mover : Mover ν} {nodes : List Address}
    {names : List ν} {made : List Made} (hands : Hands mover nodes names made)
    (moverCall : ∀ dest taken refused, dealtCount [(mover.call dest taken, refused)] = 0) :
    droppedIds made = [] ∧ markedNames made = [] := by
  have noneDealt : dealtCount made = 0 := by
    have only := hands.only
    clear hands
    induction made with
    | nil => rfl
    | cons one rest inductionHypothesis =>
        rw [← List.singleton_append, dealtCount_append,
          inductionHypothesis fun other member => only other (List.mem_cons_of_mem _ member)]
        obtain ⟨request, refused⟩ := one
        rcases only _ List.mem_cons_self with ⟨demand, same⟩ | ⟨dest, taken, same, _⟩
        · cases same
          rfl
        · cases same
          exact moverCall dest taken refused
  exact ⟨List.eq_nil_of_length_eq_zero (by unfold dealtCount at noneDealt; omega),
    List.eq_nil_of_length_eq_zero (by unfold dealtCount at noneDealt; omega)⟩

section PageCalls

variable {after : RowId} {node : Address} {pageSize : Nat} {dealt handed : List Made}

/-- Of the calls of a round with a page only those for unreadable rows drop rows. -/
theorem page_dropped (noDrops : droppedIds handed = []) :
    droppedIds ((.pageCache after node none none pageSize, none) ::
      (dealt ++ (.aliveNodes, none) :: handed)) = droppedIds dealt := by
  rw [← List.singleton_append, droppedIds_append, droppedIds_append,
    ← List.singleton_append (l := handed), droppedIds_append, noDrops]
  simp [droppedIds]

/-- Of the calls of a round with a page only those for unreadable rows mark jobs. -/
theorem page_marked (noMarks : markedNames handed = []) :
    markedNames ((.pageCache after node none none pageSize, none) ::
      (dealt ++ (.aliveNodes, none) :: handed)) = markedNames dealt := by
  rw [← List.singleton_append, markedNames_append, markedNames_append,
    ← List.singleton_append (l := handed), markedNames_append, noMarks]
  simp [markedNames]

theorem page_dealtCount (noDrops : droppedIds handed = []) (noMarks : markedNames handed = []) :
    dealtCount ((.pageCache after node none none pageSize, none) ::
      (dealt ++ (.aliveNodes, none) :: handed)) = dealtCount dealt := by
  rw [dealtCount, page_dropped noDrops, page_marked noMarks, dealtCount]

/-- The rows that a round with a page moves are those that its last calls move. -/
theorem DealsWithAll.page_movedCount {page : List CacheRow} (deals : DealsWithAll page dealt)
    (world : World) :
    world.movedCount ((.pageCache after node none none pageSize, none) ::
      (dealt ++ (.aliveNodes, none) :: handed)) = (world.replay dealt).movedCount handed := by
  rw [← List.singleton_append, World.movedCount_append, World.movedCount_append,
    ← List.singleton_append (l := handed), World.movedCount_append,
    World.movedCount_eq_zero deals.no_moves.1 deals.no_moves.2]
  simp [World.movedCount, World.countMade, World.afterMade, World.carryOut]

end PageCalls

theorem CacheRound.calls {world : World} {pageSize : Nat} {node : Address} {jobs tally : Tally}
    {after : RowId} {result : Except Fault Progress} {made : List Made}
    (played : CacheRound world pageSize node jobs after tally result made) :
    ∀ one ∈ made, CacheCall node (world.members.others node)
      (· ∈ world.cache.page after node none none pageSize) one.1 := by
  cases played with
  | broke fault broke calls noMoves => exact calls
  | clear empty nothing =>
      intro one member
      rcases List.mem_cons.1 member with rfl | member
      · exact .page after pageSize
      · rw [List.mem_singleton.1 member]
        exact .page 0 1
  | left empty something =>
      intro one member
      rcases List.mem_cons.1 member with rfl | member
      · exact .page after pageSize
      rcases List.mem_cons.1 member with rfl | member
      · exact .page 0 1
      · rw [List.mem_singleton.1 member]
        exact .reset
  | page isLast deals hands all =>
      subst all
      intro one member
      rcases List.mem_cons.1 member with rfl | member
      · exact .page after pageSize
      rcases List.mem_append.1 member with inDealt | member
      · exact .flaw (deals.call one inDealt)
      rcases List.mem_cons.1 member with rfl | member
      · exact .aliveNodes
      · exact hands.cacheCall node _ one member

/-- A round moves readable rows of its page. -/
theorem CacheRound.moved {world : World} {pageSize : Nat} {node : Address} {jobs tally : Tally}
    {after : RowId} {result : Except Fault Progress} {made : List Made}
    (played : CacheRound world pageSize node jobs after tally result made) {name : String}
    (moved : name ∈ movedNames (Mover.rows.moves made)) :
    ∃ row ∈ world.cache.page after node none none pageSize, ∃ one,
      row.read = .ok one ∧ row.jobId = name := by
  cases played with
  | broke fault broke calls noMoves =>
      rw [noMoves] at moved
      exact absurd moved List.not_mem_nil
  | clear empty nothing => exact absurd moved List.not_mem_nil
  | left empty something => exact absurd moved List.not_mem_nil
  | @page last dealt handed isLast deals hands made all =>
      subst all
      rw [deals.page_moves] at moved
      obtain ⟨one, inPage, rfl⟩ := List.mem_map.1 (hands.named.subset moved)
      obtain ⟨row, member, read⟩ := mem_readable.1 inPage
      exact ⟨row, member, one, read, (CacheRow.read_eq_ok read).2.symm⟩

/-- Calls that only ask neither move a row nor deal with one. -/
theorem quiet_of_asks {made : List Made} (asks : ∀ one ∈ made, decides one.1 = true) :
    Mover.jobs.moves made = [] ∧ Mover.rows.moves made = [] ∧
      droppedIds made = [] ∧ markedNames made = [] := by
  refine ⟨List.eq_nil_iff_forall_not_mem.2 fun move member => ?_,
    List.eq_nil_iff_forall_not_mem.2 fun move member => ?_,
    List.eq_nil_iff_forall_not_mem.2 fun id member => ?_,
    List.eq_nil_iff_forall_not_mem.2 fun jobId member => ?_⟩
  · cases asks _ (Mover.mem_moves.1 member)
  · cases asks _ (Mover.mem_moves.1 member)
  · cases asks _ (mem_droppedIds.1 member)
  · obtain ⟨status, error, marked⟩ := mem_markedNames.1 member
    cases asks _ marked

section Scripts

variable {id : TaskId} {chances : Chances} {pageSize : Nat} {node : Address}

theorem cacheRound_leads (jobs : Tally) (after : RowId) (tally : Tally) (session : Session) :
    (cacheRound pageSize node jobs after tally).run.Leads id chances session fun result made _ =>
      CacheRound session.world pageSize node jobs after tally result made := by
  unfold cacheRound
  refine .attemptAsk rfl (fun fault text _ => ?_) fun weigher paged continuesPaged => ?_
  · refine .broke fault (by simp [decides]) (fun one member => ?_) rfl
    rw [List.mem_singleton.1 member]
    exact .page after pageSize
  have samePaged : paged.world = session.world := continuesPaged.world
  have replied : (session.world.carryOut weigher (.pageCache after node none none pageSize)).1 =
    session.world.cache.page after node none none pageSize := rfl
  rw [replied]
  cases isLast : (session.world.cache.page after node none none pageSize).getLast? with
  | none =>
    have empty := List.getLast?_eq_none_iff.1 isLast
    refine .attemptAsk rfl (fun fault text _ => ?_) fun weigher looked continuesLooked => ?_
    · refine .broke fault (by simp [decides]) (fun one member => ?_) rfl
      rcases List.mem_cons.1 member with rfl | member
      · exact .page after pageSize
      · rw [List.mem_singleton.1 member]
        exact .page 0 1
    change Script.Leads id chances (ExceptT.run (if
      (paged.world.cache.page 0 node none none 1).isEmpty = true then _ else _)) _ _
    rw [samePaged]
    split
    case isTrue nothing => exact .done _ _ (.clear empty (List.isEmpty_iff.1 nothing))
    case isFalse something =>
      refine .attemptAsk rfl (fun fault text _ => ?_) fun weigher after _ => ?_
      · refine .broke fault (by simp [decides]) (fun one member => ?_) rfl
        rcases List.mem_cons.1 member with rfl | member
        · exact .page after pageSize
        rcases List.mem_cons.1 member with rfl | member
        · exact .page 0 1
        · rw [List.mem_singleton.1 member]
          exact .reset
      · exact .done _ _ (.left empty fun nothing => something (List.isEmpty_iff.2 nothing))
  | some last =>
    refine .attemptOf (dealWithFlaws_leads _ paged) ?_
    rintro count dealt dealtWith continuesDealt ⟨deals, counted⟩
    apply Script.Leads.attempt destinations_leads
    · rintro fault made after ⟨text, rfl⟩
      refine .broke fault (by simp [decides]) (fun one member => ?_) ?_
      · rcases List.mem_cons.1 member with rfl | member
        · exact .page _ pageSize
        rcases List.mem_append.1 member with inDealt | member
        · exact .flaw (deals.call one inDealt)
        · rw [List.mem_singleton.1 member]
          exact .aliveNodes
      · rw [← List.singleton_append, Mover.moves_append, Mover.moves_append, deals.no_moves.2]
        rfl
    rintro nodes made asked continuesAsked ⟨rfl, others⟩
    have sameNodes : nodes = session.world.members.others node := by
      rw [others, continuesDealt.world, samePaged, deals.keeps_members]
    have sameAsked : asked.world = session.world.replay dealt := by
      rw [continuesAsked.world, continuesDealt.world, samePaged]
      rfl
    refine .attemptOf (moveGroups_leads _ nodes _ asked) ?_
    rintro queued queuedMade afterQueued continuesQueued ⟨handsQueued, countedQueued⟩
    refine .attemptOf (moveSubmitted_leads _ nodes afterQueued) ?_
    rintro submitted submittedMade afterSubmitted continuesSubmitted ⟨handsSubmitted, countedSubmitted⟩
    have hands := (handsQueued.append handsSubmitted).perm (parts_perm _)
    rw [sameNodes] at hands
    have moved : queued + submitted = session.world.movedCount
        ((.pageCache after node none none pageSize, none) ::
          (dealt ++ (.aliveNodes, none) :: (queuedMade ++ submittedMade))) := by
      rw [deals.page_movedCount, World.movedCount_append, countedQueued, countedSubmitted,
        continuesQueued.world, sameAsked]
    obtain ⟨noDrops, noMarks⟩ := hands.no_rows_dealt_with fun _ _ refused => by
      cases refused <;> rfl
    have dealtAll : count = dealtCount
        ((.pageCache after node none none pageSize, none) ::
          (dealt ++ (.aliveNodes, none) :: (queuedMade ++ submittedMade))) := by
      rw [page_dealtCount noDrops noMarks, counted]
    refine .done _ _ ?_
    rw [Nat.add_assoc, moved, dealtAll, List.append_nil]
    exact .page isLast deals hands rfl

end Scripts

end Takeover

end Handover
