import Handover.Proofs.CacheRound

/-!
Contract: the cache stage of a takeover, whichever calls are refused.

Owns: what the pages so far have done with the rows of the dead node, and how the
stage comes out.

A row may be moved or removed before its page comes, by a row with its job id. So a
page lists neither all rows of the node nor only new names. What carries the stage
is that a row that is still the node's was never moved and never removed.
-/

set_option autoImplicit false

namespace Handover.Takeover

open Coordinator (TaskId)

/-- A row of the node that lies no further than `after`. -/
def Listable (world : World) (node : Address) (after : RowId) (row : CacheRow) : Prop :=
  row ∈ world.cache ∧ row.owner = node ∧ row.id ≤ after

/-- Nothing that the row calls for was refused: removals, and for a readable row moves,
which need someone to go to. -/
structure Unhindered (world : World) (node : Address) (row : CacheRow) (made : List Made) : Prop where
  removals : RemovalsAccepted made
  moves : (∃ one, row.read = .ok one) →
    world.members.others node ≠ [] ∧ Mover.rows.Accepted made

theorem Unhindered.of_append {world : World} {node : Address} {row : CacheRow}
    {first second : List Made} (unhindered : Unhindered world node row (first ++ second)) :
    Unhindered world node row first ∧ Unhindered world node row second := by
  obtain ⟨removals, moves⟩ := unhindered
  exact ⟨⟨removals.of_append.1, fun reads => ⟨(moves reads).1, (moves reads).2.of_append.1⟩⟩,
    ⟨removals.of_append.2, fun reads => ⟨(moves reads).1, (moves reads).2.of_append.2⟩⟩⟩

/-- What the pages up to the row id `after` have done with the rows of the node. -/
structure RowsTaken (world : World) (node : Address) (after : RowId) (made : List Made) : Prop where
  calls : ∀ one ∈ made,
    CacheCall node (world.members.others node) (Listable world node after) one.1
  moved : ∀ name ∈ movedNames (Mover.rows.moves made),
    ∃ row one, Listable world node after row ∧ row.read = .ok one ∧ row.jobId = name
  settled : ∀ row, Listable world node after row → Unhindered world node row made →
    row.jobId ∈ movedNames (Mover.rows.moves made) ∨ row.RemovedBy made
  deleted : ∀ jobId ∈ markedNames made, (.deleteJob jobId, none) ∈ made
  droppedOnce : (droppedIds made).Nodup
  movedOnce : world.cache.Distinct → (movedNames (Mover.rows.moves made)).Nodup
  markedOnce : world.cache.Distinct → (markedNames made).Nodup

/-- Where rows are only moved away from the node, those that are still its own are those
that calls left alone. -/
theorem mem_replay_cache_iff_of_owned {world : World} {node : Address} {made : List Made}
    (away : ∀ jobId dest, newOwner (Mover.rows.moves made) jobId = some dest → dest ≠ node)
    {row : CacheRow} (owned : row.owner = node) :
    row ∈ (world.replay made).cache ↔
      row ∈ world.cache ∧ row.jobId ∉ movedNames (Mover.rows.moves made) ∧ ¬ row.RemovedBy made := by
  rw [World.mem_replay_cache]
  constructor
  · rintro ⟨before, inside, fated⟩
    obtain ⟨stays, rfl⟩ := CacheRow.fate_eq_some_iff.1 fated
    cases moves : newOwner (Mover.rows.moves made) before.jobId with
    | none =>
        have notMoved := newOwner_eq_none_iff.1 moves
        rw [CacheRow.movedBy_of_not_moved notMoved]
        exact ⟨inside, notMoved, stays⟩
    | some dest =>
        simp only [CacheRow.movedBy, moves, Option.getD_some] at owned
        exact absurd owned (away before.jobId dest moves)
  · rintro ⟨inside, notMoved, stays⟩
    exact ⟨row, inside,
      CacheRow.fate_eq_some_iff.2 ⟨stays, CacheRow.movedBy_of_not_moved notMoved⟩⟩

theorem CacheCall.mem_replay_iff {world : World} {node : Address} {rows : CacheRow → Prop}
    {made : List Made}
    (calls : ∀ one ∈ made, CacheCall node (world.members.others node) rows one.1) {row : CacheRow}
    (owned : row.owner = node) :
    row ∈ (world.replay made).cache ↔
      row ∈ world.cache ∧ row.jobId ∉ movedNames (Mover.rows.moves made) ∧ ¬ row.RemovedBy made :=
  mem_replay_cache_iff_of_owned (fun _ _ moved =>
    (Membership.mem_others.1 (CacheCall.newOwner_among calls moved)).2) owned

namespace RowsTaken

variable {world : World} {node : Address} {after : RowId} {made : List Made} {pageSize : Nat}

/-- A page lists rows of the node as they were, behind the page before. -/
theorem listed (taken : RowsTaken world node after made) (room : after < RowId.last) {last : CacheRow}
    (isLast : ((world.replay made).cache.page after node none none pageSize).getLast? = some last)
    {row : CacheRow} (member : row ∈ (world.replay made).cache.page after node none none pageSize) :
    Listable world node last.id row ∧ after < row.id := by
  obtain ⟨inside, reached, owned⟩ := Cache.mem_page member
  have before := ((CacheCall.mem_replay_iff taken.calls owned).1 inside).1
  exact ⟨⟨before, owned, Cache.le_last_of_mem_page isLast member⟩,
    (RowId.following_le_iff room).1 reached⟩

/-- The names of a page are distinct, if those of the cache are. -/
theorem nodup_named (taken : RowsTaken world node after made) (distinct : world.cache.Distinct)
    (pageSize : Nat) :
    ((((world.replay made).cache.page after node none none pageSize).filter
      fun row => !row.namesNoJob).map CacheRow.jobId).Nodup := by
  have rows : ((world.replay made).cache.page after node none none pageSize).Nodup :=
    List.Nodup.of_map _ Cache.nodup_page_ids
  refine List.Nodup.map_on ?_ (rows.filter _)
  intro row inRow other inOther same
  obtain ⟨member, named⟩ := List.mem_filter.1 inRow
  have inside : ∀ one, one ∈ (world.replay made).cache.page after node none none pageSize →
      one ∈ world.cache := by
    intro one listed
    obtain ⟨now, _, owned⟩ := Cache.mem_page listed
    exact ((CacheCall.mem_replay_iff taken.calls owned).1 now).1
  exact distinct row (inside row member) other (inside other (List.mem_filter.1 inOther).1)
    (by simpa using named) same

/-- A name that was used before is not among the names of a further page, if names
are distinct. -/
theorem fresh (taken : RowsTaken world node after made) (distinct : world.cache.Distinct)
    (room : after < RowId.last) {row : CacheRow} (before : Listable world node after row)
    (named : row.namesNoJob = false) (pageSize : Nat)
    (listed : row.jobId ∈ (((world.replay made).cache.page after node none none pageSize).filter
      fun row => !row.namesNoJob).map CacheRow.jobId) : False := by
  obtain ⟨other, inOther, same⟩ := List.mem_map.1 listed
  obtain ⟨now, reached, owned⟩ := Cache.mem_page (List.mem_filter.1 inOther).1
  have inside := ((CacheCall.mem_replay_iff taken.calls owned).1 now).1
  obtain rfl := distinct row before.1 other inside named same.symm
  exact absurd ((RowId.following_le_iff room).1 reached) (Fin.not_lt.2 before.2.2)

/-- The rows of the node up to the last of a further page were dealt with before, or
are on it. -/
theorem listed_or_settled (taken : RowsTaken world node after made) (room : after < RowId.last)
    {last : CacheRow}
    (isLast : ((world.replay made).cache.page after node none none pageSize).getLast? = some last)
    {row : CacheRow} (listable : Listable world node last.id row)
    (unhindered : Unhindered world node row made) :
    (row.jobId ∈ movedNames (Mover.rows.moves made) ∨ row.RemovedBy made) ∨
      row ∈ (world.replay made).cache.page after node none none pageSize := by
  obtain ⟨inside, owned, reached⟩ := listable
  rcases Fin.lt_or_le after row.id with behind | before
  · by_cases moved : row.jobId ∈ movedNames (Mover.rows.moves made)
    · exact .inl (.inl moved)
    by_cases removed : row.RemovedBy made
    · exact .inl (.inr removed)
    have now := (CacheCall.mem_replay_iff taken.calls owned).2 ⟨inside, moved, removed⟩
    exact .inr (Cache.mem_page_of_le isLast now ((RowId.following_le_iff room).2 behind) owned reached)
  · exact .inl (taken.settled row ⟨inside, owned, before⟩ unhindered)

section Page

variable {rows : List CacheRow} {last : CacheRow} {dealt handed : List Made}

/-- A row that nothing hinders is moved or removed by the calls up to its page. -/
theorem page_settled (taken : RowsTaken world node after made) (room : after < RowId.last)
    (listing : (world.replay made).cache.page after node none none pageSize = rows)
    (isLast : rows.getLast? = some last) (deals : DealsWithAll rows dealt)
    (hands : Hands Mover.rows (world.members.others node)
      ((readable rows).map Submission.jobId) handed)
    {row : CacheRow} (listable : Listable world node last.id row)
    (unhindered : Unhindered world node row (made ++
      (.pageCache after node none none pageSize, none) :: (dealt ++ (.aliveNodes, none) :: handed))) :
    row.jobId ∈ movedNames (Mover.rows.moves made) ++ movedNames (Mover.rows.moves handed) ∨
      row.RemovedBy (made ++ (.pageCache after node none none pageSize, none) ::
        (dealt ++ (.aliveNodes, none) :: handed)) := by
  subst listing
  obtain ⟨unhinderedBefore, unhinderedNow⟩ := unhindered.of_append
  rw [← List.singleton_append] at unhinderedNow
  obtain ⟨unhinderedDealt, unhinderedHanded⟩ := unhinderedNow.of_append.2.of_append
  rw [List.mem_append, CacheRow.removedBy_append, ← List.singleton_append,
    CacheRow.removedBy_append, CacheRow.removedBy_append]
  rcases taken.listed_or_settled room isLast listable unhinderedBefore
    with (moved | removed) | member
  · exact .inl (.inl moved)
  · exact .inr (.inl removed)
  · cases read : row.read with
    | error flaw =>
        have removed := deals.removed unhinderedDealt.removals member read
        exact .inr (.inr (.inr (.inl removed)))
    | ok one =>
        obtain ⟨someone, accepted⟩ := unhinderedHanded.moves ⟨one, read⟩
        have named : row.jobId ∈ (readable ((world.replay made).cache.page after node none none
            pageSize)).map Submission.jobId :=
          List.mem_map.2 ⟨one, mem_readable.2 ⟨row, member, read⟩, (CacheRow.read_eq_ok read).2⟩
        exact .inl (.inr ((hands.all someone accepted.of_cons).mem_iff.2 named))

theorem page_droppedOnce (taken : RowsTaken world node after made) (room : after < RowId.last)
    (listing : (world.replay made).cache.page after node none none pageSize = rows)
    (isLast : rows.getLast? = some last) (deals : DealsWithAll rows dealt) :
    (droppedIds made ++ droppedIds dealt).Nodup := by
  subst listing
  have pageIds : (((world.replay made).cache.page after node none none pageSize).map
      CacheRow.id).Nodup := Cache.nodup_page_ids
  apply taken.droppedOnce.append (pageIds.sublist deals.droppedIds_sublist)
  intro id before now
  obtain ⟨row, listable, _, rfl⟩ := CacheCall.drops taken.calls (mem_droppedIds.1 before)
  obtain ⟨other, inPage, same⟩ := List.mem_map.1 (deals.droppedIds_sublist.subset now)
  exact absurd (taken.listed room isLast inPage).2 (Fin.not_lt.2 (same ▸ listable.2.2))

theorem page_movedOnce (taken : RowsTaken world node after made) (distinct : world.cache.Distinct)
    (room : after < RowId.last)
    (listing : (world.replay made).cache.page after node none none pageSize = rows)
    (hands : Hands Mover.rows (world.members.others node)
      ((readable rows).map Submission.jobId) handed) :
    (movedNames (Mover.rows.moves made) ++ movedNames (Mover.rows.moves handed)).Nodup := by
  subst listing
  have names := taken.nodup_named distinct pageSize
  refine (taken.movedOnce distinct).append
    (hands.nodup (names.sublist (readable_jobIds_sublist _))) ?_
  intro name before now
  obtain ⟨row, one, listable, read, rfl⟩ := taken.moved name before
  apply taken.fresh distinct room listable (CacheRow.read_eq_ok read).1 pageSize
  exact (readable_jobIds_sublist _).subset (hands.named.subset now)

theorem page_markedOnce (taken : RowsTaken world node after made) (distinct : world.cache.Distinct)
    (room : after < RowId.last)
    (listing : (world.replay made).cache.page after node none none pageSize = rows)
    (deals : DealsWithAll rows dealt) : (markedNames made ++ markedNames dealt).Nodup := by
  subst listing
  have names := taken.nodup_named distinct pageSize
  apply (taken.markedOnce distinct).append (names.sublist deals.markedNames_sublist)
  intro name before now
  obtain ⟨status, error, marked⟩ := mem_markedNames.1 before
  obtain ⟨row, _, _, listable, _, named, rfl, _⟩ := CacheCall.marks taken.calls marked
  exact taken.fresh distinct room listable named pageSize (deals.markedNames_sublist.subset now)

/-- A further page deals with its rows, and with no others. -/
theorem page (taken : RowsTaken world node after made) (room : after < RowId.last)
    (isLast : ((world.replay made).cache.page after node none none pageSize).getLast? = some last)
    (deals : DealsWithAll ((world.replay made).cache.page after node none none pageSize) dealt)
    (hands : Hands Mover.rows (world.members.others node)
      ((readable ((world.replay made).cache.page after node none none pageSize)).map
        Submission.jobId) handed) :
    RowsTaken world node last.id (made ++ (.pageCache after node none none pageSize, none) ::
      (dealt ++ (.aliveNodes, none) :: handed)) := by
  have further : ∀ row, Listable world node after row → Listable world node last.id row :=
    fun row ⟨inside, owned, reached⟩ => ⟨inside, owned, Fin.le_trans reached
      (Fin.le_of_lt (taken.listed room isLast (List.mem_of_getLast? isLast)).2)⟩
  have onPage : ∀ row ∈ (world.replay made).cache.page after node none none pageSize,
      Listable world node last.id row := fun _ member => (taken.listed room isLast member).1
  obtain ⟨noDrops, noMarks⟩ := hands.no_rows_dealt_with fun _ _ refused => by cases refused <;> rfl
  have moves : movedNames (Mover.rows.moves (made ++ (.pageCache after node none none pageSize, none) ::
      (dealt ++ (.aliveNodes, none) :: handed))) =
        movedNames (Mover.rows.moves made) ++ movedNames (Mover.rows.moves handed) := by
    rw [Mover.moves_append, movedNames_append, deals.page_moves]
  have marks : markedNames (made ++ (.pageCache after node none none pageSize, none) ::
      (dealt ++ (.aliveNodes, none) :: handed)) = markedNames made ++ markedNames dealt := by
    rw [markedNames_append, page_marked noMarks]
  constructor
  case calls =>
    intro one member
    rcases List.mem_append.1 member with before | now
    · exact (taken.calls one before).mono further
    rcases List.mem_cons.1 now with rfl | now
    · exact .page after pageSize
    rcases List.mem_append.1 now with inDealt | now
    · exact .flaw ((deals.call one inDealt).mono onPage)
    rcases List.mem_cons.1 now with rfl | now
    · exact .aliveNodes
    · exact hands.cacheCall node _ one now
  case moved =>
    intro name member
    rw [moves] at member
    rcases List.mem_append.1 member with before | now
    · obtain ⟨row, one, listable, read, same⟩ := taken.moved name before
      exact ⟨row, one, further row listable, read, same⟩
    · obtain ⟨one, inPage, rfl⟩ := List.mem_map.1 (hands.named.subset now)
      obtain ⟨row, member, read⟩ := mem_readable.1 inPage
      exact ⟨row, one, onPage row member, read, (CacheRow.read_eq_ok read).2.symm⟩
  case settled =>
    intro row listable unhindered
    rw [moves]
    exact taken.page_settled room rfl isLast deals hands listable unhindered
  case deleted =>
    intro jobId member
    rw [marks] at member
    rcases List.mem_append.1 member with before | now
    · exact List.mem_append_left _ (taken.deleted jobId before)
    · refine List.mem_append_right _ (List.mem_cons_of_mem _ (List.mem_append_left _ ?_))
      exact deals.deleted_of_marked now
  case droppedOnce =>
    rw [droppedIds_append, page_dropped noDrops]
    exact taken.page_droppedOnce room rfl isLast deals
  case movedOnce =>
    intro distinct
    rw [moves]
    exact taken.page_movedOnce distinct room rfl hands
  case markedOnce =>
    intro distinct
    rw [marks]
    exact taken.page_markedOnce distinct room rfl deals

end Page

/-- An empty page means that every row of the node was dealt with before. Calls that
only ask change nothing about that. -/
theorem finish (taken : RowsTaken world node after made) (positive : 0 < pageSize)
    (room : after < RowId.last)
    (empty : (world.replay made).cache.page after node none none pageSize = []) {more : List Made}
    (asks : ∀ one ∈ more, decides one.1 = true)
    (calls : ∀ one ∈ more,
      CacheCall node (world.members.others node) (Listable world node RowId.last) one.1) :
    RowsTaken world node RowId.last (made ++ more) := by
  obtain ⟨_, noMoves, noDrops, noMarks⟩ := quiet_of_asks asks
  have moves : Mover.rows.moves (made ++ more) = Mover.rows.moves made := by
    rw [Mover.moves_append, noMoves, List.append_nil]
  have drops : droppedIds (made ++ more) = droppedIds made := by
    rw [droppedIds_append, noDrops, List.append_nil]
  have marks : markedNames (made ++ more) = markedNames made := by
    rw [markedNames_append, noMarks, List.append_nil]
  have further : ∀ row, Listable world node after row → Listable world node RowId.last row :=
    fun row ⟨inside, owned, _⟩ => ⟨inside, owned, Fin.le_last row.id⟩
  constructor
  case calls =>
    intro one member
    rcases List.mem_append.1 member with before | now
    · exact (taken.calls one before).mono further
    · exact calls one now
  case moved =>
    intro name member
    obtain ⟨row, one, listable, read, same⟩ := taken.moved name (moves ▸ member)
    exact ⟨row, one, further row listable, read, same⟩
  case settled =>
    rintro row ⟨inside, owned, _⟩ unhindered
    rw [moves, CacheRow.removedBy_append]
    rcases Fin.lt_or_le after row.id with behind | before
    · by_contra unsettled
      rw [not_or, not_or] at unsettled
      have now := (CacheCall.mem_replay_iff taken.calls owned).2
        ⟨inside, unsettled.1, unsettled.2.1⟩
      exact (Cache.page_eq_nil_iff positive).1 empty row now
        ((RowId.following_le_iff room).2 behind) owned
    · exact (taken.settled row ⟨inside, owned, before⟩ unhindered.of_append.1).imp_right .inl
  case deleted =>
    intro jobId member
    exact List.mem_append_left _ (taken.deleted jobId (marks ▸ member))
  case droppedOnce => exact drops ▸ taken.droppedOnce
  case movedOnce => exact fun distinct => moves ▸ taken.movedOnce distinct
  case markedOnce => exact fun distinct => marks ▸ taken.markedOnce distinct

/-- Before the first page nothing was done. -/
theorem opening (inRange : ∀ row ∈ world.cache, row.id.Resumable) :
    RowsTaken world node 0 [(.isAlive node, none)] where
  calls := by
    intro one member
    rw [List.mem_singleton.1 member]
    exact .isAlive
  moved := fun _ member => absurd member List.not_mem_nil
  settled := fun row ⟨inside, _, reached⟩ _ =>
    absurd (inRange row inside).1 (Fin.not_lt.2 reached)
  deleted := fun _ member => absurd member List.not_mem_nil
  droppedOnce := List.nodup_nil
  movedOnce := fun _ => List.nodup_nil
  markedOnce := fun _ => List.nodup_nil

/-- A row that is still the node's after the last page was hindered. -/
theorem hindered (taken : RowsTaken world node RowId.last made) {row : CacheRow}
    (member : row ∈ (world.replay made).cache) (owned : row.owner = node) :
    ¬ Unhindered world node row made := by
  intro unhindered
  obtain ⟨inside, notMoved, stays⟩ := (CacheCall.mem_replay_iff taken.calls owned).1 member
  rcases taken.settled row ⟨inside, owned, Fin.le_last row.id⟩ unhindered with moved | removed
  · exact notMoved moved
  · exact stays removed

end RowsTaken

/-! ## The whole stage -/

/-- What a cache stage that does not break off has done, and what it tells of it. -/
structure RowsSettled (world : World) (node : Address) (tally : Tally) (made : List Made) : Prop where
  taken : RowsTaken world node RowId.last made
  countedMoved : tally.reassigned = world.movedCount made
  countedDealt : tally.failed = dealtCount made
  notSkipped : tally.skippedAlive = false
  looked : tally.leftover = true ↔ ∃ row ∈ (world.replay made).cache, row.owner = node
  reset : tally.leftover = true → (world.replay made).members.record? node = some .neverAlive

/-- A last look ends the stage, and what it says of the rows is told. -/
theorem RowsTaken.ends {world : World} {node : Address} {after : RowId} {made more : List Made}
    {pageSize : Nat} (taken : RowsTaken world node after made) (positive : 0 < pageSize)
    (room : after < RowId.last)
    (empty : (world.replay made).cache.page after node none none pageSize = [])
    (asks : ∀ one ∈ more, decides one.1 = true)
    (calls : ∀ one ∈ more,
      CacheCall node (world.members.others node) (Listable world node RowId.last) one.1)
    {tally : Tally} (countedMoved : tally.reassigned = world.movedCount made)
    (countedDealt : tally.failed = dealtCount made) (notSkipped : tally.skippedAlive = false)
    (looked : tally.leftover = true ↔
      ∃ row ∈ (world.replay (made ++ more)).cache, row.owner = node)
    (reset : tally.leftover = true →
      (world.replay (made ++ more)).members.record? node = some .neverAlive) :
    RowsSettled world node tally (made ++ more) := by
  obtain ⟨noJobs, noRows, noDrops, noMarks⟩ := quiet_of_asks asks
  constructor
  case taken => exact taken.finish positive room empty asks calls
  case countedMoved =>
    rw [countedMoved, World.movedCount_append, World.movedCount_eq_zero noJobs noRows, Nat.add_zero]
  case countedDealt =>
    rw [countedDealt, dealtCount_append]
    simp [dealtCount, noDrops, noMarks]
  case notSkipped => exact notSkipped
  case looked => exact looked
  case reset => exact reset

/-- How the cache stage comes out. A stage that breaks off tells nothing of what it did. -/
inductive CacheStage (world : World) (node : Address) : Tally → List Made → Prop
  | broke {made : List Made} (broke : Broke made)
      (calls : ∀ one ∈ made,
        CacheCall node (world.members.others node) (Listable world node RowId.last) one.1) :
      CacheStage world node {} made
  | settled {tally : Tally} {made : List Made} (unbroken : ¬ Broke made)
      (settled : RowsSettled world node tally made) : CacheStage world node tally made

theorem CacheStage.calls {world : World} {node : Address} {tally : Tally} {made : List Made}
    (stage : CacheStage world node tally made) :
    ∀ one ∈ made,
      CacheCall node (world.members.others node) (Listable world node RowId.last) one.1 := by
  cases stage with
  | broke _ calls => exact calls
  | settled _ settled => exact settled.taken.calls

/-- Where the stage stands between two rounds. -/
inductive CacheProgress (world : World) (node : Address) (jobs : Tally) : Progress → List Made → Prop
  | page {after : RowId} {tally : Tally} {made : List Made} (room : after < RowId.last)
      (taken : RowsTaken world node after made) (unbroken : ¬ Broke made)
      (unreset : (world.replay made).members = world.members)
      (counted : tally = { reassigned := world.movedCount made, failed := dealtCount made }) :
      CacheProgress world node jobs (.cachePage jobs after tally) made
  | ended {tally : Tally} {made : List Made} (stage : CacheStage world node tally made) :
      CacheProgress world node jobs (.closing jobs tally) made

section Stage

variable {world : World} {node : Address} {after : RowId} {made : List Made} {pageSize : Nat}

/-- The last look finds a row of the node if there is one at all. -/
theorem looked_rows_iff (inRange : ∀ row ∈ world.cache, row.id.Resumable) :
    (world.replay made).cache.page 0 node none none 1 ≠ [] ↔
      ∃ row ∈ (world.replay made).cache, row.owner = node := by
  rw [ne_eq, Cache.page_eq_nil_iff Nat.one_pos]
  push Not
  constructor
  · rintro ⟨row, member, _, owned⟩
    exact ⟨row, member, owned⟩
  · rintro ⟨row, member, owned⟩
    obtain ⟨before, inside, fated⟩ := World.mem_replay_cache.1 member
    obtain ⟨_, rfl⟩ := CacheRow.fate_eq_some_iff.1 fated
    exact ⟨_, member, (RowId.following_le_iff (by decide)).2 (inRange before inside).1, owned⟩

/-- A round brings the stage forward. -/
theorem CacheProgress.round (positive : 0 < pageSize)
    (inRange : ∀ row ∈ world.cache, row.id.Resumable) {jobs tally : Tally}
    (room : after < RowId.last) (taken : RowsTaken world node after made) (unbroken : ¬ Broke made)
    (unreset : (world.replay made).members = world.members)
    (counted : tally = { reassigned := world.movedCount made, failed := dealtCount made })
    {result : Except Fault Progress} {more : List Made}
    (played : CacheRound (world.replay made) pageSize node jobs after tally result more) :
    match result with
    | .ok next => CacheProgress world node jobs next (made ++ more) ∧
        next.ahead < (Progress.cachePage jobs after tally).ahead
    | .error _ => CacheStage world node {} (made ++ more) := by
  have sameNodes : (world.replay made).members.others node = world.members.others node := by
    rw [unreset]
  have ahead := Progress.ahead_cachePage_pos jobs after tally
  have calls : ∀ one ∈ more,
      CacheCall node (world.members.others node) (Listable world node RowId.last) one.1 := by
    intro one member
    rw [← sameNodes]
    refine (played.calls one member).mono fun row listed => ?_
    obtain ⟨inside, _, owned⟩ := Cache.mem_page listed
    exact ⟨((CacheCall.mem_replay_iff taken.calls owned).1 inside).1, owned, Fin.le_last row.id⟩
  cases played with
  | broke fault broke _ _ =>
      refine .broke (broke_append.2 (.inr broke)) fun one member => ?_
      rcases List.mem_append.1 member with before | now
      · exact (taken.calls one before).mono fun row ⟨inside, owned, _⟩ =>
          ⟨inside, owned, Fin.le_last row.id⟩
      · exact calls one now
  | clear empty nothing =>
      have kept : world.replay (made ++ [(.pageCache after node none none pageSize, none),
          (.pageCache 0 node none none 1, none)]) = world.replay made := World.replay_append _ _ _
      refine ⟨.ended (.settled (by simp [unbroken]) ?_), ahead⟩
      refine taken.ends positive room empty (by simp [decides]) calls (by rw [counted])
        (by rw [counted]) (by rw [counted]) ?_ ?_
      · rw [kept, ← looked_rows_iff inRange]
        simp [counted, nothing]
      · simp [counted]
  | left empty something =>
      have replayed : world.replay (made ++ [(.pageCache after node none none pageSize, none),
          (.pageCache 0 node none none 1, none), (.reset node .neverAlive true, none)]) =
          { world.replay made with
            members := (world.replay made).members.set node .neverAlive } := World.replay_append _ _ _
      refine ⟨.ended (.settled (by simp [unbroken]) ?_), ahead⟩
      refine taken.ends positive room empty (by simp [decides]) calls (by rw [counted])
        (by rw [counted]) (by rw [counted]) ?_ ?_
      · rw [replayed]
        exact iff_of_true rfl ((looked_rows_iff inRange).1 something)
      · intro _
        rw [replayed]
        exact Membership.record?_set_self
  | @page last dealt handed isLast deals hands more all =>
      rw [sameNodes] at hands
      subst all
      obtain ⟨⟨inside, _, _⟩, behind⟩ := taken.listed room isLast (List.mem_of_getLast? isLast)
      refine ⟨.page (inRange last inside).2 (taken.page room isLast deals hands) ?_ ?_ ?_, ?_⟩
      · simp [unbroken, deals.not_broke, hands.not_broke fun _ _ => rfl]
      · rw [World.replay_append, ← List.singleton_append, World.replay_append, World.replay_append,
          ← List.singleton_append (l := handed), World.replay_append,
          hands.keeps_members fun _ _ _ => rfl]
        exact (deals.keeps_members _).trans unreset
      · rw [counted, World.movedCount_append, dealtCount_append]
      · have := Fin.lt_def.1 behind
        have bound := last.id.isLt
        simp only [Progress.ahead]
        omega

/-- Played to its end, the cache stage comes out in one of its ways. -/
theorem cacheStage_arrives (id : TaskId) (chances : Chances) (settings : Settings)
    {session : Session} (jobs : Tally) (dead : session.world.members.isAlive node = false)
    (positive : 0 < settings.pageSize) (inRange : ∀ row ∈ session.world.cache, row.id.Resumable) :
    Arrives id chances settings node (.opened jobs) session fun progress made _ =>
      ∃ tally, progress = .closing jobs tally ∧ CacheStage session.world node tally made := by
  have opens : (Takeover.round settings node (.opened jobs)).Leads id chances session
      fun next made after => CacheProgress session.world node jobs next made := by
    have asked : (openCache node jobs).run.Leads id chances session fun result made _ =>
        CacheProgress session.world node jobs (result.toOption.getD (.closing jobs {})) made := by
      refine .attemptAsk rfl (fun fault text _ => ?_) fun weigher after _ => .done _ _ ?_
      · refine .ended (.broke (by simp [decides]) fun one member => ?_)
        rw [List.mem_singleton.1 member]
        exact .isAlive
      · change CacheProgress session.world node jobs
          (if session.world.members.isAlive node = true then _ else _) _
        rw [dead]
        exact .page (by decide) (.opening inRange) (by simp) rfl rfl
    apply (orElse_leads asked _).mono
    rintro next made after - (stands | ⟨rfl, fault, stands⟩)
    · exact stands
    · exact stands
  apply (Arrives.of_round opens).trans
  intro next made opened continues progress
  refine Arrives.of_invariant
    (fun progress made after => after.world = session.world.replay made ∧
      CacheProgress session.world node jobs progress made)
    (fun progress made _ => ∃ tally, progress = .closing jobs tally ∧
      CacheStage session.world node tally made) ?_ ⟨continues.world, progress⟩
  rintro progress made middle ⟨same, stands⟩
  cases stands with
  | ended stage => exact .inl ⟨_, rfl, stage⟩
  | page room taken unbroken unreset counted =>
      right
      apply (orElse_leads (cacheRound_leads _ _ _ _) _).mono
      intro next more after continuesMore outcome
      rw [same] at outcome
      have replayed : after.world = session.world.replay (made ++ more) := by
        rw [continuesMore.world, same, World.replay_append]
      rcases outcome with played | ⟨rfl, fault, played⟩
      · obtain ⟨stands, fewer⟩ :=
          CacheProgress.round positive inRange room taken unbroken unreset counted played
        exact ⟨⟨replayed, stands⟩, fewer⟩
      · refine ⟨⟨replayed, .ended
          (CacheProgress.round positive inRange room taken unbroken unreset counted played)⟩, ?_⟩
        exact Progress.ahead_cachePage_pos _ _ _

end Stage

end Handover.Takeover
