import Handover.Proofs.CacheStage
import Handover.Proofs.CalmJobs

/-!
Contract: the cache stage of a takeover when no call is refused.

Owns: that such a stage comes to its end with nothing left, whichever row ids there
are and even where rows share a job id.

Every row of a page leaves the node: a readable one is moved away, any other is
removed. So behind a page the node owns only rows with larger ids, and a row with the
id 0, which is never listed.
-/

set_option autoImplicit false

namespace Handover.Takeover

open Coordinator (TaskId)

section Rows

variable {world : World} {node : Address} {size : Nat} {after : RowId} {made : List Made}

/-- The rows that the node still owns lie behind `after`, but for one that is never listed. -/
def RowsBehind (world : World) (node : Address) (after : RowId) : Prop :=
  ∀ row ∈ world.cache, row.owner = node → row.id = 0 ∨ after < row.id

/-- Before the first page all rows of the node lie ahead. -/
theorem RowsBehind.opening : RowsBehind world node 0 := by
  intro row _ _
  rcases Nat.eq_zero_or_pos row.id.val with zero | further
  · exact .inl (Fin.ext zero)
  · exact .inr further

/-- Nothing is found from the start if nothing is found behind the last page. -/
theorem RowsBehind.nothing_left (behind : RowsBehind world node after) (positive : 0 < size)
    (empty : world.cache.page after node none none size = []) :
    world.cache.page 0 node none none 1 = [] := by
  refine (Cache.page_eq_nil_iff Nat.one_pos).2 fun row inside reached owned => ?_
  have further : (0 : RowId) < row.id := (RowId.following_le_iff (by decide)).1 reached
  rcases behind row inside owned with zero | ahead
  · exact absurd (zero ▸ further) (Fin.lt_irrefl _)
  · have reachedToo := (RowId.following_le_iff (RowId.lt_last_of_lt ahead)).2 ahead
    exact (Cache.page_eq_nil_iff positive).1 empty row inside reachedToo owned

/-- A row on a page lies behind the pages before. -/
theorem RowsBehind.lt_of_mem_page (behind : RowsBehind world node after) {row : CacheRow}
    (onPage : row ∈ world.cache.page after node none none size) : after < row.id := by
  obtain ⟨inside, reached, owned⟩ := Cache.mem_page onPage
  refine (behind row inside owned).resolve_left fun zero => ?_
  rw [zero] at reached
  rcases RowId.lt_or_eq_last_of_following_le reached with below | atEnd
  · exact absurd (Fin.lt_def.1 below) (Nat.not_lt_zero _)
  · rw [atEnd] at reached
    exact absurd reached (by decide)

/-- What is still the node's behind a page comes after the page. -/
theorem RowsBehind.page (behind : RowsBehind world node after)
    (someone : world.members.others node ≠ []) {last : CacheRow} {dealt handed : List Made}
    (isLast : (world.cache.page after node none none size).getLast? = some last)
    (deals : DealsWithAll (world.cache.page after node none none size) dealt)
    (hands : Hands Mover.rows (world.members.others node)
      ((readable (world.cache.page after node none none size)).map Submission.jobId) handed)
    (all : made = (.pageCache after node none none size, none) ::
      (dealt ++ (.aliveNodes, none) :: handed))
    (calls : ∀ one ∈ made, CacheCall node (world.members.others node)
      (· ∈ world.cache.page after node none none size) one.1)
    (removals : RemovalsAccepted dealt) (accepted : Mover.rows.Accepted handed) :
    RowsBehind (world.replay made) node last.id := by
  intro row member owned
  obtain ⟨inside, notMoved, stays⟩ := (CacheCall.mem_replay_iff calls owned).1 member
  refine (behind row inside owned).imp_right fun ahead => ?_
  by_contra notBehind
  have reached := (RowId.following_le_iff (RowId.lt_last_of_lt ahead)).2 ahead
  have onPage := Cache.mem_page_of_le isLast inside reached owned (Fin.not_lt.1 notBehind)
  cases read : row.read with
  | error flaw =>
      apply stays
      rw [all, ← List.singleton_append, CacheRow.removedBy_append, CacheRow.removedBy_append]
      exact .inr (.inl (deals.removed removals onPage read))
  | ok one =>
      apply notMoved
      rw [all, deals.page_moves, (hands.all someone accepted).mem_iff]
      exact List.mem_map.2 ⟨one, mem_readable.2 ⟨row, onPage, read⟩, (CacheRow.read_eq_ok read).2⟩

/-- Where a calm stage stands between two rounds. -/
inductive CalmRows (world : World) (node : Address) (jobs : Tally) : Progress → Prop
  | page {after : RowId} (moved failed : Nat) (behind : RowsBehind world node after) :
      CalmRows world node jobs (.cachePage jobs after { reassigned := moved, failed := failed })
  | ended (moved failed : Nat) :
      CalmRows world node jobs (.closing jobs { reassigned := moved, failed := failed })

/-- A calm round brings the stage forward. -/
theorem CalmRows.round (behind : RowsBehind world node after) (positive : 0 < size)
    (someone : world.members.others node ≠ []) {jobs : Tally} {moved failed : Nat}
    {result : Except Fault Progress}
    (played : CacheRound world size node jobs after { reassigned := moved, failed := failed }
      result made)
    (unrefused : ∀ request text, (request, some text) ∉ made) :
    ∃ next, result = .ok next ∧ CalmRows (world.replay made) node jobs next ∧
      next.ahead < UInt64.size - after.val := by
  have room : 0 < UInt64.size - after.val := Nat.sub_pos_of_lt after.isLt
  have calls := played.calls
  cases played with
  | broke fault broke _ _ =>
      obtain ⟨⟨request, refused⟩, member, _, told⟩ := broke
      obtain ⟨text, rfl⟩ := Option.isSome_iff_exists.1 told
      exact absurd member (unrefused request text)
  | clear empty nothing => exact ⟨_, rfl, .ended moved failed, room⟩
  | left empty something => exact absurd (behind.nothing_left positive empty) something
  | @page last dealt handed isLast deals hands made all =>
      have dealtUnrefused : ∀ request text, (request, some text) ∉ dealt :=
        fun request text member => unrefused request text (by simp [all, member])
      have handedUnrefused : ∀ request text, (request, some text) ∉ handed :=
        fun request text member => unrefused request text (by simp [all, member])
      have removals : RemovalsAccepted dealt :=
        ⟨fun id text => dealtUnrefused _ text, fun jobId text => dealtUnrefused _ text⟩
      have accepted : Mover.rows.Accepted handed := fun dest jobIds text => handedUnrefused _ text
      have further := behind.page someone isLast deals hands all calls removals accepted
      refine ⟨_, rfl, .page _ _ further, ?_⟩
      have ahead := Fin.lt_def.1 (behind.lt_of_mem_page (List.mem_of_getLast? isLast))
      have bound := last.id.isLt
      simp only [Progress.ahead]
      omega

theorem openCache_calm {id : TaskId} {chances : Chances} (calm : Calm chances) (jobs : Tally)
    {session : Session} (dead : session.world.members.isAlive node = false) :
    (openCache node jobs).run.Leads id chances session fun result made _ =>
      result = .ok (.cachePage jobs 0 {}) ∧ made = [(.isAlive node, none)] := by
  refine .attemptCalmAsk calm fun after _ => .done _ _ ⟨?_, rfl⟩
  change Except.ok (if session.world.members.isAlive node = true then _ else _) = _
  rw [dead]
  rfl

/-- Played to its end, a calm cache stage leaves nothing behind, and no job is moved by it. -/
theorem calmRows_arrives (id : TaskId) {chances : Chances} (calm : Calm chances)
    (settings : Settings) (jobs : Tally) {session : Session}
    (dead : session.world.members.isAlive node = false) (positive : 0 < settings.pageSize)
    (someone : session.world.members.others node ≠ []) :
    Arrives id chances settings node (.opened jobs) session fun progress made _ =>
      (∃ moved failed, progress = .closing jobs { reassigned := moved, failed := failed }) ∧
        Mover.jobs.moves made = [] := by
  apply (Arrives.of_round (orElse_leads_ok (openCache_calm calm jobs dead) _)).trans
  rintro _ _ opened continues ⟨rfl, rfl⟩
  have sameWorld : opened.world = session.world := continues.world
  refine Arrives.of_invariant
    (fun progress made after => CalmRows after.world node jobs progress ∧
      after.world.members.isAlive node = false ∧ after.world.members.others node ≠ [] ∧
        Mover.jobs.moves made = [])
    (fun progress made _ =>
      (∃ moved failed, progress = .closing jobs { reassigned := moved, failed := failed }) ∧
        Mover.jobs.moves made = []) ?_
    ⟨.page 0 0 .opening, sameWorld ▸ dead, sameWorld ▸ someone, rfl⟩
  rintro progress made middle ⟨stands, deadStill, someoneStill, noMoves⟩
  cases stands with
  | ended moved failed => exact .inl ⟨⟨moved, failed, rfl⟩, noMoves⟩
  | page moved failed behind =>
      right
      apply (orElse_leads (cacheRound_leads _ _ _ _) _).mono
      intro next more after continuesMore outcome
      have unrefused : ∀ request text, (request, some text) ∉ more := fun request text =>
        continuesMore.accepted (fun turn => calm.unrefused turn request) text
      rcases outcome with played | ⟨_, fault, played⟩
      · obtain ⟨_, same, stands, fewer⟩ :=
          CalmRows.round behind positive someoneStill played unrefused
        cases same
        obtain ⟨deadThen, sameNodes⟩ := CacheCall.replay_members played.calls deadStill
        rw [continuesMore.world, Mover.moves_append, noMoves, CacheCall.no_jobs played.calls]
        exact ⟨⟨stands, deadThen, sameNodes ▸ someoneStill, rfl⟩, fewer⟩
      · obtain ⟨_, impossible, _⟩ :=
          CalmRows.round behind positive someoneStill played unrefused
        cases impossible

end Rows

end Handover.Takeover
