import Handover.Proofs.Closing
import Handover.Proofs.JobRound
import Handover.Proofs.RowsReclaimed

/-!
Contract: what a takeover does to rows of the cache that share a job id.

Owns: the law that a row goes by its job id alone, at any point of a takeover,
whichever calls are refused and whatever row ids there are.

The stages list the rows of the dead node by row id, but name them by job id when
they move or remove them. So what is done to a row is done to all rows with its job
id, those of other nodes among them.
-/

set_option autoImplicit false

namespace Handover.Takeover

open Coordinator (TaskId)

/-! ## Calls -/

/-- The calls of a takeover, where it deals with rows among `rows`. -/
inductive TakeoverCall (node : Address) (nodes : List Address) (rows : CacheRow → Prop) : Call → Prop
  | jobs {request : Call} (call : JobCall node nodes request) : TakeoverCall node nodes rows request
  | cache {request : Call} (call : CacheCall node nodes rows request) :
      TakeoverCall node nodes rows request
  | broadcast {request : Call} (call : broadcasts request = true) :
      TakeoverCall node nodes rows request

namespace TakeoverCall

variable {node : Address} {nodes : List Address} {rows : CacheRow → Prop} {made : List Made}

theorem deletes {jobId : String} (call : TakeoverCall node nodes rows (.deleteJob jobId)) :
    ∃ row flaw, rows row ∧ row.read = .error flaw ∧ row.namesNoJob = false ∧ row.jobId = jobId := by
  cases call with
  | jobs call => cases call
  | cache call =>
      cases call with
      | flaw call => exact call.of_deleteJob
  | broadcast call => cases call

theorem drops {id : RowId} (call : TakeoverCall node nodes rows (.deleteRow id)) :
    ∃ row, rows row ∧ row.namesNoJob = true ∧ row.id = id := by
  cases call with
  | jobs call => cases call
  | cache call =>
      cases call with
      | flaw call => exact call.of_deleteRow
  | broadcast call => cases call

theorem among {dest : Address} {jobIds : List String}
    (call : TakeoverCall node nodes rows (.reassignCache dest jobIds)) : dest ∈ nodes := by
  cases call with
  | jobs call => cases call
  | cache call =>
      cases call with
      | reassign _ among => exact among
      | flaw call => cases call
  | broadcast call => cases call

theorem newOwner_among (calls : ∀ one ∈ made, TakeoverCall node nodes rows one.1) {jobId : String}
    {dest : Address} (moved : newOwner (Mover.rows.moves made) jobId = some dest) : dest ∈ nodes := by
  obtain ⟨jobIds, member, _⟩ := exists_move_of_newOwner moved
  exact (calls _ (Mover.mem_moves.1 member)).among

/-- The node stays dead, and the others stay as alive as they are. -/
theorem replay_members (calls : ∀ one ∈ made, TakeoverCall node nodes rows one.1) {world : World}
    (dead : world.members.isAlive node = false) :
    (world.replay made).members.isAlive node = false ∧
      (world.replay made).members.others node = world.members.others node := by
  refine World.replay_keeps (fun other => other.members.isAlive node = false ∧
    other.members.others node = world.members.others node) ?_ ⟨dead, rfl⟩
  rintro one member other ⟨deadStill, same⟩
  rcases calls one member with call | call | call
  · have alone : ∀ found ∈ [one], JobCall node nodes found.1 :=
      fun found listed => List.mem_singleton.1 listed ▸ call
    have kept := JobCall.replay_members alone deadStill
    exact ⟨kept.1, kept.2.trans same⟩
  · have alone : ∀ found ∈ [one], CacheCall node nodes rows found.1 :=
      fun found listed => List.mem_singleton.1 listed ▸ call
    have kept := CacheCall.replay_members alone deadStill
    exact ⟨kept.1, kept.2.trans same⟩
  · obtain ⟨request, refused⟩ := one
    cases refused <;> cases request <;> first | exact ⟨deadStill, same⟩ | cases call

end TakeoverCall

/-! ## What was done so far -/

/-- What calls of a takeover have done to the rows of the cache. -/
structure RowsTouched (world : World) (node : Address) (made : List Made) : Prop where
  calls : ∀ one ∈ made, TakeoverCall node (world.members.others node)
    (fun row => row ∈ world.cache ∧ row.owner = node) one.1
  moved : ∀ name ∈ movedNames (Mover.rows.moves made),
    ∃ row ∈ world.cache, row.owner = node ∧ row.Converts ∧ row.jobId = name

section Touched

variable {world : World} {node : Address} {made more : List Made}

theorem RowsTouched.append (touched : RowsTouched world node made)
    (calls : ∀ one ∈ more, TakeoverCall node (world.members.others node)
      (fun row => row ∈ world.cache ∧ row.owner = node) one.1)
    (moved : ∀ name ∈ movedNames (Mover.rows.moves more),
      ∃ row ∈ world.cache, row.owner = node ∧ row.Converts ∧ row.jobId = name) :
    RowsTouched world node (made ++ more) where
  calls := fun one member => (List.mem_append.1 member).elim (touched.calls one) (calls one)
  moved := by
    intro name member
    rw [Mover.moves_append, movedNames_append] at member
    exact (List.mem_append.1 member).elim (touched.moved name) (moved name)

/-- A listed row of the node is as it was in the beginning. -/
theorem RowsTouched.mem_of_listed (touched : RowsTouched world node made) {after : RowId}
    {pageSize : Nat} {row : CacheRow}
    (listed : row ∈ (world.replay made).cache.page after node none none pageSize) :
    row ∈ world.cache ∧ row.owner = node := by
  obtain ⟨inside, _, owned⟩ := Cache.mem_page listed
  have away := fun jobId dest (moved : newOwner (Mover.rows.moves made) jobId = some dest) =>
    (Membership.mem_others.1 (TakeoverCall.newOwner_among touched.calls moved)).2
  exact ⟨((mem_replay_cache_iff_of_owned away owned).1 inside).1, owned⟩

end Touched

/-- What holds between two rounds of a takeover. -/
def Follows (world : World) (node : Address) (calls : List Made) (session : Session) : Prop :=
  ∃ made, session.calls = calls ++ made ∧ session.world = world.replay made ∧
    RowsTouched world node made

section Rounds

variable {id : TaskId} {chances : Chances} {settings : Settings} {node : Address} {world : World}
  {calls : List Made}

/-- A round of a takeover deals with rows of the node, and moves its readable ones. -/
theorem Follows.round (dead : world.members.isAlive node = false) {progress next : Progress}
    {session after : Session} (follows : Follows world node calls session)
    (played : (Takeover.round settings node progress).play id chances session = some (next, after)) :
    Follows world node calls after := by
  obtain ⟨made, told, same, touched⟩ := follows
  have sameNodes := (TakeoverCall.replay_members touched.calls dead).2
  have extend : ∀ more, after.calls = session.calls ++ more →
      after.world = session.world.replay more → (∀ one ∈ more,
        TakeoverCall node (world.members.others node)
          (fun row => row ∈ world.cache ∧ row.owner = node) one.1) →
      (∀ name ∈ movedNames (Mover.rows.moves more),
        ∃ row ∈ world.cache, row.owner = node ∧ row.Converts ∧ row.jobId = name) →
      Follows world node calls after := by
    intro more toldMore sameMore callsMore movedMore
    refine ⟨made ++ more, ?_, ?_, touched.append callsMore movedMore⟩
    · rw [toldMore, told, List.append_assoc]
    · rw [sameMore, same, World.replay_append]
  have asked : ∀ refused : Option String,
      (∃ more, Continues chances session after more ∧ more = [(.isAlive node, refused)]) →
        Follows world node calls after := by
    rintro refused ⟨_, continues, rfl⟩
    refine extend _ continues.calls continues.world (fun one member => ?_) ?_
    · rw [List.mem_singleton.1 member]
      exact .jobs .isAlive
    · cases refused <;> exact fun _ member => absurd member List.not_mem_nil
  cases progress with
  | opening =>
      obtain ⟨more, continues, outcome⟩ := (orElse_leads (opens_leads _ _ session) _).of_play played
      rcases outcome with ⟨rfl, _⟩ | ⟨_, _, text, rfl⟩
      · exact asked none ⟨_, continues, rfl⟩
      · exact asked (some text) ⟨_, continues, rfl⟩
  | opened jobs =>
      obtain ⟨more, continues, outcome⟩ := (orElse_leads (opens_leads _ _ session) _).of_play played
      rcases outcome with ⟨rfl, _⟩ | ⟨_, _, text, rfl⟩
      · exact asked none ⟨_, continues, rfl⟩
      · exact asked (some text) ⟨_, continues, rfl⟩
  | jobPage last tally =>
      obtain ⟨more, continues, outcome⟩ :=
        (orElse_leads (jobRound_leads last tally session) _).of_play played
      have callsMore : ∀ one ∈ more, JobCall node (world.members.others node) one.1 := by
        rw [← sameNodes, ← same]
        rcases outcome with played | ⟨_, _, played⟩
        · exact played.calls
        · exact played.calls
      refine extend more continues.calls continues.world
        (fun one member => .jobs (callsMore one member)) ?_
      rw [JobCall.no_rows callsMore]
      exact fun _ member => absurd member List.not_mem_nil
  | cachePage jobs last tally =>
      obtain ⟨more, continues, outcome⟩ :=
        (orElse_leads (cacheRound_leads jobs last tally session) _).of_play played
      obtain ⟨result, played⟩ : ∃ result, CacheRound session.world settings.pageSize node jobs last
          tally result more := outcome.elim (fun played => ⟨_, played⟩) fun ⟨_, fault, played⟩ =>
            ⟨_, played⟩
      rw [same] at played
      refine extend more continues.calls continues.world (fun one member => ?_) fun name moved => ?_
      · exact .cache (sameNodes ▸ (played.calls one member).mono fun row => touched.mem_of_listed)
      · obtain ⟨row, listed, one, read, named⟩ := played.moved moved
        obtain ⟨inside, owned⟩ := touched.mem_of_listed listed
        exact ⟨row, inside, owned, CacheRow.converts_iff.2 ⟨one, read⟩, named⟩
  | closing jobs cache =>
      obtain ⟨_, more, toldMore, sameMore, called⟩ := close_keeps played
      apply extend more toldMore sameMore (fun one member => .broadcast (called one member))
      have noMoves : Mover.rows.moves more = [] := by
        refine List.eq_nil_iff_forall_not_mem.2 fun move member => ?_
        cases called _ (Mover.mem_moves.1 member)
      rw [noMoves]
      exact fun _ member => absurd member List.not_mem_nil
  | finished report =>
      cases played
      exact ⟨made, told, same, touched⟩

end Rounds

/-! ## The law -/

/-- No row of the node shares its job id with another row. -/
def Unshared (cache : Cache) (node : Address) : Prop :=
  ∀ row ∈ cache, row.owner = node → row.namesNoJob = false →
    ∀ other ∈ cache, other.jobId = row.jobId → other = row

/-- What becomes of the rows of the cache when the work of `node` is taken over by
these calls. -/
structure FateByJobId (before after : World) (node : Address) (made : List Made) : Prop where
  known : ∀ now ∈ after.cache, ∃ row ∈ before.cache, row.id = now.id
  /-- Rows are removed by their job id; only a row without one is removed alone. -/
  stays : ∀ row ∈ before.cache, (∃ now ∈ after.cache, now.id = row.id) ↔
    (.deleteJob row.jobId, none) ∉ made ∧ (.deleteRow row.id, none) ∉ made
  /-- A row that stays goes where its job id goes. -/
  moves : ∀ row ∈ before.cache, ∀ now ∈ after.cache, now.id = row.id →
    now = { row with owner := (newOwner (Mover.rows.moves made) row.jobId).getD row.owner }
  /-- A job id is removed for an unreadable row of the node. -/
  deleted : ∀ jobId, (.deleteJob jobId, none) ∈ made → ∃ row ∈ before.cache,
    row.owner = node ∧ ¬ row.Converts ∧ row.namesNoJob = false ∧ row.jobId = jobId
  dropped : ∀ id, (.deleteRow id, none) ∈ made →
    ∃ row ∈ before.cache, row.owner = node ∧ row.namesNoJob = true ∧ row.id = id
  /-- A job id is moved for a readable row of the node, to another node that is alive. -/
  moved : ∀ jobId dest, newOwner (Mover.rows.moves made) jobId = some dest →
    before.members.isAlive dest = true ∧ dest ≠ node ∧
      ∃ row ∈ before.cache, row.owner = node ∧ row.Converts ∧ row.jobId = jobId
  /-- A row of another node is as it was just if its job id was not removed and was not
  moved elsewhere. -/
  foreign : ∀ row ∈ before.cache, row.owner ≠ node → (row ∈ after.cache ↔
    (.deleteJob row.jobId, none) ∉ made ∧
      ∀ dest, newOwner (Mover.rows.moves made) row.jobId = some dest → dest = row.owner)
  /-- A readable row of the node stays just if its job id was not removed. -/
  readable : ∀ row ∈ before.cache, row.owner = node → row.Converts →
    ((∃ now ∈ after.cache, now.id = row.id) ↔ (.deleteJob row.jobId, none) ∉ made)
  /-- Where the node shares no job id, the others keep their rows as they are, and no
  readable row is removed. -/
  unshared : Unshared before.cache node →
    (∀ row ∈ before.cache, row.owner ≠ node → row ∈ after.cache) ∧
      ∀ row ∈ before.cache, row.owner = node → row.Converts → ∃ now ∈ after.cache, now.id = row.id

section Law

variable {world : World} {node : Address} {made : List Made}

theorem RowsTouched.stays_iff {row : CacheRow} (inside : row ∈ world.cache) :
    (∃ now ∈ (world.replay made).cache, now.id = row.id) ↔
      (.deleteJob row.jobId, none) ∉ made ∧ (.deleteRow row.id, none) ∉ made := by
  rw [← not_or]
  constructor
  · rintro ⟨now, member, same⟩
    exact (eq_movedBy_of_id inside member same).1
  · exact fun stays => ⟨row.movedBy made, movedBy_mem inside stays, rfl⟩

/-- No row is removed alone that names a job or is another node's. -/
theorem RowsTouched.not_dropped (touched : RowsTouched world node made) {row : CacheRow}
    (inside : row ∈ world.cache) (other : row.owner ≠ node ∨ row.namesNoJob = false) :
    (.deleteRow row.id, none) ∉ made := by
  intro dropped
  obtain ⟨found, ⟨foundIn, owned⟩, nameless, same⟩ := (touched.calls _ dropped).drops
  obtain rfl := Table.eq_of_key_eq foundIn inside same
  rcases other with notOwned | named
  · exact notOwned owned
  · cases nameless.symm.trans named

theorem RowsTouched.foreign_iff (touched : RowsTouched world node made) {row : CacheRow}
    (inside : row ∈ world.cache) (notOwned : row.owner ≠ node) :
    row ∈ (world.replay made).cache ↔ (.deleteJob row.jobId, none) ∉ made ∧
      ∀ dest, newOwner (Mover.rows.moves made) row.jobId = some dest → dest = row.owner := by
  have sameRow : row.movedBy made = row ↔
      ∀ dest, newOwner (Mover.rows.moves made) row.jobId = some dest → dest = row.owner := by
    unfold CacheRow.movedBy
    obtain ⟨id, jobId, owner, stage, group⟩ := row
    cases newOwner (Mover.rows.moves made) jobId <;> simp
  constructor
  · intro member
    obtain ⟨stays, same⟩ := eq_movedBy_of_id inside member rfl
    exact ⟨fun deleted => stays (.inl deleted), sameRow.1 same.symm⟩
  · rintro ⟨notDeleted, owner⟩
    have stays : ¬ row.RemovedBy made :=
      not_or.2 ⟨notDeleted, touched.not_dropped inside (.inl notOwned)⟩
    exact sameRow.2 owner ▸ movedBy_mem inside stays

theorem RowsTouched.readable_iff (touched : RowsTouched world node made) {row : CacheRow}
    (inside : row ∈ world.cache) (converts : row.Converts) :
    (∃ now ∈ (world.replay made).cache, now.id = row.id) ↔ (.deleteJob row.jobId, none) ∉ made :=
  (stays_iff inside).trans (and_iff_left (touched.not_dropped inside (.inr converts.1)))

theorem RowsTouched.deleted (touched : RowsTouched world node made) {jobId : String}
    (deleted : (.deleteJob jobId, none) ∈ made) : ∃ row ∈ world.cache,
      row.owner = node ∧ ¬ row.Converts ∧ row.namesNoJob = false ∧ row.jobId = jobId := by
  obtain ⟨row, flaw, ⟨inside, owned⟩, read, named, same⟩ := (touched.calls _ deleted).deletes
  exact ⟨row, inside, owned, CacheRow.not_converts_iff.2 ⟨flaw, read⟩, named, same⟩

theorem RowsTouched.fate (touched : RowsTouched world node made) :
    FateByJobId world (world.replay made) node made := by
  have movedFor : ∀ jobId dest, newOwner (Mover.rows.moves made) jobId = some dest →
      ∃ row ∈ world.cache, row.owner = node ∧ row.Converts ∧ row.jobId = jobId := by
    intro jobId dest moved
    refine touched.moved jobId (by_contra fun notMoved => ?_)
    cases (newOwner_eq_none_iff.2 notMoved).symm.trans moved
  constructor
  case known =>
    intro now member
    obtain ⟨row, inside, fated⟩ := World.mem_replay_cache.1 member
    obtain ⟨_, rfl⟩ := CacheRow.fate_eq_some_iff.1 fated
    exact ⟨row, inside, rfl⟩
  case stays => exact fun row inside => RowsTouched.stays_iff inside
  case moves => exact fun row inside now member same => (eq_movedBy_of_id inside member same).2
  case deleted => exact fun jobId => touched.deleted
  case dropped =>
    intro id dropped
    obtain ⟨row, ⟨inside, owned⟩, nameless, same⟩ := (touched.calls _ dropped).drops
    exact ⟨row, inside, owned, nameless, same⟩
  case moved =>
    intro jobId dest moved
    obtain ⟨alive, apart⟩ :=
      Membership.mem_others.1 (TakeoverCall.newOwner_among touched.calls moved)
    exact ⟨alive, apart, movedFor jobId dest moved⟩
  case foreign => exact fun row inside => touched.foreign_iff inside
  case readable => exact fun row inside _ => touched.readable_iff inside
  case unshared =>
    intro unshared
    refine ⟨fun row inside notOwned => ?_, fun row inside owned converts => ?_⟩
    · refine (touched.foreign_iff inside notOwned).2 ⟨fun deleted => ?_, fun dest moved => ?_⟩
      · obtain ⟨found, foundIn, owned, _, named, same⟩ := touched.deleted deleted
        exact notOwned (unshared found foundIn owned named row inside same.symm ▸ owned)
      · obtain ⟨found, foundIn, owned, converts, same⟩ := movedFor _ dest moved
        exact absurd (unshared found foundIn owned converts.1 row inside same.symm ▸ owned) notOwned
    · refine (touched.readable_iff inside converts).2 fun deleted => ?_
      obtain ⟨found, foundIn, _, unread, _, same⟩ := touched.deleted deleted
      exact unread (unshared row inside owned converts.1 found foundIn same ▸ converts)

end Law

/-- At any point of a takeover every row of the cache has gone by its job id. So rows of
other nodes are as they were, and no readable row was removed, where the node shares no
job id with another row. -/
theorem rows_share_fate (id : TaskId) (chances : Chances) (settings : Settings) (node : Address)
    (session : Session) (dead : session.world.members.isAlive node = false) {progress : Progress}
    {after : Session}
    (reaches : Reaches id chances settings node .opening session progress after) :
    ∃ made, after.calls = session.calls ++ made ∧
      FateByJobId session.world after.world node made := by
  have start : Follows session.world node session.calls session :=
    ⟨[], by simp, rfl, ⟨fun _ member => absurd member List.not_mem_nil,
      fun _ member => absurd member List.not_mem_nil⟩⟩
  obtain ⟨made, told, same, touched⟩ := reaches.keeps
    (fun _ reached => Follows session.world node session.calls reached)
    (fun _ _ _ _ played follows => follows.round dead played) start
  exact ⟨made, told, same ▸ touched.fate⟩

/-- An unreadable row of a dead node, and the row of a node that is alive, with one job id. -/
private def sharing : World :=
  { World.initial with
    members := .ofList [(⟨"b:1"⟩, .heardAt ⟨0, 0⟩ 1)]
    cache := .ofList [⟨1, "j", ⟨"a:1"⟩, 7, none⟩, ⟨2, "j", ⟨"b:1"⟩, 1, none⟩] }

theorem rows_share_fate_of_two :
    ∃ report after made,
      Reaches 0 .calm default ⟨"a:1"⟩ .opening (.opening (.initial default sharing))
        (.finished report) after ∧
      after.calls = [] ++ made ∧ FateByJobId sharing after.world ⟨"a:1"⟩ made := by
  have reaches : Reaches 0 .calm default ⟨"a:1"⟩ .opening
      (.opening (.initial default sharing)) _ _ := ⟨6, rfl⟩
  obtain ⟨made, told, fate⟩ := rows_share_fate 0 .calm default ⟨"a:1"⟩ _ (by decide) reaches
  exact ⟨_, _, made, reaches, told, fate⟩

/-- The row of the node that is alive is removed with that of the dead one. -/
theorem row_of_alive_node_removed :
    ∃ report after,
      Reaches 0 .calm default ⟨"a:1"⟩ .opening (.opening (.initial default sharing))
        (.finished report) after ∧
      sharing.members.isAlive ⟨"b:1"⟩ = true ∧
      (⟨2, "j", ⟨"b:1"⟩, 1, none⟩ : CacheRow) ∈ sharing.cache ∧
      (⟨2, "j", ⟨"b:1"⟩, 1, none⟩ : CacheRow) ∉ after.world.cache := by
  refine ⟨_, _, ⟨6, rfl⟩, by decide, ?_, List.not_mem_nil⟩
  exact List.mem_cons_of_mem _ List.mem_cons_self

end Handover.Takeover
