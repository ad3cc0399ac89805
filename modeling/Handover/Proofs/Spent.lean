import Handover.Proofs.Cleared
import Handover.Proofs.Course
import Handover.Proofs.Writes

/-!
Contract: a takeover that finds nothing to do.

Owns: stores that are left as they are; what is so of a dead node that a takeover is done
with; and the law that another takeover then changes no store and counts nothing, as long
as it is answered by what the stores hold.

Nothing is said of the order of calls. A script that is answered from stores which do not
change makes no call that changes them, whoever weighs and whatever happens in between.
-/

set_option autoImplicit false

namespace Handover

open Coordinator (TaskId State)

/-! ## Stores that stay as they are -/

/-- The job store, the cache store and the membership table are the same. -/
structure World.Alike (left right : World) : Prop where
  jobs : right.jobs = left.jobs
  cache : right.cache = left.cache
  members : right.members = left.members

namespace World

variable {world other : World} {request : Call}

theorem Alike.refl (world : World) : world.Alike world := ⟨rfl, rfl, rfl⟩

theorem Alike.trans {third : World} (first : world.Alike other) (second : other.Alike third) :
    world.Alike third :=
  ⟨second.jobs.trans first.jobs, second.cache.trans first.cache, second.members.trans first.members⟩

/-- To carry out the call leaves the stores as they are. -/
def Spares (world : World) (request : Call) : Prop :=
  ∀ other, world.Alike other → world.Alike (other.carryOut .none request).2

/-- The reply says what the stores hold. -/
def Answers (world : World) (request : Call) (reply : request.Reply) : Prop :=
  ∃ other weigher, world.Alike other ∧ reply = .ok (other.carryOut weigher request).1

theorem Spares.carryOut (spares : world.Spares request) (alike : world.Alike other)
    (weigher : Weigher) : world.Alike (other.carryOut weigher request).2 := by
  rw [carryOut_snd_weigher other weigher .none]
  exact spares other alike

/-- Effects that leave the stores as they are, calls that do so, and replies of what they hold. -/
def still (world : World) : Terms where
  deeds deed := ∀ node, deed ≠ .heartbeat node
  calls := world.Spares
  replies := world.Answers

end World

/-- A script that leaves the stores as they are, played where nothing is refused. -/
theorem Script.Keeps.of_play {α : Type} {id : TaskId} {chances : Chances} {world : World}
    {script : Script α} {goal : α → Prop} (keeps : script.Keeps world.still goal)
    (unrefused : ∀ turn request, (chances turn).refused request = none) {session after : Session}
    {value : α} (alike : world.Alike session.world)
    (played : script.play id chances session = some (value, after)) :
    goal value ∧ world.Alike after.world := by
  induction script generalizing session with
  | done value =>
      cases played
      exact ⟨keeps, alike⟩
  | call request next inductionHypothesis =>
      have answered : session.answer id chances request =
          (.ok (session.world.carryOut (chances session.turn).weigher request).1,
            session.afterCall id request ((chances session.turn).refusal request)
              (session.world.carryOut (chances session.turn).weigher request).2) := by
        simp only [Session.answer, unrefused, World.reply_accepted]
      rw [Script.play, answered] at played
      exact inductionHypothesis _ (keeps.2 _ ⟨_, _, alike, rfl⟩)
        (keeps.1.carryOut alike _) played
  | effect deed next inductionHypothesis =>
      obtain ⟨⟨result, state⟩, happened, played⟩ := Option.bind_eq_some_iff.1 played
      have same : state.world = session.world := by
        rw [State.afterEffect_world happened]
        cases deed with
        | heartbeat node => exact absurd rfl (keeps.1 node)
        | _ => rfl
      have alikeThen : world.Alike state.world := by
        rw [same]
        exact alike
      exact inductionHypothesis result (keeps.2 result) alikeThen played

namespace Takeover

/-! ## Nothing to do -/

/-- A dead node that a takeover is done with: what it still has can go nowhere, its rows can all
be read, and its record tells that it needs recovery. -/
structure Spent (world : World) (node : Address) : Prop where
  handed : world.members.others node = [] ∨ Cleared world node
  readable : ∀ row ∈ world.cache, row.owner = node → row.Converts
  marked : (∃ job ∈ world.jobs, job.HeldBy node) ∨ (∃ row ∈ world.cache, row.owner = node) →
    world.members.record? node = some .neverAlive

/-- Nothing was counted. -/
structure Tally.Nothing (tally : Tally) : Prop where
  reassigned : tally.reassigned = 0
  failed : tally.failed = 0

/-- The report tells that nothing was moved and no unreadable row was dealt with. -/
structure Report.Idle (report : Report) : Prop where
  jobsReassigned : report.jobsReassigned = 0
  cacheReassigned : report.cacheReassigned = 0
  cacheFailed : report.cacheFailed = 0

/-- So far nothing was counted, and pages are read only of a dead node. -/
def Quiet (world : World) (node : Address) : Progress → Prop
  | .opening => True
  | .jobPage _ tally => world.members.isAlive node = false ∧ tally.Nothing
  | .opened jobs => jobs.Nothing
  | .cachePage jobs _ tally => world.members.isAlive node = false ∧ jobs.Nothing ∧ tally.Nothing
  | .closing jobs cache => jobs.Nothing ∧ cache.Nothing
  | .finished report => report.Idle

private theorem nothing_at_first : Tally.Nothing {} := ⟨rfl, rfl⟩

section Parts

variable {world : World} {node : Address} {pageSize : Nat}

/-- A call that only reads spares the stores. -/
private theorem spares_of_reads {request : Call} (reads : ∀ other : World,
    (other.carryOut .none request).2 = other) : world.Spares request :=
  fun other alike => (reads other).symm ▸ alike

private theorem answers_isAlive {alive : Bool} (told : world.Answers (.isAlive node) (.ok alive)) :
    alive = world.members.isAlive node := by
  obtain ⟨other, weigher, alike, ⟨⟩⟩ := told
  exact congrArg (Membership.isAlive · node) alike.members

/-- To reset the record of a node that needs recovery changes nothing. -/
theorem Spent.spares_reset (spent : Spent world node)
    (left : (∃ job ∈ world.jobs, job.HeldBy node) ∨ ∃ row ∈ world.cache, row.owner = node) :
    world.Spares (.reset node .neverAlive true) := by
  refine fun other alike => ⟨alike.jobs, alike.cache, ?_⟩
  change other.members.set node .neverAlive = world.members
  rw [alike.members]
  exact Membership.set_of_record? (spent.marked left)

/-- A split among nobody makes no call. -/
private theorem moveJobs_nobody (ids : List RowId) (shares : Option Shares) :
    moveJobs (distribute ids shares []) = .done 0 := rfl

private theorem moveRows_nobody (jobIds : List String) (shares : Option Shares) :
    moveRows (distribute jobIds shares []) = .done 0 := rfl

private theorem sharesFor_still (demand : Demand) :
    (sharesFor demand).Keeps world.still fun _ => True :=
  sharesFor_keeps (fun _ => spares_of_reads fun _ => rfl) demand

private theorem moveKind_nobody (kind : ScheduleKind) (page : List Job) :
    (moveKind kind page []).Keeps world.still fun count => count = 0 := by
  unfold moveKind
  dsimp only
  split
  · exact rfl
  · exact .bind (sharesFor_still _) fun shares _ => moveJobs_nobody _ shares ▸ rfl

private theorem moveGroups_nobody (submissions : List Submission) (groups : List (Option String)) :
    (moveGroups submissions [] groups).Keeps world.still fun count => count = 0 := by
  induction groups with
  | nil => exact rfl
  | cons group rest inductionHypothesis =>
      refine .bind (sharesFor_still _) fun shares _ => ?_
      rw [moveRows_nobody, Script.done_bind]
      exact .bind inductionHypothesis fun later noneLater => by simp [noneLater, Script.Keeps]

private theorem moveSubmitted_nobody (submissions : List Submission) :
    (moveSubmitted submissions []).Keeps world.still fun count => count = 0 := by
  unfold moveSubmitted
  dsimp only
  split
  · exact rfl
  · exact moveRows_nobody _ none ▸ rfl

private theorem dealWithFlaws_readable {page : List CacheRow} (readable : ∀ row ∈ page, row.Converts) :
    dealWithFlaws page = .done 0 := by
  induction page with
  | nil => rfl
  | cons row rest inductionHypothesis =>
      obtain ⟨one, read⟩ := CacheRow.converts_iff.1 (readable row List.mem_cons_self)
      rw [dealWithFlaws, read]
      exact inductionHypothesis fun other member => readable other (List.mem_cons_of_mem _ member)

private theorem destinations_nobody (none : world.members.others node = []) :
    (destinations node).run.Keeps world.still fun result => ∀ nodes, result = .ok nodes → nodes = [] := by
  refine .attemptAsk (spares_of_reads fun _ => rfl) (fun _ => nofun) ?_
  rintro _ ⟨other, weigher, alike, ⟨⟩⟩ nodes ⟨⟩
  change other.members.others node = []
  rw [alike.members, none]

end Parts

/-! ## Rounds -/

section Rounds

variable {world : World} {node : Address} {pageSize : Nat} {settings : Settings}

/-- Where a page is not empty, the node has work that can go nowhere. -/
private theorem Spent.nobody (spent : Spent world node)
    (left : (∃ job ∈ world.jobs, job.HeldBy node) ∨ ∃ row ∈ world.cache, row.owner = node) :
    world.members.others node = [] := by
  rcases spent.handed with none | cleared
  · exact none
  · rcases left with ⟨job, member, held⟩ | ⟨row, member, owned⟩
    · exact absurd held (cleared.jobs job member)
    · exact absurd owned (cleared.rows row member)

theorem Spent.jobRound (spent : Spent world node) (dead : world.members.isAlive node = false)
    {after : RowId} {tally : Tally} (nothing : tally.Nothing) :
    (jobRound pageSize node after tally).run.Keeps world.still fun result =>
      ∀ next, result = .ok next → Quiet world node next := by
  have left : ∀ {other : World} {last : RowId} {limit : Nat} {job : Job}, world.Alike other →
      job ∈ other.jobs.page last JobStatus.unfinished node limit → ∃ job ∈ world.jobs, job.HeldBy node := by
    intro other last limit job alike member
    obtain ⟨inside, _, held⟩ := Jobs.mem_page member
    exact ⟨job, alike.jobs ▸ inside, held⟩
  unfold Takeover.jobRound
  refine .attemptAsk (spares_of_reads fun _ => rfl) (fun _ => nofun) ?_
  rintro _ ⟨listed, weigher, alike, ⟨⟩⟩
  split
  case h_1 =>
    refine .attemptAsk (spares_of_reads fun _ => rfl) (fun _ => nofun) ?_
    rintro _ ⟨looked, weigher, alikeThen, ⟨⟩⟩
    split
    case isTrue =>
      rintro next ⟨⟩
      exact nothing
    case isFalse something =>
      obtain ⟨job, member⟩ := List.exists_mem_of_ne_nil _ fun empty => something (List.isEmpty_iff.2 empty)
      refine .attemptAsk (spent.spares_reset (.inl (left alikeThen member))) (fun _ => nofun) fun _ _ => ?_
      rintro next ⟨⟩
      exact ⟨nothing.reassigned, nothing.failed⟩
  case h_2 last isLast =>
    have none := spent.nobody (.inl (left alike (List.mem_of_getLast? isLast)))
    refine .attempt (destinations_nobody none) (fun _ _ => nofun) fun nodes nobody => ?_
    obtain rfl := nobody nodes rfl
    refine .attemptOf (moveKind_nobody .cron _) fun cron noCron => ?_
    refine .attemptOf (moveKind_nobody .backfill _) fun backfill noBackfill => ?_
    rintro next ⟨⟩
    exact ⟨dead, by simp [noCron, noBackfill, nothing.reassigned], nothing.failed⟩

theorem Spent.cacheRound (spent : Spent world node) (dead : world.members.isAlive node = false)
    {jobs tally : Tally} {after : RowId} (noJobs : jobs.Nothing) (nothing : tally.Nothing) :
    (cacheRound pageSize node jobs after tally).run.Keeps world.still fun result =>
      ∀ next, result = .ok next → Quiet world node next := by
  have listing : ∀ {other : World} {last : RowId} {limit : Nat} {row : CacheRow}, world.Alike other →
      row ∈ other.cache.page last node Option.none Option.none limit →
        row ∈ world.cache ∧ row.owner = node := by
    intro other last limit row alike member
    obtain ⟨inside, _, owned⟩ := Cache.mem_page member
    exact ⟨alike.cache ▸ inside, owned⟩
  unfold Takeover.cacheRound
  refine .attemptAsk (spares_of_reads fun _ => rfl) (fun _ => nofun) ?_
  rintro _ ⟨listed, weigher, alike, ⟨⟩⟩
  split
  case h_1 =>
    refine .attemptAsk (spares_of_reads fun _ => rfl) (fun _ => nofun) ?_
    rintro _ ⟨looked, weigher, alikeThen, ⟨⟩⟩
    split
    case isTrue =>
      rintro next ⟨⟩
      exact ⟨noJobs, nothing⟩
    case isFalse something =>
      obtain ⟨row, member⟩ := List.exists_mem_of_ne_nil _ fun empty => something (List.isEmpty_iff.2 empty)
      refine .attemptAsk (spent.spares_reset (.inr ⟨row, listing alikeThen member⟩)) (fun _ => nofun)
        fun _ _ => ?_
      rintro next ⟨⟩
      exact ⟨noJobs, nothing.reassigned, nothing.failed⟩
  case h_2 last isLast =>
    have none := spent.nobody (.inr ⟨last, listing alike (List.mem_of_getLast? isLast)⟩)
    have readable : ∀ row ∈ listed.cache.page after node Option.none Option.none pageSize, row.Converts :=
      fun row member => spent.readable row (listing alike member).1 (listing alike member).2
    have noFlaws : (dealWithFlaws (listed.cache.page after node Option.none Option.none pageSize)).Keeps
        world.still fun count => count = 0 := dealWithFlaws_readable readable ▸ rfl
    refine .attemptOf noFlaws fun dealt noneDealt => ?_
    refine .attempt (destinations_nobody none) (fun _ _ => nofun) fun nodes nobody => ?_
    obtain rfl := nobody nodes rfl
    refine .attemptOf (moveGroups_nobody _ _) fun queued noQueued => ?_
    refine .attemptOf (moveSubmitted_nobody _) fun submitted noSubmitted => ?_
    rintro next ⟨⟩
    exact ⟨dead, noJobs, by simp [noQueued, noSubmitted, nothing.reassigned],
      by simp [noneDealt, nothing.failed]⟩

/-- A takeover of a node that is alive, or that a takeover is done with, changes no store and
counts nothing. -/
theorem round_still (spent : world.members.isAlive node = false → Spent world node)
    {progress : Progress} (quiet : Quiet world node progress) :
    (round settings node progress).Keeps world.still (Quiet world node) := by
  cases progress with
  | opening =>
      refine orElse_keeps ?_ nothing_at_first
      refine .attemptAsk (spares_of_reads fun _ => rfl) (fun _ => nofun) fun alive told => ?_
      have same := answers_isAlive told
      rintro next ⟨⟩
      cases alive with
      | true => exact ⟨rfl, rfl⟩
      | false => exact ⟨same.symm, nothing_at_first⟩
  | jobPage after tally =>
      exact orElse_keeps ((spent quiet.1).jobRound quiet.1 quiet.2) nothing_at_first
  | opened jobs =>
      refine orElse_keeps ?_ ⟨quiet, nothing_at_first⟩
      refine .attemptAsk (spares_of_reads fun _ => rfl) (fun _ => nofun) fun alive told => ?_
      have same := answers_isAlive told
      rintro next ⟨⟩
      cases alive with
      | true => exact ⟨quiet, rfl, rfl⟩
      | false => exact ⟨same.symm, quiet, nothing_at_first⟩
  | cachePage jobs after tally =>
      exact orElse_keeps ((spent quiet.1).cacheRound quiet.1 quiet.2.1 quiet.2.2) ⟨quiet.2.1, nothing_at_first⟩
  | closing jobs cache =>
      refine .bind (settle_keeps_terms (fun _ => nofun) (fun _ => nofun) jobs cache) fun _ _ => ?_
      refine .bind (broadcast_keeps (spares_of_reads fun _ => rfl) ?_ ?_ _) fun _ _ => ?_
      · exact fun other alike => ⟨alike.jobs, alike.cache, alike.members⟩
      · exact fun target other alike => ⟨alike.jobs, alike.cache, alike.members⟩
      · exact ⟨quiet.1.reassigned, quiet.2.reassigned, quiet.2.failed⟩
  | finished report => exact quiet

end Rounds

end Takeover

end Handover
