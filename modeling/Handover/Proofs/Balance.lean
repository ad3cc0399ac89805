import Handover.Proofs.CalmRows
import Handover.Proofs.Closing
import Handover.Proofs.Marks

/-!
Contract: how evenly a takeover spreads the jobs of a node when nobody weighs.

Owns: how many jobs of a kind each of the other nodes has in the end, told page by
page, and the exact condition under which the whole is as even as a single split.

Every page is split by itself, and the remainder of every split goes to the first
addresses. So the whole is balanced just when at most one page holds a number of jobs
of the kind that the nodes cannot share equally; where all jobs fit on one page this
is always so.
-/

set_option autoImplicit false

namespace Handover

open Coordinator (TaskId State)

/-! ## Owners after a takeover -/

namespace Jobs

/-- The owner of the job with a row id. -/
def ownerOf (jobs : Jobs) (id : RowId) : Option Address := (jobs.find? id).map Job.owner

/-- Where every job was changed in place, owners are read off the changed jobs. -/
theorem ownerOf_of_rows {before after : Jobs} {change : Job → Job}
    (rows : after.rows = before.rows.map change) (keepsId : ∀ job, (change job).id = job.id)
    {job : Job} (inside : job ∈ before) : after.ownerOf job.id = some (change job).owner := by
  have changed : change job ∈ after := by
    rw [Table.mem_def, rows]
    exact List.mem_map_of_mem inside
  have found : after.find? job.id = some (change job) :=
    Table.find?_eq_some_iff.2 ⟨changed, keepsId job⟩
  rw [ownerOf, found, Option.map_some]

end Jobs

/-- How many of the jobs of a kind that were listed for a node belong to `dest` afterwards. -/
def handedTo (before after : Jobs) (node : Address) (kind : ScheduleKind) (dest : Address) : Nat :=
  (before.listing node 0).countP fun job =>
    decide (job.kind = kind ∧ after.ownerOf job.id = some dest)

/-- How many jobs of a kind are listed for a node. -/
def listedOf (jobs : Jobs) (node : Address) (kind : ScheduleKind) : Nat :=
  (jobs.listing node 0).countP fun job => decide (job.kind = kind)

/-- How many jobs of a kind there are on each page of a node's listing. -/
def pageTotals (jobs : Jobs) (node : Address) (size : Nat) (kind : ScheduleKind) : List Nat :=
  (pagesOf size (jobs.listing node 0)).map fun page => page.countP fun job => decide (job.kind = kind)

theorem sum_pageTotals {size : Nat} (positive : 0 < size) (jobs : Jobs) (node : Address)
    (kind : ScheduleKind) : (pageTotals jobs node size kind).sum = listedOf jobs node kind := by
  have whole := List.countP_flatten (p := fun job : Job => decide (job.kind = kind))
    (l := pagesOf size (jobs.listing node 0))
  rw [flatten_pagesOf positive] at whole
  exact whole.symm

theorem Membership.ordered_others (members : Membership) (node : Address) :
    (members.others node).Pairwise (· < ·) := by
  have ordered := members.ordered.filter fun member => member.2.alive
  have names : members.aliveNodes.Pairwise (· < ·) := List.pairwise_map.2 ordered
  exact names.filter _

namespace Takeover

/-- Each page of a node's jobs was split evenly over the others, and nothing else was moved. -/
structure EvenByPage (before after : World) (node : Address) (size : Nat) (kind : ScheduleKind) :
    Prop where
  /-- The node at a position has its even share of every page. -/
  share : ∀ position (inside : position < (before.members.others node).length),
    handedTo before.jobs after.jobs node kind (before.members.others node)[position] =
      shareOver (before.members.others node).length (pageTotals before.jobs node size kind) position
  total : ((before.members.others node).map (handedTo before.jobs after.jobs node kind)).sum =
    listedOf before.jobs node kind
  /-- A job with the id 0 is never listed, so it stays. -/
  unlisted : ∀ job ∈ before.jobs, job.HeldBy node → job.id = 0 → after.jobs.ownerOf 0 = some node
  /-- The whole is as even as one split if all pages but one share equally, and not else. -/
  balanced : (∀ dest ∈ before.members.others node,
      handedTo before.jobs after.jobs node kind dest =
          listedOf before.jobs node kind / (before.members.others node).length ∨
        handedTo before.jobs after.jobs node kind dest =
          listedOf before.jobs node kind / (before.members.others node).length + 1) ↔
    unevenCount (before.members.others node).length (pageTotals before.jobs node size kind) ≤ 1

section Balance

variable {world after : World} {node : Address} {size : Nat} {made : List Made}

/-- Among the jobs that were listed, those that belong to another node were moved to it. -/
theorem handedTo_eq_countP_newOwner {change : Job → Job}
    (rows : after.jobs.rows = world.jobs.rows.map change) (keepsId : ∀ job, (change job).id = job.id)
    (owner : ∀ job, (change job).owner = (job.movedBy made).owner) (kind : ScheduleKind)
    {dest : Address} (apart : dest ≠ node) :
    handedTo world.jobs after.jobs node kind dest =
      (world.jobs.listing node 0).countP fun job =>
        decide (job.kind = kind ∧ newOwner (Mover.jobs.moves made) job.id = some dest) := by
  refine List.countP_congr fun job listed => ?_
  obtain ⟨inside, _, held⟩ := Jobs.mem_listing_zero.1 listed
  rw [Jobs.ownerOf_of_rows rows keepsId inside, owner]
  simp only [decide_eq_true_eq, Option.some_inj, Job.movedBy]
  refine and_congr_right fun _ => ?_
  cases newOwner (Mover.jobs.moves made) job.id with
  | none => simpa [held.1] using apart.symm
  | some other => simp

/-- Once the pages of the listing were handed out and the owners stayed, each page was split
evenly. -/
theorem PagesHanded.even (handed : PagesHanded world node size made) (positive : 0 < size)
    (someone : world.members.others node ≠ []) {change : Job → Job}
    (rows : after.jobs.rows = world.jobs.rows.map change) (keepsId : ∀ job, (change job).id = job.id)
    (owner : ∀ job, (change job).owner = (job.movedBy made).owner) (kind : ScheduleKind) :
    EvenByPage world after node size kind := by
  have enough : 0 < (world.members.others node).length := List.length_pos_of_ne_nil someone
  have share : ∀ position (inside : position < (world.members.others node).length),
      handedTo world.jobs after.jobs node kind (world.members.others node)[position] =
        shareOver (world.members.others node).length (pageTotals world.jobs node size kind)
          position := by
    intro position inside
    have apart := (Membership.mem_others.1 (List.getElem_mem inside)).2
    have distinct : ((pagesOf size (world.jobs.listing node 0)).flatten.map Job.id).Nodup := by
      rw [flatten_pagesOf positive]
      exact Jobs.nodup_listing_ids
    have counted := countP_kind_newOwner (Membership.ordered_others _ _) distinct kind position inside
    rw [← handed.moves, flatten_pagesOf positive] at counted
    rw [handedTo_eq_countP_newOwner rows keepsId owner kind apart, counted, pageTotals]
  have shares : (world.members.others node).map (handedTo world.jobs after.jobs node kind) =
      (List.range (world.members.others node).length).map
        (shareOver (world.members.others node).length (pageTotals world.jobs node size kind)) := by
    apply List.ext_getElem
    · simp
    · intro position inside _
      rw [List.length_map] at inside
      simp [share position inside]
  constructor
  case share => exact share
  case total => rw [shares, sum_shareOver _ enough, sum_pageTotals positive]
  case unlisted =>
    intro job inside held zero
    have notMoved : job.id ∉ movedNames (Mover.jobs.moves made) := by
      rw [handed.moves, (pagesMoves_perm someone _).mem_iff, flatten_pagesOf positive]
      intro named
      obtain ⟨other, listed, same⟩ := List.mem_map.1 named
      have further := (Jobs.mem_listing_zero.1 listed).2.1
      rw [same, zero] at further
      exact Fin.lt_irrefl _ further
    rw [← zero, Jobs.ownerOf_of_rows rows keepsId inside, owner, Job.movedBy_of_not_moved notMoved,
      held.1]
  case balanced =>
    rw [← shareOver_balanced_iff _ enough, sum_pageTotals positive]
    constructor
    · intro balanced position inside
      rw [← share position inside]
      exact balanced _ (List.getElem_mem inside)
    · intro balanced dest among
      obtain ⟨position, inside, rfl⟩ := List.getElem_of_mem among
      rw [share position inside]
      exact balanced position inside

/-- Jobs that fit on one page are spread evenly. -/
theorem EvenByPage.balanced_of_one_page {kind : ScheduleKind}
    (even : EvenByPage world after node size kind)
    (fits : (world.jobs.listing node 0).length ≤ size) :
    ∀ dest ∈ world.members.others node,
      handedTo world.jobs after.jobs node kind dest =
          listedOf world.jobs node kind / (world.members.others node).length ∨
        handedTo world.jobs after.jobs node kind dest =
          listedOf world.jobs node kind / (world.members.others node).length + 1 := by
  refine even.balanced.2 ?_
  rw [pageTotals]
  by_cases empty : world.jobs.listing node 0 = []
  · rw [empty, pagesOf_nil]
    exact Nat.zero_le _
  · rw [pagesOf_of_length_le empty fits]
    exact List.countP_le_length

end Balance

/-- A takeover in which nothing is refused and nobody weighs comes to its end, and every page of
the node's jobs was split evenly over the other nodes. -/
theorem jobs_even_by_page (id : TaskId) (chances : Chances) (calm : Calm chances)
    (settings : Settings) (node : Address) (session : Session)
    (dead : session.world.members.isAlive node = false) (positive : 0 < settings.pageSize)
    (someone : session.world.members.others node ≠ []) :
    ∃ report after, Reaches id chances settings node .opening session (.finished report) after ∧
      ∀ kind, EvenByPage session.world after.world node settings.pageSize kind := by
  obtain ⟨_, jobCalls, middle, toMiddle, jobsContinue, count, rfl, handed⟩ :=
    calmStage_arrives id calm settings dead positive someone
  obtain ⟨deadStill, sameNodes⟩ := JobCall.replay_members handed.calls dead
  rw [← jobsContinue.world] at deadStill sameNodes
  obtain ⟨_, cacheCalls, last, toLast, cacheContinues, ⟨moved, failed, rfl⟩, noMoves⟩ :=
    calmRows_arrives id calm settings { reassigned := count } deadStill positive
      (sameNodes ▸ someone)
  have jobsNotSkipped : ({ reassigned := count } : Tally).skippedAlive = false := rfl
  have cacheNotSkipped : ({ reassigned := moved, failed := failed } : Tally).skippedAlive = false :=
    rfl
  have nothingLeft : (({ reassigned := count } : Tally).leftover ||
      ({ reassigned := moved, failed := failed } : Tally).leftover) = true →
        last.state.changing = none := fun left => by cases left
  obtain ⟨report, after, _, closing, _⟩ :=
    close_play id chances settings node jobsNotSkipped cacheNotSkipped nothingLeft
  refine ⟨report, after, (toMiddle.trans toLast).trans (.of_play closing), fun kind => ?_⟩
  obtain ⟨_, broadcastCalls, _, replayed, called⟩ := close_keeps closing
  have rows : after.world.jobs.rows = session.world.jobs.rows.map fun job =>
      (job.movedBy jobCalls).markedBy middle.world.jobs cacheCalls := by
    rw [replayed, (broadcasts_keeps called last.world).1, cacheContinues.world,
      World.replay_jobs_marked noMoves, jobsContinue.world,
      World.replay_jobs (JobCall.unmarked handed.calls), List.map_map]
    rfl
  exact handed.even positive someone rows (fun job => Job.markedBy_id) (fun job => Job.markedBy_owner)
    kind

/-- Two jobs of a dead node, and two nodes that are alive. -/
private def twoJobs : World :=
  { World.initial with
    members := .ofList [(⟨"b:1"⟩, .heardAt ⟨0, 0⟩ 1), (⟨"c:1"⟩, .heardAt ⟨0, 0⟩ 1)]
    jobs := .ofList [⟨1, "j1", ⟨"a:1"⟩, .running, .cron, none⟩,
      ⟨2, "j2", ⟨"a:1"⟩, .running, .cron, none⟩] }

/-- One job is on each page. -/
private def single : Settings := { (default : Settings) with pageSize := 1 }

theorem jobs_even_by_page_of_two :
    ∃ report after, Reaches 0 .calm single ⟨"a:1"⟩ .opening (.opening (.initial single twoJobs))
        (.finished report) after ∧
      ∀ kind, EvenByPage twoJobs after.world ⟨"a:1"⟩ 1 kind :=
  jobs_even_by_page 0 .calm Chances.calm_calm single ⟨"a:1"⟩ (.opening (.initial single twoJobs))
    (by decide) (by decide) (by decide)

/-- A job with the id 0. -/
private def zeroJob : World :=
  { World.initial with
    members := .ofList [(⟨"b:1"⟩, .heardAt ⟨0, 0⟩ 1)]
    jobs := .ofList [⟨0, "j", ⟨"a:1"⟩, .running, .cron, none⟩] }

/-- How many cron jobs a node holds. -/
private def heldCron (world : World) (node : Address) : Nat :=
  world.jobs.rows.countP fun job => decide (job.HeldBy node ∧ job.kind = .cron)

/-- The second of two nodes gets none of two jobs, where each should get one, if each job is on a
page of its own. The only other node gets none of one job, if that job has the id 0. -/
theorem two_pages_unbalanced :
    (∃ report after, Reaches 0 .calm single ⟨"a:1"⟩ .opening
        (.opening (.initial single twoJobs)) (.finished report) after ∧
      ¬ ∀ dest ∈ twoJobs.members.others ⟨"a:1"⟩,
        (after.world.jobs.ownedBy dest).length =
            heldCron twoJobs ⟨"a:1"⟩ / (twoJobs.members.others ⟨"a:1"⟩).length ∨
          (after.world.jobs.ownedBy dest).length =
            heldCron twoJobs ⟨"a:1"⟩ / (twoJobs.members.others ⟨"a:1"⟩).length + 1) ∧
    ∃ report after, Reaches 0 .calm single ⟨"a:1"⟩ .opening
        (.opening (.initial single zeroJob)) (.finished report) after ∧
      ¬ ∀ dest ∈ zeroJob.members.others ⟨"a:1"⟩,
        (after.world.jobs.ownedBy dest).length =
            heldCron zeroJob ⟨"a:1"⟩ / (zeroJob.members.others ⟨"a:1"⟩).length ∨
          (after.world.jobs.ownedBy dest).length =
            heldCron zeroJob ⟨"a:1"⟩ / (zeroJob.members.others ⟨"a:1"⟩).length + 1 :=
  ⟨⟨_, _, ⟨7, rfl⟩, by decide⟩, ⟨_, _, ⟨5, rfl⟩, by decide⟩⟩

end Takeover

end Handover
