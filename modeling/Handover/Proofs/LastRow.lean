import Handover.Proofs.Repeats
import Handover.Proofs.SharedIds
import Mathlib.Order.WellFounded

/-!
Contract: whether the listings of a takeover come to their end.

While its work is taken over the node gets no new work, and every page takes its rows from
behind the one before it. So the rows that a listing still has ahead become fewer with every
page, whichever calls are refused and whether or not a row can be moved.

The largest row id is the exception: it follows itself, so a listing that is resumed after
it tells its row again, for as long as that row stays with the node.

Owns: what calls leave with the node, how many rounds a takeover is from the end of both
stages, the law that the listings end unless they come to stand at the row with the largest
id for good, and a case in which they do.
-/

set_option autoImplicit false

namespace Handover

/-! ## Rows ahead -/

namespace Table

section Ahead

variable {α : Type} [Keyed α RowId] {before later : Table α} {wanted : α → Bool} {after : RowId}

/-- How many of the wanted rows a listing has ahead that is resumed after the row id. -/
def ahead (table : Table α) (wanted : α → Bool) (after : RowId) : Nat :=
  table.rows.countP fun row => wanted row && decide (after < key row)

/-- A table without a wanted row that the other lacks has no more of them ahead. -/
theorem ahead_le (within : ∀ row ∈ later, wanted row = true → row ∈ before) :
    later.ahead wanted after ≤ before.ahead wanted after := by
  unfold ahead
  rw [List.countP_eq_length_filter, List.countP_eq_length_filter]
  refine (List.subperm_of_subset (later.nodup_rows.filter _) fun row member => ?_).length_le
  obtain ⟨inside, passing⟩ := List.mem_filter.1 member
  exact List.mem_filter.2 ⟨within row inside (Bool.and_eq_true_iff.1 passing).1, passing⟩

/-- To resume a listing after one of the rows that it had ahead leaves fewer of them. -/
theorem ahead_lt (within : ∀ row ∈ later, wanted row = true → row ∈ before)
    {told : α} (inside : told ∈ before) (mine : wanted told = true) (behind : after < key told) :
    later.ahead wanted (key told) < before.ahead wanted after := by
  have apart : told ∉ before.rows.filter fun row => wanted row && decide (key told < key row) := by
    simp
  refine Nat.lt_of_le_of_lt (ahead_le within) ?_
  unfold ahead
  rw [List.countP_eq_length_filter, List.countP_eq_length_filter]
  refine (List.subperm_of_subset (List.nodup_cons.2 ⟨apart, before.nodup_rows.filter _⟩)
    fun row member => ?_).length_le
  rcases List.mem_cons.1 member with rfl | further
  · exact List.mem_filter.2 ⟨inside, by simp [mine, behind]⟩
  · obtain ⟨there, passing⟩ := List.mem_filter.1 further
    simp only [Bool.and_eq_true, decide_eq_true_eq] at passing
    exact List.mem_filter.2 ⟨there, by simp [passing.1, Fin.lt_trans behind passing.2]⟩

end Ahead

end Table

namespace Takeover

open Coordinator (TaskId)

/-! ## What calls leave with the node -/

/-- A row that has the property after a change was there before, where a change that leaves
the property leaves the row. -/
private theorem mem_of_mem_changed {α : Type} {rows : List α} {change : α → α} (holds : α → Prop)
    (unmoved : ∀ row, holds (change row) → change row = row) {row : α}
    (member : row ∈ rows.map change) (held : holds row) : row ∈ rows := by
  obtain ⟨old, inside, rfl⟩ := List.mem_map.1 member
  rw [unmoved old held]
  exact inside

/-- The call gives the node no work. -/
def Relieves (node : Address) : Call → Prop
  | .reassignJobs dest _ => dest ≠ node
  | .reassignCache dest _ => dest ≠ node
  | .markJob _ status _ => status.isUnfinished = false
  | _ => True

/-- All the work that the node has afterwards it had before. -/
structure Sheds (node : Address) (before after : World) : Prop where
  jobs : ∀ job ∈ after.jobs, job.HeldBy node → job ∈ before.jobs
  rows : ∀ row ∈ after.cache, row.owner = node → row ∈ before.cache

namespace Sheds

variable {node : Address} {before middle after : World}

theorem refl (node : Address) (world : World) : Sheds node world world where
  jobs := fun _ member _ => member
  rows := fun _ member _ => member

theorem trans (first : Sheds node before middle) (second : Sheds node middle after) :
    Sheds node before after where
  jobs := fun job member held => first.jobs job (second.jobs job member held) held
  rows := fun row member owned => first.rows row (second.rows row member owned) owned

theorem afterMade {one : Made} (relieves : Relieves node one.1) (world : World) :
    Sheds node world (world.afterMade one) := by
  obtain ⟨request, refused⟩ := one
  cases refused with
  | some text => exact .refl node world
  | none =>
      cases request
      case reassignJobs dest ids =>
        refine ⟨fun _ member held => mem_of_mem_changed (Job.HeldBy · node) (fun job moved => ?_)
          member held, fun _ member _ => member⟩
        split at moved
        case isTrue => exact absurd moved.1 relieves
        case isFalse unnamed => exact if_neg unnamed
      case markJob jobId status error =>
        refine ⟨fun _ member held => mem_of_mem_changed (Job.HeldBy · node) (fun job marked => ?_)
          member held, fun _ member _ => member⟩
        split at marked
        case isTrue => exact absurd (relieves.symm.trans marked.2) Bool.false_ne_true
        case isFalse other => exact if_neg other
      case reassignCache dest jobIds =>
        refine ⟨fun _ member _ => member, fun _ member owned =>
          mem_of_mem_changed (CacheRow.owner · = node) (fun row moved => ?_) member owned⟩
        split at moved
        case isTrue => exact absurd moved relieves
        case isFalse unnamed => exact if_neg unnamed
      case deleteJob jobId =>
        exact ⟨fun _ member _ => member, fun _ member _ => (Table.mem_filter.1 member).1⟩
      case deleteRow id =>
        exact ⟨fun _ member _ => member, fun _ member _ => (Table.mem_filter.1 member).1⟩
      all_goals exact ⟨fun _ member _ => member, fun _ member _ => member⟩

/-- Calls that give the node no work leave it with work that it had. -/
theorem of_continues {chances : Chances} {session last : Session} {made : List Made}
    (continues : Continues chances session last made) (relieves : ∀ one ∈ made, Relieves node one.1) :
    Sheds node session.world last.world := by
  rw [continues.world]
  exact World.replay_keeps (Sheds node session.world)
    (fun one member _ sheds => sheds.trans (.afterMade (relieves one member) _)) (.refl node _)

end Sheds

theorem JobCall.relieves {node : Address} {members : Membership} {request : Call}
    (call : JobCall node (members.others node) request) : Relieves node request := by
  cases call with
  | reassign _ among => exact (Membership.mem_others.1 among).2
  | _ => exact trivial

theorem CacheCall.relieves {node : Address} {members : Membership} {rows : CacheRow → Prop}
    {request : Call} (call : CacheCall node (members.others node) rows request) :
    Relieves node request := by
  cases call with
  | reassign _ among => exact (Membership.mem_others.1 among).2
  | flaw call => cases call <;> first | exact trivial | rfl
  | _ => exact trivial

/-! ## The way that is left -/

/-- How many unfinished jobs of the node a listing has ahead. -/
def jobsAhead (node : Address) (world : World) (after : RowId) : Nat :=
  world.jobs.ahead (fun job => decide (job.HeldBy node)) after

/-- How many rows of the node a listing of the cache has ahead. -/
def rowsAhead (node : Address) (world : World) (after : RowId) : Nat :=
  world.cache.ahead (fun row => decide (row.owner = node)) after

section Ahead

variable {node : Address} {before later : World} {after : RowId}

theorem Sheds.jobsAhead_le (sheds : Sheds node before later) (after : RowId) :
    jobsAhead node later after ≤ jobsAhead node before after :=
  Table.ahead_le fun job member held => sheds.jobs job member (of_decide_eq_true held)

theorem Sheds.rowsAhead_le (sheds : Sheds node before later) (after : RowId) :
    rowsAhead node later after ≤ rowsAhead node before after :=
  Table.ahead_le fun row member owned => sheds.rows row member (of_decide_eq_true owned)

theorem Sheds.jobsAhead_lt (sheds : Sheds node before later) {job : Job} (inside : job ∈ before.jobs)
    (held : job.HeldBy node) (behind : after < job.id) :
    jobsAhead node later job.id < jobsAhead node before after :=
  Table.ahead_lt (fun other member mine => sheds.jobs other member (of_decide_eq_true mine)) inside
    (decide_eq_true held) behind

theorem Sheds.rowsAhead_lt (sheds : Sheds node before later) {row : CacheRow}
    (inside : row ∈ before.cache) (owned : row.owner = node) (behind : after < row.id) :
    rowsAhead node later row.id < rowsAhead node before after :=
  Table.ahead_lt (fun other member mine => sheds.rows other member (of_decide_eq_true mine)) inside
    (decide_eq_true owned) behind

end Ahead

/-- How many rounds there are at most to the end of both stages, unless the row with the
largest id is listed over and over: one for each row that is ahead, and a few more. -/
def Progress.remaining (node : Address) (world : World) : Progress → Nat
  | .opening => jobsAhead node world 0 + rowsAhead node world 0 + 4
  | .jobPage after _ => jobsAhead node world after + rowsAhead node world 0 + 3
  | .opened _ => rowsAhead node world 0 + 2
  | .cachePage _ after _ => rowsAhead node world after + 1
  | .closing _ _ => 0
  | .finished _ => 0

/-- One of the two stages is still to be done. -/
def Progress.Underway : Progress → Prop
  | .closing _ _ => False
  | .finished _ => False
  | _ => True

/-- The listing stands at the largest row id, and the row with that id is with the node. -/
inductive AtLast (node : Address) (world : World) : Progress → Prop
  | job (tally : Tally) {job : Job} (inside : job ∈ world.jobs) (largest : job.id = .last)
      (held : job.HeldBy node) : AtLast node world (.jobPage .last tally)
  | row (jobs tally : Tally) {row : CacheRow} (inside : row ∈ world.cache)
      (largest : row.id = .last) (owned : row.owner = node) :
      AtLast node world (.cachePage jobs .last tally)

/-- What a round of a stage does to the way that is left. -/
structure Steps (node : Address) (before after : World) (progress next : Progress) : Prop where
  sheds : Sheds node before after
  onward : next.Underway ∨ ∃ jobs cache, next = .closing jobs cache
  /-- The way becomes shorter, but for a round at the row with the largest id. -/
  closer : next.remaining node after < progress.remaining node before ∨
    AtLast node before progress ∧ next.remaining node after ≤ progress.remaining node before

section Rounds

variable {id : TaskId} {chances : Chances} {settings : Settings} {node : Address}

/-- The question that opens a stage changes nothing. -/
private theorem opens_steps {progress skipped begun broken : Progress} (session : Session)
    (towards : ∀ next, next = skipped ∨ next = begun ∨ next = broken →
      (next.Underway ∨ ∃ jobs cache, next = .closing jobs cache) ∧
        next.remaining node session.world < progress.remaining node session.world) :
    (orElse (do let alive ← readsAlive node; return if alive then skipped else begun) broken).Leads
      id chances session fun next _ after => Steps node session.world after.world progress next := by
  apply (opens_outcomes skipped begun broken session).mono
  rintro next _ after _ ⟨same, outcome⟩
  have told : next = skipped ∨ next = begun ∨ next = broken := by
    rcases outcome with answered | refused
    · rw [answered]
      split
      · exact .inl rfl
      · exact .inr (.inl rfl)
    · exact .inr (.inr refused)
  obtain ⟨onward, closer⟩ := towards next told
  rw [same]
  exact ⟨.refl node session.world, onward, .inl closer⟩

private theorem jobPage_steps (after : RowId) (tally : Tally) (session : Session) :
    (round settings node (.jobPage after tally)).Leads id chances session fun next _ last =>
      Steps node session.world last.world (.jobPage after tally) next := by
  apply (orElse_leads (jobRound_leads after tally session) _).mono
  rintro next made last continues outcome
  have sheds : Sheds node session.world last.world := .of_continues continues fun one member => by
    rcases outcome with played | ⟨_, _, played⟩ <;> exact (played.calls one member).relieves
  have opens : ∀ jobs, (Progress.opened jobs).remaining node last.world <
      (Progress.jobPage after tally).remaining node session.world := by
    intro jobs
    have rows := sheds.rowsAhead_le 0
    simp only [Progress.remaining]
    omega
  rcases outcome with played | ⟨rfl, _⟩
  · cases played with
    | clear empty nothing => exact ⟨sheds, .inl trivial, .inl (opens _)⟩
    | left empty something => exact ⟨sheds, .inl trivial, .inl (opens _)⟩
    | @page told made isLast hands =>
        refine ⟨sheds, .inl trivial, ?_⟩
        obtain ⟨inside, reached, held⟩ := Jobs.mem_page (List.mem_of_getLast? isLast)
        have rows := sheds.rowsAhead_le 0
        simp only [Progress.remaining]
        rcases RowId.lt_or_last_of_following_le reached with behind | ⟨rfl, largest⟩
        · have fewer := sheds.jobsAhead_lt inside held behind
          left
          omega
        · have jobs := sheds.jobsAhead_le .last
          rw [largest]
          exact .inr ⟨.job tally inside largest held, by omega⟩
  · exact ⟨sheds, .inl trivial, .inl (opens _)⟩

private theorem cachePage_steps (jobs : Tally) (after : RowId) (tally : Tally) (session : Session) :
    (round settings node (.cachePage jobs after tally)).Leads id chances session fun next _ last =>
      Steps node session.world last.world (.cachePage jobs after tally) next := by
  apply (orElse_leads (cacheRound_leads jobs after tally session) _).mono
  rintro next made last continues outcome
  have sheds : Sheds node session.world last.world := .of_continues continues fun one member => by
    rcases outcome with played | ⟨_, _, played⟩ <;> exact (played.calls one member).relieves
  have closes : ∀ cache, Steps node session.world last.world (.cachePage jobs after tally)
      (.closing jobs cache) :=
    fun cache => ⟨sheds, .inr ⟨jobs, cache, rfl⟩, .inl (Nat.succ_pos _)⟩
  rcases outcome with played | ⟨rfl, _⟩
  · cases played with
    | clear empty nothing => exact closes _
    | left empty something => exact closes _
    | @page told dealt handed isLast deals hands made all =>
        refine ⟨sheds, .inl trivial, ?_⟩
        obtain ⟨inside, reached, owned⟩ := Cache.mem_page (List.mem_of_getLast? isLast)
        simp only [Progress.remaining]
        rcases RowId.lt_or_last_of_following_le reached with behind | ⟨rfl, largest⟩
        · have fewer := sheds.rowsAhead_lt inside owned behind
          left
          omega
        · have rows := sheds.rowsAhead_le .last
          rw [largest]
          exact .inr ⟨.row jobs tally inside largest owned, by omega⟩
  · exact closes _

theorem round_steps (id : TaskId) (chances : Chances) (settings : Settings) (node : Address)
    {progress : Progress} (underway : progress.Underway) (session : Session) :
    (round settings node progress).Leads id chances session fun next _ after =>
      Steps node session.world after.world progress next := by
  cases progress with
  | opening =>
      refine opens_steps session ?_
      rintro next (rfl | rfl | rfl)
      all_goals
        refine ⟨.inl trivial, ?_⟩
        simp only [Progress.remaining]
        omega
  | jobPage after tally => exact jobPage_steps after tally session
  | opened jobs =>
      refine opens_steps session ?_
      rintro next (rfl | rfl | rfl)
      · exact ⟨.inr ⟨_, _, rfl⟩, Nat.succ_pos _⟩
      · exact ⟨.inl trivial, Nat.lt_succ_self _⟩
      · exact ⟨.inr ⟨_, _, rfl⟩, Nat.succ_pos _⟩
  | cachePage jobs after tally => exact cachePage_steps jobs after tally session
  | closing jobs cache => exact underway.elim
  | finished report => exact underway.elim

end Rounds

/-! ## All rounds -/

section Courses

variable (id : TaskId) (chances : Chances) (settings : Settings) (node : Address)

/-- From some round on the listing stands at the row with the largest id for good. -/
def Circles (progress : Progress) (session : Session) : Prop :=
  ∃ first, ∀ more, ∃ later after,
    playRounds id chances settings node (first + more) progress session = some (later, after) ∧
      AtLast node after.world later

variable {id chances settings node} {progress : Progress} {session : Session}

theorem AtLast.underway {world : World} (atLast : AtLast node world progress) : progress.Underway := by
  cases atLast <;> trivial

/-- After the end of both stages there are no listings any more. -/
theorem ended_of_ended {count : Nat} {later : Progress} {after : Session} (ended : ¬ progress.Underway)
    (played : playRounds id chances settings node count progress session = some (later, after)) :
    ¬ later.Underway := by
  refine Reaches.keeps (fun progress _ => ¬ progress.Underway) ?_ ⟨count, played⟩ ended
  rintro (_ | _ | _ | _ | ⟨jobs, cache⟩ | report) session next after now ended
  case closing =>
    obtain ⟨⟨report, rfl⟩, _⟩ := close_keeps now
    exact not_false
  case finished =>
    cases now
    exact not_false
  all_goals exact absurd trivial ended

/-- Listings that come to their end do not stand at a row for good. -/
theorem not_circles_of_ended {later : Progress} {after : Session}
    (reaches : Reaches id chances settings node progress session later after)
    (ended : ¬ later.Underway) : ¬ Circles id chances settings node progress session := by
  rintro ⟨first, stands⟩
  obtain ⟨count, played⟩ := reaches
  obtain ⟨last, final, playedOn, atLast⟩ := stands count
  rw [Nat.add_comm, playRounds_add, played] at playedOn
  exact ended_of_ended ended playedOn atLast.underway

/-- Until both stages are at their end, round follows upon round. -/
theorem goes_on (underway : progress.Underway)
    (never : ∀ jobs cache last,
      ¬ Reaches id chances settings node progress session (.closing jobs cache) last) (count : Nat) :
    ∃ later after, playRounds id chances settings node count progress session = some (later, after) ∧
      later.Underway := by
  induction count with
  | zero => exact ⟨progress, session, rfl, underway⟩
  | succ count inductionHypothesis =>
      obtain ⟨later, after, played, still⟩ := inductionHypothesis
      obtain ⟨next, _, last, now, _, steps⟩ := round_steps id chances settings node still after
      have playedOn : playRounds id chances settings node (count + 1) progress session = some (next, last) := by
        rw [playRounds_succ, played]
        exact now
      refine ⟨next, last, playedOn, steps.onward.resolve_right ?_⟩
      rintro ⟨jobs, cache, rfl⟩
      exact never jobs cache last ⟨count + 1, playedOn⟩

/-- Listings that never come to their end stand at the row with the largest id for good:
from the round on after which the way becomes no shorter. -/
theorem circles_of_never (underway : progress.Underway)
    (never : ∀ jobs cache last,
      ¬ Reaches id chances settings node progress session (.closing jobs cache) last) :
    Circles id chances settings node progress session := by
  choose later after played still using goes_on underway never
  let way (count : Nat) : Nat := (later count).remaining node (after count).world
  have steps : ∀ count, Steps node (after count).world (after (count + 1)).world (later count)
      (later (count + 1)) := by
    intro count
    have now : (round settings node (later count)).play id chances (after count) =
        some (later (count + 1), after (count + 1)) := by
      have both := played (count + 1)
      rw [playRounds_succ, played count] at both
      exact both
    obtain ⟨_, _, steps⟩ := (round_steps id chances settings node (still count) (after count)).of_play now
    exact steps
  have shrinks : Antitone way :=
    antitone_nat_of_succ_le fun count => (steps count).closer.elim Nat.le_of_lt And.right
  refine ⟨Function.argmin way, fun more => ⟨_, _, played _, ?_⟩⟩
  rcases (steps (Function.argmin way + more)).closer with closer | ⟨atLast, _⟩
  · have least : way (Function.argmin way) ≤ way (Function.argmin way + more + 1) :=
      Function.argmin_le way _
    have below : way (Function.argmin way + more) ≤ way (Function.argmin way) :=
      shrinks (Nat.le_add_right _ _)
    exact absurd (Nat.le_trans below least) (Nat.not_le.2 closer)
  · exact atLast

/-- The node has no row with the largest id. -/
structure ClearOfLast (node : Address) (world : World) : Prop where
  jobs : ∀ job ∈ world.jobs, job.HeldBy node → job.id ≠ .last
  rows : ∀ row ∈ world.cache, row.owner = node → row.id ≠ .last

theorem ClearOfLast.of_sheds {before after : World} (clear : ClearOfLast node before)
    (sheds : Sheds node before after) : ClearOfLast node after where
  jobs := fun job member held => clear.jobs job (sheds.jobs job member held) held
  rows := fun row member owned => clear.rows row (sheds.rows row member owned) owned

theorem ClearOfLast.not_atLast {world : World} (clear : ClearOfLast node world) :
    ¬ AtLast node world progress := by
  rintro (⟨_, inside, largest, held⟩ | ⟨_, _, inside, largest, owned⟩)
  · exact clear.jobs _ inside held largest
  · exact clear.rows _ inside owned largest

/-- Where the node has no row with the largest id, every round makes the way shorter. -/
theorem closes_within (underway : progress.Underway) (clear : ClearOfLast node session.world) :
    ∃ count ≤ progress.remaining node session.world, ∃ jobs cache last,
      playRounds id chances settings node count progress session = some (.closing jobs cache, last) := by
  induction way : progress.remaining node session.world using Nat.strongRecOn
    generalizing progress session with
  | ind _ inductionHypothesis =>
      obtain ⟨next, _, after, now, _, steps⟩ :=
        round_steps id chances settings node underway session
      have closer := steps.closer.resolve_right fun stands => clear.not_atLast stands.1
      rw [way] at closer
      rcases steps.onward with still | ⟨jobs, cache, rfl⟩
      · obtain ⟨count, within, jobs, cache, last, played⟩ :=
          inductionHypothesis _ closer still (clear.of_sheds steps.sheds) rfl
        refine ⟨count + 1, Nat.lt_of_le_of_lt within closer, jobs, cache, last, ?_⟩
        rw [playRounds, now]
        exact played
      · refine ⟨1, Nat.lt_of_le_of_lt (Nat.zero_le _) closer, jobs, cache, after, ?_⟩
        rw [playRounds, now]
        rfl

/-! ## The law -/

variable (id chances settings node session)

/-- When the listings of a takeover come to their end, whichever calls are refused. -/
structure ListingsEnd : Prop where
  /-- They end unless they come to stand at the row with the largest id for good. -/
  ends : (∃ jobs cache last,
      Reaches id chances settings node .opening session (.closing jobs cache) last) ↔
    ¬ Circles id chances settings node .opening session
  /-- While nobody changes the mode the takeover is finished just if they end. -/
  finishes : session.state.changing = none →
    ((∃ report last, Reaches id chances settings node .opening session (.finished report) last) ↔
      ¬ Circles id chances settings node .opening session)
  /-- Where the node has no row with the largest id they end, after one round for each of its
  rows and four more at most. -/
  within : ClearOfLast node session.world →
    ∃ count ≤ jobsAhead node session.world 0 + rowsAhead node session.world 0 + 4,
      ∃ jobs cache last, playRounds id chances settings node count .opening session =
        some (.closing jobs cache, last)

theorem listings_end : ListingsEnd id chances settings node session := by
  have ends : (∃ jobs cache last,
      Reaches id chances settings node .opening session (.closing jobs cache) last) ↔
        ¬ Circles id chances settings node .opening session := by
    constructor
    · rintro ⟨jobs, cache, last, reaches⟩
      exact not_circles_of_ended reaches not_false
    · intro moves
      by_contra never
      exact moves (circles_of_never trivial fun jobs cache last reaches =>
        never ⟨jobs, cache, last, reaches⟩)
  refine ⟨ends, fun free => ⟨?ended, fun moves => ?finished⟩, fun clear => ?within⟩
  case ended =>
    rintro ⟨report, last, reaches⟩
    exact not_circles_of_ended reaches not_false
  case finished =>
    obtain ⟨jobs, cache, last, reaches⟩ := ends.2 moves
    have freeStill : last.state.changing = none := by
      refine reaches.keeps (fun _ session => session.state.changing = none) ?_ free
      intro progress session next after now still
      obtain ⟨_, _, played, freeAfter⟩ :=
        Script.play_ends id chances (round settings node progress) still
      cases played.symm.trans now
      exact freeAfter
    obtain ⟨report, final, closing, _⟩ := closing_ends id chances settings node jobs cache freeStill
    exact ⟨report, final, reaches.trans closing⟩
  case within =>
    have opening : Progress.opening.Underway := trivial
    exact closes_within opening clear

variable {id chances settings node session}

/-! ## A row that is listed for good -/

/-- A takeover that is still at the jobs of its dead node: one with the largest id is among
them, and nobody is there to take it over. -/
structure Stranded (node : Address) (job : Job) (progress : Progress) (session : Session) : Prop where
  listing : progress = .opening ∨ ∃ after tally, progress = .jobPage after tally
  dead : session.world.members.isAlive node = false
  nobody : session.world.members.others node = []
  inside : job ∈ session.world.jobs

/-- With nobody to go to, a job stays through any calls of the job stage. -/
theorem Stranded.of_calls {job : Job} {next : Progress} {after : Session} {made : List Made}
    (stranded : Stranded node job progress session)
    (calls : ∀ one ∈ made, JobCall node (session.world.members.others node) one.1)
    (continues : Continues chances session after made)
    (listing : ∃ after tally, next = .jobPage after tally) : Stranded node job next after := by
  obtain ⟨_, dead, nobody, inside⟩ := stranded
  have kept := JobCall.replay_members calls dead
  have unmoved : job.id ∉ movedNames (Mover.jobs.moves made) := by
    refine newOwner_eq_none_iff.1 (Option.eq_none_iff_forall_ne_some.2 fun dest moved => ?_)
    have among := JobCall.newOwner_among calls moved
    rw [nobody] at among
    cases among
  rw [← continues.world] at kept
  refine ⟨.inr listing, kept.1, kept.2.trans nobody, ?_⟩
  rw [continues.world, World.mem_replay_jobs (JobCall.unmarked calls)]
  exact ⟨job, inside, Job.movedBy_of_not_moved unmoved⟩

theorem Stranded.round {job : Job} {next : Progress} {after : Session}
    (stranded : Stranded node job progress session) (positive : 0 < settings.pageSize)
    (answered : Answered chances) (largest : job.id = .last) (held : job.HeldBy node)
    (played : (round settings node progress).play id chances session = some (next, after)) :
    Stranded node job next after := by
  rcases stranded.listing with rfl | ⟨last, tally, rfl⟩
  · obtain ⟨made, continues, outcome⟩ := (orElse_leads (opens_leads _ _ session) _).of_play played
    rcases outcome with ⟨rfl, rfl⟩ | ⟨_, _, text, rfl⟩
    · refine stranded.of_calls (fun one member => ?_) continues ?_
      · rw [List.mem_singleton.1 member]
        exact .isAlive
      · rw [stranded.dead]
        exact ⟨0, {}, rfl⟩
    · exact absurd (by simp [decides]) (answered.not_broke continues)
  · obtain ⟨made, continues, outcome⟩ := (orElse_leads (jobRound_leads last tally session) _).of_play played
    -- the largest id is listed from wherever the listing is resumed
    have listed : session.world.jobs.page last JobStatus.unfinished node settings.pageSize ≠ [] := by
      intro empty
      refine (Jobs.page_eq_nil_iff positive).1 empty job stranded.inside ?_ held
      rw [largest]
      exact last.following.le_last
    rcases outcome with outcome | ⟨_, fault, outcome⟩
    · have calls := outcome.calls
      cases outcome with
      | clear empty nothing => exact absurd empty listed
      | left empty something => exact absurd empty listed
      | page isLast hands => exact stranded.of_calls calls continues ⟨_, _, rfl⟩
    · cases outcome with
      | broke _ broke => exact absurd broke (answered.not_broke continues)

/-- Nobody takes over the job with the largest id, and the listing never gets past it. -/
theorem Stranded.circles {job : Job} (stranded : Stranded node job progress session)
    (positive : 0 < settings.pageSize) (answered : Answered chances) (largest : job.id = .last)
    (held : job.HeldBy node) : Circles id chances settings node progress session := by
  refine circles_of_never ?_ fun jobs cache last reaches => ?_
  · rcases stranded.listing with rfl | ⟨_, _, rfl⟩ <;> trivial
  · have still := reaches.keeps (Stranded node job)
      (fun _ _ _ _ played stranded => stranded.round positive answered largest held played) stranded
    rcases still.listing with impossible | ⟨_, _, impossible⟩ <;> cases impossible

/-- A dead node whose one job has the largest id, and nobody else. -/
private def lastJob : World :=
  { World.initial with jobs := .ofList [⟨.last, "j", ⟨"a:1"⟩, .running, .cron, none⟩] }

/-- The takeover lists the job again and again, though no call is refused: no number of
rounds leads to the end of its stages. -/
theorem last_job_listed_forever :
    (∀ jobs cache last, ¬ Reaches 0 .calm default ⟨"a:1"⟩ .opening
      (.opening (.initial default lastJob)) (.closing jobs cache) last) ∧
    ∀ report last, ¬ Reaches 0 .calm default ⟨"a:1"⟩ .opening
      (.opening (.initial default lastJob)) (.finished report) last := by
  have stranded : Stranded ⟨"a:1"⟩ ⟨.last, "j", ⟨"a:1"⟩, .running, .cron, none⟩ .opening
      (.opening (.initial default lastJob)) :=
    ⟨.inl rfl, by decide, by decide, List.mem_singleton.2 rfl⟩
  have circles : Circles 0 .calm default ⟨"a:1"⟩ .opening (.opening (.initial default lastJob)) :=
    stranded.circles (by decide) (fun _ _ _ => rfl) rfl (by decide)
  exact ⟨fun _ _ _ reaches => not_circles_of_ended reaches not_false circles,
    fun _ _ reaches => not_circles_of_ended reaches not_false circles⟩

end Courses

end Takeover

end Handover
