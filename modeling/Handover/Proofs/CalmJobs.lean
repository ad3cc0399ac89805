import Handover.Proofs.JobRound
import Handover.Proofs.Receipts

/-!
Contract: the job stage of a takeover when no call is refused and nobody weighs.

Owns: what such a play of a script comes to, the whole listing of a node's jobs of
which a page is the first part, and the moves of the stage as a whole.

The pager reads a table that it changes. On each page every row goes to another node,
so the listing behind the page is what the listing before it had left. Followed to
the end, the pages that were read are the pages of the first listing, and the moves
are theirs.
-/

set_option autoImplicit false

namespace Handover

open Coordinator (TaskId)

/-! ## Calm chances -/

/-- Nothing is refused, and nobody weighs. -/
structure Calm (chances : Chances) : Prop where
  unweighed : ∀ turn, (chances turn).weigher = .none
  unrefused : ∀ turn request, (chances turn).refused request = none

theorem Chances.calm_calm : Calm .calm := ⟨fun _ => rfl, fun _ _ => rfl⟩

namespace Script.Leads

variable {id : TaskId} {chances : Chances} {α β : Type}

/-- Two laws of one script hold of the same play. -/
theorem and {script : Script α} {session : Session} {left right : α → List Made → Session → Prop}
    (first : script.Leads id chances session left) (second : script.Leads id chances session right) :
    script.Leads id chances session fun value made after =>
      left value made after ∧ right value made after := by
  obtain ⟨value, made, after, played, continues, reached⟩ := first
  obtain ⟨more, continuesMore, reachedMore⟩ := second.of_play played
  obtain rfl : made = more :=
    List.append_cancel_left (continues.calls.symm.trans continuesMore.calls)
  exact ⟨value, made, after, played, continues, reached, reachedMore⟩

variable (calm : Calm chances)

include calm

/-- A call is carried out, and weights are answered with none. -/
theorem calmAsk (request : Call) (session : Session) :
    (Script.ask request).Leads id chances session fun reply made _ =>
      reply = .ok (session.world.carryOut .none request).1 ∧ made = [(request, none)] := by
  refine ⟨_, _, _, rfl, .answer id chances session request, ?_, ?_⟩
  · simp only [Session.answer, calm.unrefused, calm.unweighed, World.reply_accepted]
  · simp [Chance.refusal, calm.unrefused]

theorem attemptCalmAsk {request : Call} {later : request.Result → Attempt β} {session : Session}
    {goal : Except Fault β → List Made → Session → Prop}
    (accepted : ∀ after, Continues chances session after [(request, none)] →
      (later (session.world.carryOut .none request).1).run.Leads id chances after
        fun result more last => goal result ((request, none) :: more) last) :
    (Attempt.ask request >>= later).run.Leads id chances session goal := by
  have asked : (Attempt.ask request).run.Leads id chances session fun reply made _ =>
      reply = .ok (session.world.carryOut .none request).1 ∧ made = [(request, none)] :=
    calmAsk calm request session
  apply attempt asked
  · rintro fault made after ⟨impossible, _⟩
    cases impossible
  · rintro answer made after continues ⟨same, rfl⟩
    cases same
    exact accepted after continues

end Script.Leads

/-! ## The listing of a node's jobs -/

/-- Below a row id there is room for the id that follows. -/
theorem RowId.lt_last_of_lt {after id : RowId} (ahead : after < id) : after < RowId.last :=
  Fin.lt_of_lt_of_le ahead id.le_last

namespace Jobs

/-- The jobs that a node holds from the id that follows `after` on, ascending. -/
def listing (jobs : Jobs) (node : Address) (after : RowId) : List Job :=
  jobs.rows.filter fun job => decide (after.following ≤ job.id ∧ job.HeldBy node)

variable {jobs : Jobs} {node : Address} {after : RowId}

/-- A page is the first part of the listing. -/
theorem page_eq_take_listing (limit : Nat) :
    jobs.page after JobStatus.unfinished node limit = (jobs.listing node after).take limit := by
  unfold page listing
  refine congrArg (List.take limit) (List.filter_congr fun job _ => ?_)
  simp [Job.HeldBy, Job.isUnfinished, JobStatus.isUnfinished, Bool.and_assoc, Bool.beq_eq_decide_eq]

theorem mem_listing {job : Job} :
    job ∈ jobs.listing node after ↔ job ∈ jobs ∧ after.following ≤ job.id ∧ job.HeldBy node := by
  simp [listing, Table.mem_def]

theorem nodup_listing_ids : ((jobs.listing node after).map Job.id).Nodup :=
  jobs.nodup_keys.sublist (List.filter_sublist.map Job.id)

/-- The first listing leaves out only a row with the id 0. -/
theorem mem_listing_zero {job : Job} :
    job ∈ jobs.listing node 0 ↔ job ∈ jobs ∧ 0 < job.id ∧ job.HeldBy node := by
  rw [mem_listing, RowId.following_le_iff (by decide)]

/-- What comes behind a page are the listed jobs with larger ids. -/
theorem drop_listing {limit : Nat} {last : Job}
    (isLast : ((jobs.listing node after).take limit).getLast? = some last) :
    (jobs.listing node after).drop limit =
      (jobs.listing node after).filter fun job => decide (last.id < job.id) := by
  have ascending : (jobs.listing node after).Pairwise fun left right => left.id < right.id :=
    jobs.ordered.filter _
  obtain ⟨front, split⟩ := split_behind_page isLast
  rw [split] at ascending
  conv_rhs => rw [split]
  exact (filter_behind ascending).symm

end Jobs

namespace Takeover

/-! ## One round -/

section Round

variable {id : TaskId} {chances : Chances} {pageSize : Nat} {node : Address}

theorem distribute_nil_assignments {ι : Type} (shares : Option Shares) (nodes : List Address) :
    (distribute ([] : List ι) shares nodes).assignments = [] := by
  refine List.eq_nil_iff_forall_not_mem.2 fun entry member => ?_
  have nothing : entry.2 = [] := by
    refine List.eq_nil_iff_forall_not_mem.2 fun item inside => ?_
    have handed := (distribute_subperm ([] : List ι) shares nodes).subset
    exact List.not_mem_nil (handed (List.mem_flatMap.2 ⟨entry, member, inside⟩))
  unfold distribute at member
  split at member
  · exact List.not_mem_nil member
  · have filled := (List.mem_filter.1 member).2
    simp [nothing] at filled

/-- The jobs of one kind are moved as an even split says. -/
theorem moveKind_calm (calm : Calm chances) (kind : ScheduleKind) (page : List Job)
    (nodes : List Address) (session : Session) :
    (moveKind kind page nodes).Leads id chances session fun _ made _ =>
      Mover.jobs.moves made = (distribute (idsOfKind kind page) none nodes).assignments := by
  unfold moveKind
  by_cases empty : idsOfKind kind page = []
  · simp only [empty, List.isEmpty_nil, if_true]
    exact .done _ _ (distribute_nil_assignments none nodes).symm
  · have filled : (idsOfKind kind page).isEmpty = false := by simpa using empty
    simp only [filled, Bool.false_eq_true, if_false]
    have weighed : (sharesFor (.ofKind kind (idsOfKind kind page).length)).Leads id chances session
        fun shares made _ => shares = none ∧ Mover.jobs.moves made = [] := by
      apply (Script.Leads.calmAsk calm _ session).bind
      rintro reply _ after - ⟨rfl, rfl⟩
      exact .done _ _ ⟨rfl, rfl⟩
    apply weighed.bind
    rintro _ weighs after - ⟨rfl, noMoves⟩
    apply (moveJobs_leads _ after).mono
    rintro total made last continues ⟨called, _⟩
    rw [Mover.moves_append, noMoves, List.nil_append]
    exact (Hands.moves_of_entries called).2 fun dest ids text =>
      continues.accepted (fun turn => calm.unrefused turn _) text

/-- A round that does not break off counts as what it comes to. -/
theorem orElse_leads_ok {attempt : Attempt Progress} {next : Progress} {session : Session}
    {goal : List Made → Prop}
    (leads : attempt.run.Leads id chances session fun result made _ => result = .ok next ∧ goal made)
    (broken : Progress) :
    (orElse attempt broken).Leads id chances session fun value made _ => value = next ∧ goal made := by
  apply (orElse_leads leads broken).mono
  rintro value made after - (⟨same, reached⟩ | ⟨_, fault, impossible, _⟩)
  · cases same
    exact ⟨rfl, reached⟩
  · cases impossible

theorem openJobs_calm (calm : Calm chances) {session : Session}
    (dead : session.world.members.isAlive node = false) :
    (openJobs node).run.Leads id chances session fun result made _ =>
      result = .ok (.jobPage 0 {}) ∧ made = [(.isAlive node, none)] := by
  refine .attemptCalmAsk calm fun after _ => .done _ _ ⟨?_, rfl⟩
  change Except.ok (if session.world.members.isAlive node = true then _ else _) = _
  rw [dead]
  rfl

theorem destinations_calm (calm : Calm chances) (session : Session) :
    (destinations node).run.Leads id chances session fun result made _ =>
      result = .ok (session.world.members.others node) ∧ made = [(.aliveNodes, none)] :=
  .attemptCalmAsk calm fun _ _ => .done _ _ ⟨rfl, rfl⟩

/-- A round that finds a page moves its jobs kind by kind. -/
theorem jobRound_calm (calm : Calm chances) (after : RowId) (tally : Tally) (session : Session) :
    (jobRound pageSize node after tally).run.Leads id chances session fun _ made _ =>
      session.world.jobs.page after JobStatus.unfinished node pageSize ≠ [] →
        Mover.jobs.moves made = pageMoves (session.world.members.others node)
          (session.world.jobs.page after JobStatus.unfinished node pageSize) := by
  cases isLast : (session.world.jobs.page after JobStatus.unfinished node pageSize).getLast? with
  | none =>
    apply (jobRound_leads after tally session).mono
    intro _ _ _ _ _ filled
    exact absurd (List.getLast?_eq_none_iff.1 isLast) filled
  | some last =>
    unfold jobRound
    refine .attemptCalmAsk calm fun paged continuesPaged => ?_
    have samePaged : paged.world = session.world := continuesPaged.world
    have replied : (session.world.carryOut .none (.pageJobs after node pageSize)).1 =
      session.world.jobs.page after JobStatus.unfinished node pageSize := rfl
    rw [replied, isLast]
    apply Script.Leads.attempt (destinations_calm calm paged)
    · rintro fault made after ⟨impossible, _⟩
      cases impossible
    rintro nodes asks asked - ⟨same, rfl⟩
    cases same
    rw [samePaged]
    refine .attemptOf (moveKind_calm calm .cron _ _ asked) ?_
    rintro cron cronMade afterCron - cronMoves
    refine .attemptOf (moveKind_calm calm .backfill _ _ afterCron) ?_
    rintro backfill backfillMade afterBackfill - backfillMoves
    refine .done _ _ fun _ => ?_
    have quiet : Mover.jobs.moves ((.pageJobs after node pageSize, none) ::
        ([(.aliveNodes, none)] ++ (cronMade ++ (backfillMade ++ [])))) =
          Mover.jobs.moves (cronMade ++ (backfillMade ++ [])) := rfl
    rw [quiet, List.append_nil, Mover.moves_append, cronMoves, backfillMoves, pageMoves]

end Round

/-! ## The pages of the stage -/

section HandedPage

variable {world : World} {node : Address} {after : RowId} {limit : Nat} {last job : Job}
  {nodes : List Address} {made : List Made} (someone : nodes ≠ []) (away : node ∉ nodes)
  (moves : Mover.jobs.moves made =
    pageMoves nodes (world.jobs.page after JobStatus.unfinished node limit))

include someone moves in
theorem mem_movedNames_page_iff {id : RowId} : id ∈ movedNames (Mover.jobs.moves made) ↔
    id ∈ (world.jobs.page after JobStatus.unfinished node limit).map Job.id := by
  rw [moves]
  exact (pageMoves_perm someone _).mem_iff

include someone away moves in
/-- Every job of a page that is handed out goes away from the node. -/
theorem movedBy_owner_ne (onPage : job ∈ world.jobs.page after JobStatus.unfinished node limit) :
    (job.movedBy made).owner ≠ node := by
  intro same
  have named := (mem_movedNames_page_iff someone moves).2 (List.mem_map_of_mem onPage)
  cases newly : newOwner (Mover.jobs.moves made) job.id with
  | none => exact newOwner_eq_none_iff.1 newly named
  | some dest =>
      obtain ⟨ids, moved, _⟩ := exists_move_of_newOwner newly
      have among := dest_mem_of_mem_pageMoves (moves ▸ moved)
      simp only [Job.movedBy, newly, Option.getD_some] at same
      exact away (same ▸ among)

include someone moves in
/-- No other job is moved. -/
theorem movedBy_of_off_page (inside : job ∈ world.jobs)
    (offPage : job ∉ world.jobs.page after JobStatus.unfinished node limit) :
    job.movedBy made = job := by
  refine Job.movedBy_of_not_moved fun named => offPage ?_
  obtain ⟨twin, onPage, sameId⟩ := List.mem_map.1 ((mem_movedNames_page_iff someone moves).1 named)
  exact Table.eq_of_key_eq (Jobs.mem_page onPage).1 inside sameId ▸ onPage

variable (isLast : (world.jobs.page after JobStatus.unfinished node limit).getLast? = some last)

include someone away moves isLast in
/-- The node holds a job behind a page that was handed out if it held the job there before. -/
theorem movedBy_listed_iff (inside : job ∈ world.jobs) :
    last.id.following ≤ (job.movedBy made).id ∧ (job.movedBy made).HeldBy node ↔
      last.id < job.id ∧ after.following ≤ job.id ∧ job.HeldBy node := by
  have sameId : (job.movedBy made).id = job.id := rfl
  have lastReached := (Jobs.mem_page (List.mem_of_getLast? isLast)).2.1
  rw [sameId]
  constructor
  · rintro ⟨reached, held⟩
    have offPage : job ∉ world.jobs.page after JobStatus.unfinished node limit :=
      fun onPage => movedBy_owner_ne someone away moves onPage held.1
    rw [movedBy_of_off_page someone moves inside offPage] at held
    rcases RowId.lt_or_eq_last_of_following_le reached with behind | atEnd
    · exact ⟨behind, Fin.le_trans lastReached (Fin.le_of_lt behind), held⟩
    -- behind the largest id a listing starts at that id again, but its job was on the page
    · have notBehind : job.id ≤ last.id := atEnd ▸ job.id.le_last
      have notBefore : last.id ≤ job.id := by
        rw [atEnd, RowId.following_last] at reached
        exact atEnd ▸ reached
      exact absurd (Jobs.mem_page_of_le isLast inside (Fin.le_trans lastReached notBefore) held
        notBehind) offPage
  · rintro ⟨behind, _, held⟩
    have offPage : job ∉ world.jobs.page after JobStatus.unfinished node limit :=
      fun onPage => Fin.not_lt.2 (Jobs.le_last_of_mem_page isLast onPage) behind
    rw [movedBy_of_off_page someone moves inside offPage]
    exact ⟨(RowId.following_le_iff (RowId.lt_last_of_lt behind)).2 behind, held⟩

include someone away moves isLast in
/-- The listing behind a page that was handed out is what the listing before it had left. -/
theorem listing_replay_page (unmarked : Unmarked made) :
    (world.replay made).jobs.listing node last.id = (world.jobs.listing node after).drop limit := by
  have kept : (world.jobs.rows.filter ((fun job => decide (last.id.following ≤ job.id ∧
      job.HeldBy node)) ∘ fun job => job.movedBy made)) =
        world.jobs.rows.filter fun job =>
          decide (last.id < job.id) && decide (after.following ≤ job.id ∧ job.HeldBy node) := by
    refine List.filter_congr fun job inside => ?_
    simpa [← Bool.decide_and] using movedBy_listed_iff someone away moves isLast inside
  have behindPage : ∀ job ∈ world.jobs, last.id < job.id → job.movedBy made = job :=
    fun job inside behind => movedBy_of_off_page someone moves inside fun onPage =>
      Fin.not_lt.2 (Jobs.le_last_of_mem_page isLast onPage) behind
  rw [Jobs.page_eq_take_listing] at isLast
  rw [Jobs.drop_listing isLast]
  unfold Jobs.listing
  rw [World.replay_jobs unmarked, List.filter_map, List.filter_filter, kept]
  refine (List.map_congr_left fun job member => ?_).trans (List.map_id _)
  obtain ⟨inside, passes⟩ := List.mem_filter.1 member
  simp only [Bool.and_eq_true, decide_eq_true_eq] at passes
  exact behindPage job inside passes.1

end HandedPage

/-- The pages so far are the first of the whole listing, and what is listed behind them are the
others. -/
structure PagesTaken (world : World) (node : Address) (size : Nat) (after : RowId)
    (made : List Made) : Prop where
  calls : ∀ one ∈ made, JobCall node (world.members.others node) one.1
  handed : ∃ pages, Mover.jobs.moves made = pages.flatMap (pageMoves (world.members.others node)) ∧
    pagesOf size (world.jobs.listing node 0) =
      pages ++ pagesOf size ((world.replay made).jobs.listing node after)
  behind : ∀ job ∈ (world.replay made).jobs.listing node after, after < job.id

/-- Every page of the whole listing was handed out, and nothing else was moved. -/
structure PagesHanded (world : World) (node : Address) (size : Nat) (made : List Made) : Prop where
  calls : ∀ one ∈ made, JobCall node (world.members.others node) one.1
  moves : Mover.jobs.moves made =
    (pagesOf size (world.jobs.listing node 0)).flatMap (pageMoves (world.members.others node))

section Stage

variable {world : World} {node : Address} {size : Nat} {after : RowId} {made : List Made}

theorem PagesTaken.opening : PagesTaken world node size 0 [(.isAlive node, none)] where
  calls := by
    intro one member
    rw [List.mem_singleton.1 member]
    exact .isAlive
  handed := ⟨[], rfl, rfl⟩
  behind := fun _ member => (Jobs.mem_listing_zero.1 member).2.1

/-- A further page is the next of the whole listing. -/
theorem PagesTaken.page (taken : PagesTaken world node size after made) (positive : 0 < size)
    (dead : world.members.isAlive node = false) (someone : world.members.others node ≠ [])
    {last : Job} {more : List Made}
    (isLast : ((world.replay made).jobs.page after JobStatus.unfinished node size).getLast? = some last)
    (calls : ∀ one ∈ more, JobCall node ((world.replay made).members.others node) one.1)
    (moves : Mover.jobs.moves more = pageMoves ((world.replay made).members.others node)
      ((world.replay made).jobs.page after JobStatus.unfinished node size)) :
    PagesTaken world node size last.id (made ++ more) := by
  rw [(JobCall.replay_members taken.calls dead).2] at calls moves
  have rest := listing_replay_page someone (fun among => (Membership.mem_others.1 among).2 rfl) moves
    isLast (JobCall.unmarked calls)
  rw [← World.replay_append] at rest
  rw [Jobs.page_eq_take_listing] at isLast moves
  constructor
  case calls =>
    intro one member
    exact (List.mem_append.1 member).elim (taken.calls one) (calls one)
  case handed =>
    obtain ⟨pages, movesBefore, ahead⟩ := taken.handed
    refine ⟨pages ++ [((world.replay made).jobs.listing node after).take size], ?_, ?_⟩
    · rw [Mover.moves_append, movesBefore, moves, List.flatMap_append, List.flatMap_singleton]
    · have filled : (world.replay made).jobs.listing node after ≠ [] := by
        intro empty
        rw [empty, List.take_nil] at isLast
        cases isLast
      rw [ahead, pagesOf_of_ne_nil positive filled, rest, List.append_assoc, List.singleton_append]
  case behind =>
    intro job member
    rw [rest, Jobs.drop_listing isLast] at member
    simpa using (List.mem_filter.1 member).2

/-- Where nothing is listed any more, every page was handed out. -/
theorem PagesTaken.finish (taken : PagesTaken world node size after made)
    (empty : (world.replay made).jobs.listing node after = []) {more : List Made}
    (calls : ∀ one ∈ more, JobCall node (world.members.others node) one.1)
    (noMoves : Mover.jobs.moves more = []) : PagesHanded world node size (made ++ more) where
  calls := fun one member => (List.mem_append.1 member).elim (taken.calls one) (calls one)
  moves := by
    obtain ⟨pages, movesBefore, ahead⟩ := taken.handed
    rw [empty, pagesOf_nil, List.append_nil] at ahead
    rw [Mover.moves_append, noMoves, List.append_nil, movesBefore, ahead]

/-- Once every page was handed out, the node holds no job but one with the id 0. -/
theorem PagesHanded.id_eq_zero (handed : PagesHanded world node size made) (positive : 0 < size)
    (someone : world.members.others node ≠ []) {job : Job}
    (member : job ∈ (world.replay made).jobs) (held : job.HeldBy node) : job.id = 0 := by
  obtain ⟨before, inside, rfl⟩ := (World.mem_replay_jobs (JobCall.unmarked handed.calls)).1 member
  by_contra someId
  have notMoved : before.id ∉ movedNames (Mover.jobs.moves made) := by
    intro named
    cases newly : newOwner (Mover.jobs.moves made) before.id with
    | none => exact newOwner_eq_none_iff.1 newly named
    | some dest =>
        have among := JobCall.newOwner_among handed.calls newly
        have same := held.1
        simp only [Job.movedBy, newly, Option.getD_some] at same
        exact (Membership.mem_others.1 among).2 same
  rw [Job.movedBy_of_not_moved notMoved] at held someId
  have listed : before ∈ world.jobs.listing node 0 :=
    Jobs.mem_listing_zero.2 ⟨inside, Nat.pos_of_ne_zero fun zero => someId (Fin.ext zero), held⟩
  rw [handed.moves, (pagesMoves_perm someone _).mem_iff, flatten_pagesOf positive] at notMoved
  exact notMoved (List.mem_map_of_mem listed)

/-- Where a calm stage stands between two rounds. -/
inductive CalmProgress (world : World) (node : Address) (size : Nat) : Progress → List Made → Prop
  | page {after : RowId} {made : List Made} (count : Nat)
      (taken : PagesTaken world node size after made) :
      CalmProgress world node size (.jobPage after { reassigned := count }) made
  | ended {made : List Made} (count : Nat) (handed : PagesHanded world node size made) :
      CalmProgress world node size (.opened { reassigned := count }) made

/-- A calm round brings the stage forward. -/
theorem CalmProgress.round (taken : PagesTaken world node size after made) (positive : 0 < size)
    (dead : world.members.isAlive node = false) (someone : world.members.others node ≠ [])
    {count : Nat} {result : Except Fault Progress} {more : List Made}
    (played : JobRound (world.replay made) size node after { reassigned := count } result more)
    (unbroken : ¬ Broke more)
    (moves : (world.replay made).jobs.page after JobStatus.unfinished node size ≠ [] →
      Mover.jobs.moves more = pageMoves ((world.replay made).members.others node)
        ((world.replay made).jobs.page after JobStatus.unfinished node size)) :
    ∃ next, result = .ok next ∧ CalmProgress world node size next (made ++ more) ∧
      next.ahead < UInt64.size - after.val := by
  have calls := played.calls
  have sameNodes := (JobCall.replay_members taken.calls dead).2
  have room : 0 < UInt64.size - after.val := Nat.sub_pos_of_lt after.isLt
  have nothing_listed : (world.replay made).jobs.page after JobStatus.unfinished node size = [] →
      (world.replay made).jobs.listing node after = [] := by
    intro empty
    rw [Jobs.page_eq_take_listing, List.take_eq_nil_iff] at empty
    exact empty.resolve_left (Nat.ne_of_gt positive)
  cases played with
  | broke fault broke _ => exact absurd broke unbroken
  | clear empty nothing =>
      rw [sameNodes] at calls
      exact ⟨_, rfl, .ended count (taken.finish (nothing_listed empty) calls rfl), room⟩
  | left empty something =>
      have handed : PagesHanded world node size (made ++ []) :=
        taken.finish (nothing_listed empty) (by simp) rfl
      rw [List.append_nil] at handed
      obtain ⟨job, onPage⟩ := List.exists_mem_of_ne_nil _ something
      obtain ⟨inside, reached, held⟩ := Jobs.mem_page onPage
      have zero := handed.id_eq_zero positive someone inside held
      rw [zero] at reached
      exact absurd reached (by decide)
  | @page last made isLast hands =>
      have filled : (world.replay _).jobs.page after JobStatus.unfinished node size ≠ [] :=
        List.ne_nil_of_mem (List.mem_of_getLast? isLast)
      refine ⟨_, rfl, .page _ (taken.page positive dead someone isLast calls (moves filled)), ?_⟩
      have onPage := List.mem_of_getLast? isLast
      rw [Jobs.page_eq_take_listing] at onPage
      have further := Fin.lt_def.1 (taken.behind last (List.mem_of_mem_take onPage))
      have bound := last.id.isLt
      simp only [Progress.ahead]
      omega

/-- Played to its end, a calm job stage hands out the pages of the listing, one after the other. -/
theorem calmStage_arrives (id : TaskId) {chances : Chances} (calm : Calm chances)
    (settings : Settings) {session : Session} (dead : session.world.members.isAlive node = false)
    (positive : 0 < settings.pageSize) (someone : session.world.members.others node ≠ []) :
    Arrives id chances settings node .opening session fun progress made _ =>
      ∃ count, progress = .opened { reassigned := count } ∧
        PagesHanded session.world node settings.pageSize made := by
  have answered : Answered chances := fun turn request _ => calm.unrefused turn request
  apply (Arrives.of_round (orElse_leads_ok (openJobs_calm calm dead) _)).trans
  rintro _ _ opened continues ⟨rfl, rfl⟩
  refine Arrives.of_invariant
    (fun progress made after => after.world = session.world.replay made ∧
      CalmProgress session.world node settings.pageSize progress made)
    (fun progress made _ => ∃ count, progress = .opened { reassigned := count } ∧
      PagesHanded session.world node settings.pageSize made) ?_
    ⟨continues.world, .page 0 .opening⟩
  rintro progress made middle ⟨same, stands⟩
  cases stands with
  | ended count handed => exact .inl ⟨count, rfl, handed⟩
  | @page after _ count taken =>
      right
      apply (orElse_leads ((jobRound_leads after _ middle).and (jobRound_calm calm after _ middle)) _).mono
      intro next more after continuesMore outcome
      rw [same] at outcome
      have unbroken := answered.not_broke continuesMore
      have replayed : after.world = session.world.replay (made ++ more) := by
        rw [continuesMore.world, same, World.replay_append]
      rcases outcome with ⟨played, moves⟩ | ⟨_, fault, played, moves⟩
      · obtain ⟨_, same, stands, fewer⟩ :=
          CalmProgress.round taken positive dead someone played unbroken moves
        cases same
        exact ⟨⟨replayed, stands⟩, fewer⟩
      · obtain ⟨_, impossible, _⟩ :=
          CalmProgress.round taken positive dead someone played unbroken moves
        cases impossible

end Stage

end Takeover

end Handover
