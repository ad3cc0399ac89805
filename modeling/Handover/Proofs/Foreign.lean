import Handover.Proofs.Abreast
import Handover.Proofs.Landmarks
import Handover.Proofs.Scope

/-!
Contract: that rows of others do not influence where the work of a node goes.

Owns: that the rounds of a takeover stay abreast over stores that hold the same within its
scope, and the law that two takeovers of a node with the same work end with the same report and
leave this work alike, whatever else the stores hold.

Every listing is narrowed to the node before it is cut to a page, and every weigher is told the
number of rows on such a page. So both takeovers see the same pages, split them in the same way
and make the same calls; only the moments in the texts of recorded failures may differ.
-/

set_option autoImplicit false

namespace Handover.Takeover

open Coordinator (TaskId)

/-- The jobs are taken over. -/
def Progress.PastJobs : Progress → Prop
  | .opening => False
  | .jobPage _ _ => False
  | _ => True

section Rounds

variable {weigher : Weigher} {first second : Side weigher} {holds : World → World → Prop}
  {node : Address} {scope : Scope}

/-! ## Asking -/

theorem sharesFor_abreast (demand : Demand) :
    (sharesFor demand).Abreast first second holds (sharesFor demand) Eq := by
  have asked : (Script.ask (.weigh demand)).Abreast first second holds (Script.ask (.weigh demand)) Eq :=
    .askAlike fun _ _ worlds => ⟨worlds, rfl⟩
  refine asked.bind ?_
  rintro reply _ rfl
  cases reply <;> exact .done rfl

/-- No round breaks off. -/
theorem orElse_abreast {attempt : Attempt Progress} {reached : Progress → Prop}
    (abreast : attempt.Abreast first second holds attempt fun next other => next = other ∧ reached next)
    (broken : Progress) :
    (orElse attempt broken).Abreast first second holds (orElse attempt broken)
      fun next other => next = other ∧ reached next := by
  refine Script.Abreast.bind abreast ?_
  rintro _ _ ⟨next, other, rfl, rfl, reached⟩
  exact .done reached

section Members

variable (sameMembers : ∀ {here there : World}, holds here there → here.members = there.members)

include sameMembers

theorem opens_abreast (skipped begun broken : Progress) :
    (orElse (do let alive ← readsAlive node; return if alive then skipped else begun) broken).Abreast
      first second holds
      (orElse (do let alive ← readsAlive node; return if alive then skipped else begun) broken)
      fun next other => next = other ∧ (next = skipped ∨ next = begun) := by
  have asked : (readsAlive node).Abreast first second holds (readsAlive node) Eq :=
    .ask fun here there worlds => ⟨worlds, congrArg (Membership.isAlive · node) (sameMembers worlds)⟩
  refine orElse_abreast (asked.bind ?_) broken
  rintro alive _ rfl
  refine .done ⟨rfl, ?_⟩
  cases alive
  · exact .inr rfl
  · exact .inl rfl

theorem destinations_abreast (dead : Address) :
    (destinations dead).Abreast first second holds (destinations dead) fun nodes nodesThere =>
      nodes = nodesThere ∧ ∀ dest ∈ nodes, dest ≠ dead := by
  have asked : (Attempt.ask .aliveNodes).Abreast first second holds (Attempt.ask .aliveNodes) Eq :=
    .ask fun here there worlds => ⟨worlds, congrArg Membership.aliveNodes (sameMembers worlds)⟩
  refine asked.bind ?_
  rintro alive _ rfl
  refine .done ⟨rfl, fun dest among => ?_⟩
  simpa using (List.mem_filter.1 among).2

end Members

/-! ## Handing out -/

/-- Calls that are answered alike add up to the same. -/
theorem addUp_abreast {ν : Type} {request : Address → List ν → Script (Except Fault Nat)}
    {entries : List (Address × List ν)}
    (each : ∀ entry ∈ entries, (request entry.1 entry.2).Abreast first second holds
      (request entry.1 entry.2) Eq) :
    (addUp request entries).Abreast first second holds (addUp request entries) Eq := by
  induction entries with
  | nil => exact .done rfl
  | cons entry entries inductionHypothesis =>
      refine (each entry List.mem_cons_self).bind ?_
      rintro count _ rfl
      refine (inductionHypothesis fun other member => each other (List.mem_cons_of_mem _ member)).bind ?_
      rintro later _ rfl
      exact .done rfl

/-- What a split gives to anyone is among what was split. -/
theorem mem_of_mem_distribute {ν : Type} {items : List ν} {shares : Option Shares} {nodes : List Address}
    {entry : Address × List ν} (member : entry ∈ (distribute items shares nodes).assignments) {item : ν}
    (taken : item ∈ entry.2) : item ∈ items :=
  (distribute_subperm items shares nodes).subset (List.mem_flatMap.2 ⟨entry, member, taken⟩)

theorem moveJobs_abreast {ids : List RowId} (among : ∀ id ∈ ids, id ∈ scope.jobs) {nodes : List Address}
    (others : ∀ dest ∈ nodes, dest ≠ node) (shares : Option Shares) :
    (moveJobs (distribute ids shares nodes)).Abreast first second (World.Match node scope)
      (moveJobs (distribute ids shares nodes)) Eq := by
  refine addUp_abreast fun entry member => .askAlike fun here there worlds => ?_
  obtain ⟨jobs, counts⟩ := worlds.jobs.reassign (others _ (mem_of_mem_assignments member))
    fun id taken => among id (mem_of_mem_distribute member taken)
  exact ⟨⟨worlds.members, jobs, worlds.rows⟩, counts⟩

theorem moveKind_abreast (kind : ScheduleKind) {page : List Job} (listed : ∀ job ∈ page, job.id ∈ scope.jobs)
    {nodes : List Address} (others : ∀ dest ∈ nodes, dest ≠ node) :
    (moveKind kind page nodes).Abreast first second (World.Match node scope) (moveKind kind page nodes) Eq := by
  have among : ∀ id ∈ idsOfKind kind page, id ∈ scope.jobs := by
    intro id member
    obtain ⟨job, ofKind, rfl⟩ := List.mem_map.1 member
    exact listed job (List.mem_filter.1 ofKind).1
  unfold moveKind
  dsimp only
  split
  · exact .done rfl
  · refine (sharesFor_abreast _).bind ?_
    rintro shares _ rfl
    exact moveJobs_abreast among others shares

theorem moveRows_abreast {jobIds : List String} (among : ∀ jobId ∈ jobIds, jobId ∈ scope.names)
    {nodes : List Address} (others : ∀ dest ∈ nodes, dest ≠ node) (shares : Option Shares) :
    (moveRows (distribute jobIds shares nodes)).Abreast first second (World.MatchOwners node scope)
      (moveRows (distribute jobIds shares nodes)) Eq := by
  refine addUp_abreast fun entry member => .askAlike fun here there worlds => ?_
  obtain ⟨rows, counts⟩ := worlds.rows.reassign (others _ (mem_of_mem_assignments member))
    fun jobId taken => among jobId (mem_of_mem_distribute member taken)
  exact ⟨⟨worlds.members, worlds.owners, rows⟩, counts⟩

section Submissions

variable {submissions : List Submission} (named : ∀ one ∈ submissions, one.jobId ∈ scope.names)
  {nodes : List Address} (others : ∀ dest ∈ nodes, dest ≠ node)

include named others

theorem moveGroups_abreast (groups : List (Option String)) :
    (moveGroups submissions nodes groups).Abreast first second (World.MatchOwners node scope)
      (moveGroups submissions nodes groups) Eq := by
  induction groups with
  | nil => exact .done rfl
  | cons group groups inductionHypothesis =>
      have among : ∀ jobId ∈ queuedIn group submissions, jobId ∈ scope.names := by
        intro jobId member
        obtain ⟨one, queued, rfl⟩ := List.mem_map.1 member
        exact named one (List.mem_filter.1 queued).1
      refine (sharesFor_abreast _).bind ?_
      rintro shares _ rfl
      refine (moveRows_abreast among others shares).bind ?_
      rintro moved _ rfl
      refine inductionHypothesis.bind ?_
      rintro later _ rfl
      exact .done rfl

theorem moveSubmitted_abreast :
    (moveSubmitted submissions nodes).Abreast first second (World.MatchOwners node scope)
      (moveSubmitted submissions nodes) Eq := by
  have among : ∀ jobId ∈ submittedIds submissions, jobId ∈ scope.names := by
    intro jobId member
    obtain ⟨one, submitted, rfl⟩ := List.mem_map.1 member
    exact named one (List.mem_filter.1 submitted).1
  unfold moveSubmitted
  dsimp only
  split
  · exact .done rfl
  · exact moveRows_abreast among others none

end Submissions

/-! ## Rows that cannot be read -/

/-- The failure of a job is recorded on both sides, each at its own moment. -/
theorem recordFailure_abreast (jobId detail : String) :
    (recordFailure jobId detail).Abreast first second (World.MatchOwners node scope)
      (recordFailure jobId detail) fun _ _ => True := by
  unfold recordFailure
  split
  · exact .done trivial
  · have deleted : (Attempt.ask (.deleteJob jobId)).Abreast first second (World.MatchOwners node scope)
        (Attempt.ask (.deleteJob jobId)) fun _ _ => True :=
      .ask fun here there worlds => ⟨⟨worlds.members, worlds.owners, worlds.rows.filter _⟩, trivial⟩
    refine deleted.bind fun _ _ _ => (Attempt.Abreast.of (.act .readClock nofun)).bind fun moment other _ => ?_
    refine .ask fun here there worlds => ⟨⟨worlds.members, fun id inside => ?_, worlds.rows⟩, trivial⟩
    exact (Jobs.ownerOf_mark _ _ _ _ id).trans
      ((worlds.owners id inside).trans (Jobs.ownerOf_mark _ _ _ _ id).symm)

theorem dealWith_abreast (row : CacheRow) (flaw : RowFlaw) :
    (dealWith row flaw).Abreast first second (World.MatchOwners node scope) (dealWith row flaw)
      fun _ _ => True := by
  unfold dealWith
  split
  · have dropped : (Attempt.ask (.deleteRow row.id)).Abreast first second (World.MatchOwners node scope)
        (Attempt.ask (.deleteRow row.id)) fun _ _ => True :=
      .ask fun here there worlds => ⟨⟨worlds.members, worlds.owners, worlds.rows.filter _⟩, trivial⟩
    exact dropped.bind fun _ _ _ => .done trivial
  · exact recordFailure_abreast _ _

theorem dealWithFlaws_abreast (page : List CacheRow) :
    (dealWithFlaws page).Abreast first second (World.MatchOwners node scope) (dealWithFlaws page) Eq := by
  induction page with
  | nil => exact .done rfl
  | cons row rest inductionHypothesis =>
      unfold dealWithFlaws
      split
      · exact inductionHypothesis
      · refine Script.Abreast.bind (dealWith_abreast row _) ?_
        rintro _ _ ⟨⟨⟩, ⟨⟩, rfl, rfl, _⟩
        refine inductionHypothesis.bind ?_
        rintro later _ rfl
        exact .done rfl

/-! ## Rounds -/

theorem resetNode_abreast (dead : Address) :
    (resetNode dead).Abreast first second (World.Match node scope) (resetNode dead) (fun _ _ => True) ∧
      (resetNode dead).Abreast first second (World.MatchOwners node scope) (resetNode dead) fun _ _ => True :=
  ⟨.ask fun _ _ worlds => ⟨⟨congrArg (Membership.set · dead .neverAlive) worlds.members, worlds.jobs, worlds.rows⟩,
      trivial⟩,
    .ask fun _ _ worlds => ⟨⟨congrArg (Membership.set · dead .neverAlive) worlds.members, worlds.owners,
      worlds.rows⟩, trivial⟩⟩

theorem pageJobs_abreast (after : RowId) (limit : Nat) :
    (Attempt.ask (.pageJobs after node limit)).Abreast first second (World.Match node scope)
      (Attempt.ask (.pageJobs after node limit)) fun page pageThere =>
        page = pageThere ∧ ∀ job ∈ page, job.id ∈ scope.jobs := by
  refine .ask fun here there worlds => ⟨worlds, worlds.jobs.page_eq after limit, fun job member => ?_⟩
  obtain ⟨inside, _, held⟩ := Jobs.mem_page member
  exact worlds.jobs.held job inside held

theorem jobRound_abreast (pageSize : Nat) (after : RowId) (tally : Tally) :
    (jobRound pageSize node after tally).Abreast first second (World.Match node scope)
      (jobRound pageSize node after tally) fun next other => next = other ∧ True := by
  refine (pageJobs_abreast after pageSize).bind ?_
  rintro page _ ⟨rfl, listed⟩
  split
  · refine (pageJobs_abreast 0 1).bind ?_
    rintro remaining _ ⟨rfl, _⟩
    split
    · exact .done ⟨rfl, trivial⟩
    · exact (resetNode_abreast node).1.bind fun _ _ _ => .done ⟨rfl, trivial⟩
  · refine (destinations_abreast (fun worlds => worlds.members) node).bind ?_
    rintro alive _ ⟨rfl, others⟩
    refine (Attempt.Abreast.of (moveKind_abreast .cron listed others)).bind ?_
    rintro cron _ rfl
    refine (Attempt.Abreast.of (moveKind_abreast .backfill listed others)).bind ?_
    rintro backfill _ rfl
    exact .done ⟨rfl, trivial⟩

theorem pageCache_abreast (after : RowId) (limit : Nat) :
    (Attempt.ask (.pageCache after node none none limit)).Abreast first second (World.MatchOwners node scope)
      (Attempt.ask (.pageCache after node none none limit)) fun page pageThere =>
        page = pageThere ∧ ∀ one ∈ readable page, one.jobId ∈ scope.names := by
  refine .ask fun here there worlds => ⟨worlds, worlds.rows.page_eq after limit, fun one member => ?_⟩
  obtain ⟨row, listed, read⟩ := mem_readable.1 member
  obtain ⟨inside, _, owned⟩ := Cache.mem_page listed
  obtain ⟨namesOne, sameName⟩ := CacheRow.read_eq_ok read
  rw [sameName]
  exact worlds.rows.within.named row inside owned namesOne

theorem cacheRound_abreast (pageSize : Nat) (jobs : Tally) (after : RowId) (tally : Tally) :
    (cacheRound pageSize node jobs after tally).Abreast first second (World.MatchOwners node scope)
      (cacheRound pageSize node jobs after tally) fun next other => next = other ∧ next.PastJobs := by
  refine (pageCache_abreast after pageSize).bind ?_
  rintro page _ ⟨rfl, named⟩
  split
  · refine (pageCache_abreast 0 1).bind ?_
    rintro remaining _ ⟨rfl, _⟩
    split
    · exact .done ⟨rfl, trivial⟩
    · exact (resetNode_abreast node).2.bind fun _ _ _ => .done ⟨rfl, trivial⟩
  · refine (Attempt.Abreast.of (dealWithFlaws_abreast page)).bind ?_
    rintro dealt _ rfl
    refine (destinations_abreast (fun worlds => worlds.members) node).bind ?_
    rintro alive _ ⟨rfl, others⟩
    refine (Attempt.Abreast.of (moveGroups_abreast named others _)).bind ?_
    rintro queued _ rfl
    refine (Attempt.Abreast.of (moveSubmitted_abreast named others)).bind ?_
    rintro submitted _ rfl
    exact .done ⟨rfl, trivial⟩

/-! ## The end -/

theorem triggerAll_abreast (localAddress : Address) (targets : List Address) :
    (triggerAll localAddress targets).Abreast first second (World.MatchOwners node scope)
      (triggerAll localAddress targets) Eq := by
  induction targets with
  | nil => exact .done rfl
  | cons target rest inductionHypothesis =>
      -- whichever of the two calls comes first, the rest of the script is the same
      have later : ∀ add : List Address × List Address → List Address × List Address,
          (triggerAll localAddress rest >>= fun reachedMissed => Script.done (add reachedMissed)).Abreast
            first second (World.MatchOwners node scope)
            (triggerAll localAddress rest >>= fun reachedMissed => Script.done (add reachedMissed)) Eq := by
        intro add
        refine inductionHypothesis.bind ?_
        rintro reachedMissed _ rfl
        exact .done rfl
      have triggered : (Script.ask .trigger).Abreast first second (World.MatchOwners node scope)
          (Script.ask .trigger) Eq :=
        .askAlike fun _ _ worlds => ⟨⟨worlds.members, worlds.owners, worlds.rows⟩, rfl⟩
      have notified : (Script.ask (.notify target)).Abreast first second (World.MatchOwners node scope)
          (Script.ask (.notify target)) Eq :=
        .askAlike fun _ _ worlds => ⟨⟨worlds.members, worlds.owners, worlds.rows⟩, rfl⟩
      unfold triggerAll
      dsimp only
      split
      · refine triggered.bind ?_
        rintro result _ rfl
        exact later _
      · refine notified.bind ?_
        rintro result _ rfl
        exact later _

theorem broadcast_abreast (localAddress : Address) :
    (broadcast localAddress).Abreast first second (World.MatchOwners node scope) (broadcast localAddress) Eq := by
  have asked : (Script.ask .aliveNodes).Abreast first second (World.MatchOwners node scope)
      (Script.ask .aliveNodes) Eq :=
    .askAlike fun _ _ worlds => ⟨worlds, congrArg Membership.aliveNodes worlds.members⟩
  refine asked.bind ?_
  rintro reply _ rfl
  split
  · exact triggerAll_abreast localAddress _
  · exact .done rfl

theorem settle_abreast (jobs cache : Tally) :
    (settle node jobs cache).Abreast first second (World.MatchOwners node scope) (settle node jobs cache)
      fun _ _ => True := by
  have retried : (if (jobs.leftover || cache.leftover) = true then Script.act (.scheduleRetry node)
      else Script.done ()).Abreast first second (World.MatchOwners node scope)
      (if (jobs.leftover || cache.leftover) = true then Script.act (.scheduleRetry node)
        else Script.done ()) fun _ _ => True := by
    split
    · exact .act (.scheduleRetry node) nofun
    · exact .done trivial
  unfold settle
  dsimp only
  split
  · exact (Script.Abreast.act (.forgetRetries node) nofun).bind fun _ _ _ => retried
  · exact retried

theorem close_abreast (settings : Settings) (jobs cache : Tally) :
    (close settings node jobs cache).Abreast first second (World.MatchOwners node scope)
      (close settings node jobs cache) fun next other => next = other ∧ next.PastJobs := by
  refine (settle_abreast jobs cache).bind fun _ _ _ => (broadcast_abreast _).bind ?_
  rintro ⟨notified, notifyFailures⟩ _ rfl
  exact .done ⟨rfl, trivial⟩

/-! ## Round after round -/

/-- What the stores have in common at a progress: of jobs that are taken over just the owners. -/
def Progress.Common (node : Address) (scope : Scope) (progress : Progress) (here there : World) : Prop :=
  World.MatchOwners node scope here there ∧
    (¬ progress.PastJobs → World.Match node scope here there)

theorem Progress.Common.of_match {progress : Progress} {here there : World}
    (matching : World.Match node scope here there) : progress.Common node scope here there :=
  ⟨matching.toOwners, fun _ => matching⟩

theorem Progress.Common.of_owners {progress : Progress} {here there : World} (past : progress.PastJobs)
    (matching : World.MatchOwners node scope here there) : progress.Common node scope here there :=
  ⟨matching, fun notPast => absurd past notPast⟩

section Round

variable {here there : Session}

/-- A script that stays abreast leads to the same progress, and the stores have in common what
they need to go on from there. -/
theorem advances_of_abreast {script : Script Progress} {reached : Progress → Prop}
    (abreast : script.Abreast first second holds script fun next other => next = other ∧ reached next)
    (common : ∀ next here there, reached next → holds here there → next.Common node scope here there)
    (beside : Session.Beside holds here there) :
    ∃ next after afterThere, script.play first.id first.chances here = some (next, after) ∧
      script.play second.id second.chances there = some (next, afterThere) ∧
        Session.Beside (next.Common node scope) after afterThere := by
  obtain ⟨next, after, _, afterThere, played, playedThere, besideAfter, rfl, arrived⟩ :=
    abreast here there beside
  exact ⟨next, after, afterThere, played, playedThere,
    besideAfter.mono fun here there worlds => common next here there arrived worlds⟩

/-- Where a round leads on one side, it leads on the other. -/
theorem round_advances (settings : Settings) (progress : Progress)
    (beside : Session.Beside (progress.Common node scope) here there) :
    ∃ next after afterThere,
      (round settings node progress).play first.id first.chances here = some (next, after) ∧
        (round settings node progress).play second.id second.chances there = some (next, afterThere) ∧
          Session.Beside (next.Common node scope) after afterThere := by
  have owners := beside.mono fun _ _ common => common.1
  have ofMatch : ∀ {reached : Progress → Prop} (next : Progress) (here there : World), reached next →
      World.Match node scope here there → next.Common node scope here there :=
    fun _ _ _ _ matching => .of_match matching
  cases progress with
  | opening =>
      have matching := beside.mono fun _ _ common => common.2 not_false
      exact advances_of_abreast (opens_abreast (fun worlds => worlds.members) _ _ _) ofMatch matching
  | jobPage after tally =>
      have matching := beside.mono fun _ _ common => common.2 not_false
      exact advances_of_abreast (orElse_abreast (jobRound_abreast settings.pageSize after tally) _) ofMatch
        matching
  | opened jobs =>
      refine advances_of_abreast (opens_abreast (fun worlds => worlds.members) _ _ _) ?_ owners
      rintro next here there (rfl | rfl) matching
      · exact .of_owners trivial matching
      · exact .of_owners trivial matching
  | cachePage jobs after tally =>
      exact advances_of_abreast (orElse_abreast (cacheRound_abreast settings.pageSize jobs after tally) _)
        (fun _ _ _ past matching => .of_owners past matching) owners
  | closing jobs cache =>
      exact advances_of_abreast (close_abreast settings jobs cache)
        (fun _ _ _ past matching => .of_owners past matching) owners
  | finished report => exact ⟨_, here, there, rfl, rfl, beside⟩

/-- Where rounds lead on one side, they lead on the other. -/
theorem rounds_advance (settings : Settings) (count : Nat) {progress : Progress}
    (beside : Session.Beside (progress.Common node scope) here there) :
    ∃ later after afterThere,
      playRounds first.id first.chances settings node count progress here = some (later, after) ∧
        playRounds second.id second.chances settings node count progress there = some (later, afterThere) ∧
          Session.Beside (later.Common node scope) after afterThere := by
  induction count generalizing progress here there with
  | zero => exact ⟨progress, here, there, rfl, rfl, beside⟩
  | succ count inductionHypothesis =>
      obtain ⟨next, between, betweenThere, played, playedThere, besideThen⟩ := round_advances settings progress beside
      obtain ⟨later, after, afterThere, playedOn, playedOnThere, besideAfter⟩ := inductionHypothesis besideThen
      refine ⟨later, after, afterThere, ?_, ?_, besideAfter⟩
      · rw [playRounds, played]
        exact playedOn
      · rw [playRounds, playedThere]
        exact playedOnThere

end Round

end Rounds

/-! ## The law -/

/-- Both stores hold the same work of the node. -/
structure SameWork (node : Address) (here there : World) : Prop where
  jobs : ∀ job, job.HeldBy node → (job ∈ here.jobs ↔ job ∈ there.jobs)
  rows : ∀ row, row.owner = node → (row ∈ here.cache ↔ row ∈ there.cache)

/-- Where the stores agree in what the node has, they hold the same work of it. -/
theorem SameWork.of_filter {node : Address} {here there : World}
    (jobs : (here.jobs.filter fun job => decide (job.HeldBy node)) =
      there.jobs.filter fun job => decide (job.HeldBy node))
    (rows : (here.cache.filter fun row => decide (row.owner = node)) =
      there.cache.filter fun row => decide (row.owner = node)) : SameWork node here there where
  jobs := fun job held => by
    have same := congrArg (fun table => job ∈ table) jobs
    simpa [held] using same
  rows := fun row owned => by
    have same := congrArg (fun table => row ∈ table) rows
    simpa [owned] using same

/-- What the node has. -/
def scopeOf (node : Address) (world : World) : Scope where
  jobs := (world.jobs.rows.filter fun job => decide (job.HeldBy node)).map Job.id
  rows := (world.cache.rows.filter fun row => decide (row.owner = node)).map CacheRow.id
  names := (world.cache.rows.filter fun row => decide (row.owner = node) && !row.namesNoJob).map CacheRow.jobId

section Scope

variable {node : Address} {here there world : World}

theorem mem_scopeOf_jobs {id : RowId} :
    id ∈ (scopeOf node world).jobs ↔ ∃ job ∈ world.jobs, job.HeldBy node ∧ job.id = id := by
  simp [scopeOf, Table.mem_def, and_assoc]

theorem mem_scopeOf_rows {id : RowId} :
    id ∈ (scopeOf node world).rows ↔ ∃ row ∈ world.cache, row.owner = node ∧ row.id = id := by
  simp [scopeOf, Table.mem_def, and_assoc]

theorem mem_scopeOf_names {jobId : String} : jobId ∈ (scopeOf node world).names ↔
    ∃ row ∈ world.cache, row.owner = node ∧ row.namesNoJob = false ∧ row.jobId = jobId := by
  simp [scopeOf, Table.mem_def, and_assoc]

theorem SameWork.refl (node : Address) (world : World) : SameWork node world world :=
  ⟨fun _ _ => .rfl, fun _ _ => .rfl⟩

/-- The jobs that the node holds there are those that it holds here. -/
theorem SameWork.held (sameWork : SameWork node here there) :
    ∀ job ∈ there.jobs, job.HeldBy node → job.id ∈ (scopeOf node here).jobs :=
  fun job inside held => mem_scopeOf_jobs.2 ⟨job, (sameWork.jobs job held).2 inside, held, rfl⟩

/-- The rows that the node has there are those that it has here, and nothing else has their names. -/
theorem SameWork.within (sameWork : SameWork node here there) (unshared : Unshared there.cache node) :
    there.cache.Within node (scopeOf node here).rows (scopeOf node here).names where
  owned := fun row inside owned =>
    mem_scopeOf_rows.2 ⟨row, (sameWork.rows row owned).2 inside, owned, rfl⟩
  named := fun row inside owned namesOne =>
    mem_scopeOf_names.2 ⟨row, (sameWork.rows row owned).2 inside, owned, namesOne, rfl⟩
  unshared := fun row inside named => by
    obtain ⟨mine, mineInside, owned, namesOne, sameName⟩ := mem_scopeOf_names.1 named
    have mineThere : mine ∈ there.cache := (sameWork.rows mine owned).1 mineInside
    obtain rfl := unshared mine mineThere owned namesOne row inside sameName.symm
    exact mem_scopeOf_rows.2 ⟨row, mineInside, owned, rfl⟩

/-- Stores with the same work of the node hold the same within its scope. -/
theorem SameWork.toMatch (sameWork : SameWork node here there) (members : here.members = there.members)
    (unshared : Unshared here.cache node) (unsharedThere : Unshared there.cache node) :
    World.Match node (scopeOf node here) here there where
  members := members
  jobs :=
    { same := Table.only_eq_only sameWork.jobs fun _ => mem_scopeOf_jobs
      held := (SameWork.refl node here).held
      heldThere := sameWork.held }
  rows :=
    { same := Table.only_eq_only sameWork.rows fun _ => mem_scopeOf_rows
      within := (SameWork.refl node here).within unshared
      withinThere := sameWork.within unsharedThere }

end Scope

/-- Two takeovers of a node, over stores that hold the same work of it: they end with the same
report, each job goes to the same owner, and each row goes to the same owner or is removed in
both. What else the stores hold plays no part, nor does what the clock shows. -/
theorem takeover_goes_by_work {weigher : Weigher} (first second : Side weigher) (settings : Settings)
    {node : Address} {here there : Session} (members : here.world.members = there.world.members)
    (sameWork : SameWork node here.world there.world) (unshared : Unshared here.world.cache node)
    (unsharedThere : Unshared there.world.cache node) (clear : ClearOfLast node here.world)
    (free : here.state.changing = none) (freeThere : there.state.changing = none) :
    ∃ report after afterThere,
      Reaches first.id first.chances settings node .opening here (.finished report) after ∧
        Reaches second.id second.chances settings node .opening there (.finished report) afterThere ∧
          (∀ job ∈ here.world.jobs, job.HeldBy node →
            after.world.jobs.ownerOf job.id = afterThere.world.jobs.ownerOf job.id) ∧
          (∀ row ∈ here.world.cache, row.owner = node →
            after.world.cache.find? row.id = afterThere.world.cache.find? row.id) ∧
          after.world.members = afterThere.world.members := by
  have beside : Session.Beside (Progress.opening.Common node (scopeOf node here.world)) here there :=
    ⟨.of_match (sameWork.toMatch members unshared unsharedThere), free, freeThere⟩
  -- the one takeover comes to its end, and the other stays abreast
  have opening : Progress.opening.Underway := trivial
  obtain ⟨stages, _, jobs, cache, last, closing⟩ :=
    closes_within opening clear
  obtain ⟨later, after, afterThere, played, playedThere, besideAfter⟩ :=
    rounds_advance settings (stages + 1) beside
  obtain ⟨report, rfl⟩ : ∃ report, later = .finished report := by
    rw [playRounds_succ, closing] at played
    exact (close_keeps played).1
  obtain ⟨common, _⟩ := besideAfter.worlds
  refine ⟨report, after, afterThere, ⟨_, played⟩, ⟨_, playedThere⟩, fun job inside held => ?_,
    fun row inside owned => ?_, common.members⟩
  · exact common.owners job.id (mem_scopeOf_jobs.2 ⟨job, inside, held, rfl⟩)
  · exact common.rows.find?_eq (mem_scopeOf_rows.2 ⟨row, inside, owned, rfl⟩)

/-- A dead node with two jobs, a row that is queued and one that cannot be read, and two nodes that
are alive; beside that a finished job of the dead node, and a job and a row of another node. -/
private def amongMany : World :=
  { World.initial with
    members := .ofList [(⟨"b:1"⟩, .heardAt ⟨0, 0⟩ 1), (⟨"c:1"⟩, .heardAt ⟨0, 0⟩ 1)]
    jobs := .ofList [⟨1, "j", ⟨"a:1"⟩, .running, .cron, none⟩, ⟨2, "k", ⟨"a:1"⟩, .waiting, .backfill, none⟩,
      ⟨3, "l", ⟨"a:1"⟩, .finished, .cron, none⟩, ⟨4, "m", ⟨"b:1"⟩, .running, .cron, none⟩]
    cache := .ofList [⟨1, "s", ⟨"a:1"⟩, 1, none⟩, ⟨2, "t", ⟨"a:1"⟩, 7, none⟩, ⟨3, "u", ⟨"b:1"⟩, 1, none⟩] }

/-- The same work of the dead node, beside other jobs and rows. One of the jobs has the job id of
an unreadable row. -/
private def amongFew : World :=
  { amongMany with
    jobs := .ofList [⟨0, "t", ⟨"c:1"⟩, .running, .cron, none⟩, ⟨1, "j", ⟨"a:1"⟩, .running, .cron, none⟩,
      ⟨2, "k", ⟨"a:1"⟩, .waiting, .backfill, none⟩]
    cache := .ofList [⟨0, "", ⟨"c:1"⟩, 2, none⟩, ⟨1, "s", ⟨"a:1"⟩, 1, none⟩, ⟨2, "t", ⟨"a:1"⟩, 7, none⟩,
      ⟨9, "", ⟨"b:1"⟩, 2, none⟩] }

/-- The second of the two nodes is to get everything. The clock stands still. -/
private def sideAt (id : TaskId) (moment : Time.Instant) :
    Side fun demand => some (.ofList [(⟨"c:1"⟩, demand.total)]) where
  id := id
  chances := fun _ => ⟨fun demand => some (.ofList [(⟨"c:1"⟩, demand.total)]), fun _ => none, moment, 0⟩
  weighed := fun _ => rfl
  unrefused := fun _ _ => rfl

/-- What the takeover leaves among many is seen in its own store, and by the law it is left among few
too: both jobs and the row that can be read go to the second node, and the other row is removed. -/
theorem takeover_goes_by_work_of_two :
    ∃ report after afterThere,
      Reaches 0 (sideAt 0 ⟨0, 0⟩).chances default ⟨"a:1"⟩ .opening (.opening (.initial default amongMany))
          (.finished report) after ∧
        Reaches 1 (sideAt 1 ⟨7, 7⟩).chances default ⟨"a:1"⟩ .opening
            (.opening (.initial default amongFew)) (.finished report) afterThere ∧
          report = ⟨⟨"a:1"⟩, false, 2, 1, 1, false, [⟨"b:1"⟩, ⟨"c:1"⟩], []⟩ ∧
          afterThere.world.jobs.ownerOf 1 = some ⟨"c:1"⟩ ∧ afterThere.world.jobs.ownerOf 2 = some ⟨"c:1"⟩ ∧
          afterThere.world.cache.find? 1 = some ⟨1, "s", ⟨"c:1"⟩, 1, none⟩ ∧
          afterThere.world.cache.find? 2 = none ∧
          after.world.members = afterThere.world.members := by
  have unshared : ∀ world : World, (∀ row ∈ world.cache.rows, row.owner = ⟨"a:1"⟩ →
      row.namesNoJob = false → ∀ other ∈ world.cache.rows, other.jobId = row.jobId → other = row) →
        Unshared world.cache ⟨"a:1"⟩ := fun _ decided => decided
  have clearJobs : ∀ job ∈ amongMany.jobs.rows, job.HeldBy ⟨"a:1"⟩ → job.id ≠ .last := by decide
  have clearRows : ∀ row ∈ amongMany.cache.rows, row.owner = ⟨"a:1"⟩ → row.id ≠ .last := by decide
  have sameWork : SameWork ⟨"a:1"⟩ amongMany amongFew := .of_filter (by decide) (by decide)
  obtain ⟨report, after, afterThere, reaches, reachesThere, jobs, rows, members⟩ :=
    @takeover_goes_by_work _ (sideAt 0 ⟨0, 0⟩) (sideAt 1 ⟨7, 7⟩) default _ (.opening (.initial default amongMany))
      (.opening (.initial default amongFew)) rfl sameWork (unshared amongMany (by decide))
      (unshared amongFew (by decide)) ⟨clearJobs, clearRows⟩ rfl rfl
  have ends : (playRounds 0 (sideAt 0 ⟨0, 0⟩).chances default ⟨"a:1"⟩ 7 .opening
      (.opening (.initial default amongMany))).map (fun last => (last.1, last.2.world.jobs, last.2.world.cache)) =
        some (.finished ⟨⟨"a:1"⟩, false, 2, 1, 1, false, [⟨"b:1"⟩, ⟨"c:1"⟩], []⟩,
          .ofList [⟨1, "j", ⟨"c:1"⟩, .running, .cron, none⟩, ⟨2, "k", ⟨"c:1"⟩, .waiting, .backfill, none⟩,
            ⟨3, "l", ⟨"a:1"⟩, .finished, .cron, none⟩, ⟨4, "m", ⟨"b:1"⟩, .running, .cron, none⟩],
          .ofList [⟨1, "s", ⟨"c:1"⟩, 1, none⟩, ⟨3, "u", ⟨"b:1"⟩, 1, none⟩]) := by
    decide +kernel
  obtain ⟨⟨_, seen⟩, played, same⟩ := Option.map_eq_some_iff.1 ends
  obtain ⟨rfl, sameStores⟩ := Prod.mk.inj same
  obtain ⟨seenJobs, seenRows⟩ := Prod.mk.inj sameStores
  obtain ⟨rfl, rfl⟩ := reaches.finished_unique ⟨7, played⟩
  refine ⟨_, seen, afterThere, reaches, reachesThere, rfl, ?_, ?_, ?_, ?_, members⟩
  · rw [← jobs ⟨1, "j", ⟨"a:1"⟩, .running, .cron, none⟩ List.mem_cons_self (by decide), seenJobs]
    rfl
  · rw [← jobs ⟨2, "k", ⟨"a:1"⟩, .waiting, .backfill, none⟩ (List.mem_cons_of_mem _ List.mem_cons_self) (by decide),
      seenJobs]
    rfl
  · rw [← rows ⟨1, "s", ⟨"a:1"⟩, 1, none⟩ List.mem_cons_self rfl, seenRows]
    rfl
  · rw [← rows ⟨2, "t", ⟨"a:1"⟩, 7, none⟩ (List.mem_cons_of_mem _ List.mem_cons_self) rfl, seenRows]
    rfl

end Handover.Takeover
