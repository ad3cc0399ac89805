import Handover.Proofs.Parting
import Handover.Proofs.Split
import Handover.Proofs.Transcript

/-!
Contract: on what grounds a takeover writes.

Owns: what a takeover has heard when it resets the record of its node, when it moves jobs,
and when it reports that work was left: a reset goes by the liveness check of its stage, a
move by the page that was listed last, and work that is left by a reset that was carried out.

Does not own: what has become of these grounds by the time of the write.
-/

set_option autoImplicit false

namespace Handover.Takeover

open Coordinator (Duty Outcome roundOf takenScript)

/-! ## Grounds -/

/-- The last liveness check that was heard found the node dead. -/
def FoundDead (node : Address) (heard : List Heard) : Prop :=
  ∃ newer older, heard = newer ++ ⟨.isAlive node, .ok false⟩ :: older ∧
    ∀ one ∈ newer, ∀ other, one.request ≠ .isAlive other

/-- The ids that a call moves. -/
def movedBy (one : Heard) : List RowId :=
  match one.request with
  | .reassignJobs _ ids => ids
  | _ => []

/-- The calls by which the jobs of a page are moved. -/
inductive Handing : Call → Prop
  | aliveNodes : Handing .aliveNodes
  | weigh (demand : Demand) : Handing (.weigh demand)
  | reassign (dest : Address) (ids : List RowId) : Handing (.reassignJobs dest ids)

/-- The page of jobs that was heard last, and the ids that were moved since. -/
def Paged (pageSize : Nat) (node : Address) (page : List Job) (moved : List RowId) (heard : List Heard) :
    Prop :=
  ∃ after newer older, heard = newer ++ ⟨.pageJobs after node pageSize, .ok page⟩ :: older ∧
    (∀ one ∈ newer, Handing one.request) ∧ newer.flatMap movedBy = moved

/-- A reset of the node's record was carried out. -/
def WasReset (node : Address) (heard : List Heard) : Prop :=
  ⟨.reset node .neverAlive true, .ok ()⟩ ∈ heard

/-- A takeover makes its calls on these grounds. The ids that it moves are on the page listed
last, and are not among those moved since. -/
def Permits (pageSize : Nat) (node : Address) (heard : List Heard) : Call → Prop
  | .isAlive other => other = node
  | .reset other record synchronized =>
      other = node ∧ record = .neverAlive ∧ synchronized = true ∧ FoundDead node heard
  | .reassignJobs _ ids => ∃ page moved, Paged pageSize node page moved heard ∧
      (ids ++ moved).Subperm (page.map Job.id)
  | _ => True

/-- What a takeover has heard when it has come so far. -/
def Stands (node : Address) (heard : List Heard) : Progress → Prop
  | .opening => True
  | .jobPage _ tally => FoundDead node heard ∧ tally.leftover = false
  | .opened jobs => jobs.leftover = true → WasReset node heard
  | .cachePage jobs _ tally =>
      FoundDead node heard ∧ tally.leftover = false ∧ (jobs.leftover = true → WasReset node heard)
  | .closing jobs cache => (jobs.leftover || cache.leftover) = true → WasReset node heard
  | .finished report => report.leftover = true → WasReset node heard

section Heard

variable {pageSize : Nat} {node : Address} {page : List Job} {moved : List RowId} {heard : List Heard}
  {one : Heard}

theorem FoundDead.now : FoundDead node (⟨.isAlive node, .ok false⟩ :: heard) :=
  ⟨[], heard, rfl, List.forall_mem_nil _⟩

theorem FoundDead.later (found : FoundDead node heard) (apart : ∀ other, one.request ≠ .isAlive other) :
    FoundDead node (one :: heard) := by
  obtain ⟨newer, older, rfl, none⟩ := found
  exact ⟨one :: newer, older, rfl, List.forall_mem_cons.2 ⟨apart, none⟩⟩

theorem Paged.now (after : RowId) :
    Paged pageSize node page [] (⟨.pageJobs after node pageSize, .ok page⟩ :: heard) :=
  ⟨after, [], heard, rfl, List.forall_mem_nil _, rfl⟩

theorem Paged.later (paged : Paged pageSize node page moved heard) (handing : Handing one.request) :
    Paged pageSize node page (movedBy one ++ moved) (one :: heard) := by
  obtain ⟨after, newer, older, rfl, only, rfl⟩ := paged
  exact ⟨after, one :: newer, older, rfl, List.forall_mem_cons.2 ⟨handing, only⟩, rfl⟩

theorem WasReset.later (reset : WasReset node heard) : WasReset node (one :: heard) :=
  List.mem_cons_of_mem one reset

/-- The last reset that was carried out, and what was heard since. -/
theorem WasReset.last (reset : WasReset node heard) : ∃ newer older,
    heard = newer ++ ⟨.reset node .neverAlive true, .ok ()⟩ :: older ∧ ¬ WasReset node newer :=
  List.eq_append_cons_of_mem reset

end Heard

/-! ## Parts of a round -/

/-- Calls that need no grounds, and that neither look up the node nor write its record. -/
private structure Groundless (request : Call) : Prop where
  permitted : ∀ pageSize node heard, Permits pageSize node heard request
  unchecked : ∀ other, request ≠ .isAlive other

private theorem Groundless.of_plain {request : Call} (plain : Plain request) : Groundless request :=
  ⟨fun _ _ _ => by cases request <;> trivial, by rintro other rfl; exact plain⟩

private theorem Groundless.of_broadcast {request : Call} (told : OfBroadcast request) : Groundless request :=
  ⟨fun _ _ _ => by cases request <;> trivial, by rintro other rfl; exact told⟩

/-- Any effects and any replies, and calls of some sort. -/
private def only (calls : Call → Prop) : Terms := ⟨fun _ => True, calls, fun _ _ => True⟩

section Parts

variable {α : Type} {pageSize : Nat} {node : Address} {page : List Job} {moved : List RowId}
  {heard : List Heard}

/-- Groundless calls are permitted, whatever was heard. -/
private theorem groundless_recalls {calls : Call → Prop} {script : Script α} {goal : α → Prop}
    {kept : List Heard → Prop} (keeps : script.Keeps (only calls) goal)
    (groundless : ∀ request, calls request → Groundless request)
    (still : ∀ heard request reply, calls request → kept heard → kept (⟨request, reply⟩ :: heard))
    (now : kept heard) :
    script.Recalls (Permits pageSize node) (fun heard value => goal value ∧ kept heard) heard :=
  keeps.recalls (fun _ _ => trivial) (fun _ _ _ called => (groundless _ called).permitted _ _ _)
    (fun _ _ _ kept called => still _ _ _ called kept) now

/-- The takeover is at a page of jobs, of which some are moved. -/
private structure Moving (pageSize : Nat) (node : Address) (page : List Job) (moved : List RowId)
    (heard : List Heard) : Prop where
  dead : FoundDead node heard
  paged : Paged pageSize node page moved heard

/-- The calls that steer a move. -/
private def Steers (request : Call) : Prop := request = .aliveNodes ∨ ∃ demand, request = .weigh demand

private theorem Steers.weigh (demand : Demand) : (only Steers).calls (.weigh demand) := .inr ⟨demand, rfl⟩

private theorem Steers.groundless {request : Call} (steers : Steers request) : Groundless request := by
  rcases steers with rfl | ⟨demand, rfl⟩
  · exact .of_plain trivial
  · exact .of_plain trivial

private theorem Moving.steers {request : Call} {reply : request.Reply}
    (moving : Moving pageSize node page moved heard) (steers : Steers request) :
    Moving pageSize node page moved (⟨request, reply⟩ :: heard) := by
  refine ⟨moving.dead.later steers.groundless.unchecked, ?_⟩
  rcases steers with rfl | ⟨demand, rfl⟩
  · exact moving.paged.later .aliveNodes
  · exact moving.paged.later (.weigh demand)

private theorem Moving.moves {dest : Address} {ids : List RowId}
    {reply : Call.Reply (.reassignJobs dest ids)} (moving : Moving pageSize node page moved heard) :
    Moving pageSize node page (ids ++ moved) (⟨.reassignJobs dest ids, reply⟩ :: heard) :=
  ⟨moving.dead.later nofun, moving.paged.later (.reassign dest ids)⟩

private theorem steering_recalls {script : Script α} {goal : α → Prop}
    (keeps : script.Keeps (only Steers) goal) (moving : Moving pageSize node page moved heard) :
    script.Recalls (Permits pageSize node)
      (fun heard value => goal value ∧ Moving pageSize node page moved heard) heard :=
  groundless_recalls keeps (fun _ steers => steers.groundless)
    (fun _ _ _ steers moving => Moving.steers moving steers) moving

private theorem moveEntries_recalls {entries : List (Address × List RowId)}
    (moving : Moving pageSize node page moved heard)
    (room : (entries.flatMap Prod.snd ++ moved).Subperm (page.map Job.id)) :
    (addUp (fun dest ids => Script.ask (.reassignJobs dest ids)) entries).Recalls (Permits pageSize node)
      (fun heard _ => ∃ more, more.Perm (entries.flatMap Prod.snd) ∧
        Moving pageSize node page (more ++ moved) heard) heard := by
  induction entries generalizing moved heard with
  | nil => exact ⟨[], .nil, moving⟩
  | cons entry rest inductionHypothesis =>
      obtain ⟨dest, ids⟩ := entry
      have later : (rest.flatMap Prod.snd ++ (ids ++ moved)).Subperm (page.map Job.id) := by
        rw [List.flatMap_cons, List.append_assoc] at room
        exact (List.perm_append_comm_assoc _ ids moved).subperm.trans room
      have now : (ids ++ moved).Subperm (page.map Job.id) :=
        (List.sublist_append_right _ _).subperm.trans later
      refine ⟨⟨page, moved, moving.paged, now⟩, fun reply => ?_⟩
      refine (inductionHypothesis moving.moves later).bind ?_
      rintro heard _ ⟨more, perm, moving⟩
      refine ⟨more ++ ids, ?_, ?_⟩
      · exact (perm.append_right ids).trans List.perm_append_comm
      · rwa [List.append_assoc]

private theorem moveKind_recalls {kind : ScheduleKind} {nodes : List Address}
    (moving : Moving pageSize node page moved heard)
    (room : (idsOfKind kind page ++ moved).Subperm (page.map Job.id)) :
    (moveKind kind page nodes).Recalls (Permits pageSize node)
      (fun heard _ => ∃ more, more.Subperm (idsOfKind kind page) ∧
        Moving pageSize node page (more ++ moved) heard) heard := by
  unfold moveKind
  dsimp only
  split
  case isTrue => exact ⟨[], List.nil_subperm, moving⟩
  case isFalse =>
    refine (steering_recalls (sharesFor_keeps Steers.weigh _) moving).bind ?_
    rintro heard shares ⟨-, moving⟩
    have handed := distribute_subperm (idsOfKind kind page) shares nodes
    refine (moveEntries_recalls moving (((List.subperm_append_right moved).2 handed).trans room)).mono ?_
    rintro heard _ ⟨more, perm, moving⟩
    exact ⟨more, perm.subperm.trans handed, moving⟩

end Parts

/-! ## Rounds -/

section Rounds

variable {pageSize : Nat} {node : Address} {heard : List Heard}

theorem openJobs_recalls : (openJobs node).run.Recalls (Permits pageSize node)
    (fun heard result => Stands node heard (result.toOption.getD (.opened {}))) heard := by
  refine .attemptAsk rfl (fun _ => nofun) fun alive => ?_
  cases alive with
  | true => exact nofun
  | false => exact ⟨.now, rfl⟩

theorem jobRound_recalls {after : RowId} {tally : Tally} (dead : FoundDead node heard)
    (fresh : tally.leftover = false) : (jobRound pageSize node after tally).run.Recalls
      (Permits pageSize node)
      (fun heard result => Stands node heard (result.toOption.getD (.opened {}))) heard := by
  unfold jobRound
  refine .attemptAsk trivial (fun _ => nofun) fun page => ?_
  have opening : Moving pageSize node page [] (⟨.pageJobs after node pageSize, .ok page⟩ :: heard) :=
    ⟨dead.later nofun, .now after⟩
  split
  case h_1 =>
    refine .attemptAsk trivial (fun _ => nofun) fun remaining => ?_
    split
    · exact fun left => absurd (fresh.symm.trans left) nofun
    · refine .attemptAsk ⟨rfl, rfl, rfl, opening.dead.later nofun⟩ (fun _ => nofun) fun _ => ?_
      exact fun _ => List.mem_cons_self
  case h_2 last isLast =>
    refine .attempt (steering_recalls (destinations_keeps (.inl rfl)) opening) (fun _ _ _ => nofun) ?_
    rintro heard nodes ⟨-, moving⟩
    have parts := idsOfKind_perm page
    have roomCron : (idsOfKind .cron page ++ []).Subperm (page.map Job.id) := by
      rw [List.append_nil]
      exact (List.sublist_append_left _ _).subperm.trans parts.subperm
    refine .attemptOf (moveKind_recalls moving roomCron) ?_
    rintro heard cron ⟨moved, ofCron, moving⟩
    rw [List.append_nil] at moving
    have roomBackfill : (idsOfKind .backfill page ++ moved).Subperm (page.map Job.id) :=
      ((List.subperm_append_left _).2 ofCron).trans (List.perm_append_comm.trans parts).subperm
    refine .attemptOf (moveKind_recalls moving roomBackfill) ?_
    rintro heard backfill ⟨_, _, moving⟩
    exact ⟨moving.dead, fresh⟩

/-- What a stage of the cache goes by: the node was found dead, and if jobs were left, its
record was reset. -/
private def Caching (node : Address) (jobs : Tally) (heard : List Heard) : Prop :=
  FoundDead node heard ∧ (jobs.leftover = true → WasReset node heard)

private theorem Caching.later {jobs : Tally} {one : Heard} (caching : Caching node jobs heard)
    (apart : ∀ other, one.request ≠ .isAlive other) : Caching node jobs (one :: heard) :=
  ⟨caching.1.later apart, fun left => (caching.2 left).later⟩

private theorem Caching.plain {jobs : Tally} {request : Call} {reply : request.Reply}
    (caching : Caching node jobs heard) (plain : Plain request) :
    Caching node jobs (⟨request, reply⟩ :: heard) :=
  caching.later (Groundless.of_plain plain).unchecked

/-- Where the stage of the cache leaves nothing, only what the jobs left counts. -/
private theorem stands_closing {jobs cache : Tally} (fresh : cache.leftover = false)
    (left : jobs.leftover = true → WasReset node heard) : Stands node heard (.closing jobs cache) := by
  intro either
  rw [fresh, Bool.or_false] at either
  exact left either

theorem openCache_recalls {jobs : Tally} (left : jobs.leftover = true → WasReset node heard) :
    (openCache node jobs).run.Recalls (Permits pageSize node)
      (fun heard result => Stands node heard (result.toOption.getD (.closing jobs {}))) heard := by
  have later : ∀ reply, jobs.leftover = true → WasReset node (⟨.isAlive node, reply⟩ :: heard) :=
    fun _ was => (left was).later
  refine .attemptAsk rfl (fun _ => stands_closing rfl (later _)) fun alive => ?_
  cases alive with
  | true => exact stands_closing rfl (later _)
  | false => exact ⟨.now, rfl, later _⟩

theorem cacheRound_recalls {jobs tally : Tally} {after : RowId} (dead : FoundDead node heard)
    (fresh : tally.leftover = false) (left : jobs.leftover = true → WasReset node heard) :
    (cacheRound pageSize node jobs after tally).run.Recalls (Permits pageSize node)
      (fun heard result => Stands node heard (result.toOption.getD (.closing jobs {}))) heard := by
  unfold cacheRound
  have listed : ∀ reply,
      Caching node jobs (⟨.pageCache after node none none pageSize, reply⟩ :: heard) :=
    fun _ => Caching.plain ⟨dead, left⟩ trivial
  refine .attemptAsk trivial (fun _ => stands_closing rfl (listed _).2) fun page => ?_
  split
  case h_1 =>
    have looked : ∀ reply, Caching node jobs (⟨.pageCache 0 node none none 1, reply⟩ ::
        ⟨.pageCache after node none none pageSize, .ok page⟩ :: heard) :=
      fun _ => (listed (.ok page)).plain trivial
    refine .attemptAsk trivial (fun _ => stands_closing rfl (looked _).2) fun remaining => ?_
    split
    · exact stands_closing fresh (looked _).2
    · have broken : ∀ reply, Caching node jobs (⟨.reset node .neverAlive true, reply⟩ ::
          ⟨.pageCache 0 node none none 1, .ok remaining⟩ ::
            ⟨.pageCache after node none none pageSize, .ok page⟩ :: heard) :=
        fun _ => (looked (.ok remaining)).later fun _ => nofun
      refine .attemptAsk ⟨rfl, rfl, rfl, (looked _).1⟩ (fun _ => stands_closing rfl (broken _).2) fun _ => ?_
      exact fun _ => List.mem_cons_self
  case h_2 last isLast =>
    have keeps : ∀ {α : Type} {script : Script α} {goal : α → Prop} {heard : List Heard},
        script.Keeps (only Plain) goal → Caching node jobs heard → script.Recalls (Permits pageSize node)
          (fun heard value => goal value ∧ Caching node jobs heard) heard :=
      fun keeps now => groundless_recalls keeps (fun _ => .of_plain)
        (fun _ _ _ plain caching => Caching.plain caching plain) now
    refine .attemptOf (keeps (dealWithFlaws_keeps (fun _ plain => plain) trivial page) (listed _)) ?_
    rintro heard dealt ⟨-, caching⟩
    refine .attempt (keeps (destinations_keeps trivial) caching)
      (fun _ _ caching => stands_closing rfl caching.2.2) ?_
    rintro heard nodes ⟨-, caching⟩
    refine .attemptOf (keeps (moveGroups_keeps (fun _ plain => plain) _ _ _) caching) ?_
    rintro heard queued ⟨-, caching⟩
    refine .attemptOf (keeps (moveSubmitted_keeps (fun _ plain => plain) _ _) caching) ?_
    rintro heard submitted ⟨-, caching⟩
    exact ⟨caching.1, fresh, caching.2⟩

theorem close_recalls {settings : Settings} {jobs cache : Tally}
    (left : (jobs.leftover || cache.leftover) = true → WasReset node heard) :
    (close settings node jobs cache).Recalls (Permits pageSize node) (Stands node) heard := by
  have still : ∀ heard (request : Call) reply, OfBroadcast request →
      ((jobs.leftover || cache.leftover) = true → WasReset node heard) →
        (jobs.leftover || cache.leftover) = true → WasReset node (⟨request, reply⟩ :: heard) :=
    fun _ _ _ _ left was => (left was).later
  refine (groundless_recalls (settle_keeps_terms trivial trivial jobs cache) (fun _ => .of_broadcast) still
    left).bind ?_
  rintro heard _ ⟨-, left⟩
  refine (groundless_recalls (broadcast_keeps trivial trivial (fun _ => trivial) _) (fun _ => .of_broadcast)
    still left).bind ?_
  rintro heard _ ⟨-, left⟩
  exact left

/-- A round makes its calls on their grounds, and comes to a progress that stands on its own. -/
theorem round_recalls {settings : Settings} {progress : Progress} (stands : Stands node heard progress) :
    (round settings node progress).Recalls (Permits settings.pageSize node) (Stands node) heard := by
  cases progress with
  | opening => exact orElse_recalls openJobs_recalls
  | jobPage after tally => exact orElse_recalls (jobRound_recalls stands.1 stands.2)
  | opened jobs => exact orElse_recalls (openCache_recalls stands)
  | cachePage jobs after tally =>
      exact orElse_recalls (cacheRound_recalls stands.1 stands.2.1 stands.2.2)
  | closing jobs cache => exact close_recalls stands
  | finished report => exact stands

end Rounds

end Handover.Takeover

namespace Handover.Coordinator.State

open Takeover (Permits Stands WasReset Report)

variable {settings : Settings} {world : World} {events : List Event} {state : State}
  {id : TaskId} {task : Task} {node : Address}

/-- A call that a takeover has under way has its grounds in what the task heard since the
takeover began. -/
theorem run_grounds (run : (initial settings world).run events = some state)
    (found : state.task? id = some task) (takesOver : task.duty.node? = some node) {request : Call}
    {started : Bool} (calls : task.call? = some (request, started)) : ∃ begun during,
      Since (initial settings world) events id node begun during ∧
      Permits settings.pageSize node (begun.heard id during) request := by
  obtain ⟨begun, during, began, permitted⟩ := run_permits (trivial : Stands node [] .opening)
    (fun _ _ _ => Takeover.round_recalls) run found takesOver calls
  exact ⟨begun, during, began.toSince, permitted⟩

/-- A takeover that is about to be finished and reports that work was left has reset the record
of its node. -/
theorem run_wasReset (run : (initial settings world).run events = some state)
    (found : state.task? id = some task) (takesOver : task.duty.node? = some node) {report : Report}
    {started : Bool} (work : task.work = some ⟨.done (.progress (.finished report)), started⟩)
    (left : report.leftover = true) : ∃ begun during,
      Since (initial settings world) events id node begun during ∧
      WasReset node (begun.heard id during) := by
  obtain ⟨begun, during, began, stood⟩ := run_stands (trivial : Stands node [] .opening)
    (fun _ _ _ => Takeover.round_recalls) run found takesOver work
  exact ⟨begun, during, began.toSince, stood left⟩

end Handover.Coordinator.State
