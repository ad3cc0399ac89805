import Handover.Proofs.Terms

/-!
Contract: the course of a takeover from round to round, whatever is replied.

Owns: which progress can follow which, and on what reply; that a round only reads the
clock until both stages are over, and that the last round settles the budget of retries.
-/

set_option autoImplicit false

namespace Handover.Takeover

open Coordinator (Outcome roundOf)

/-- A round can lead from one progress to the other. -/
inductive Turns (terms : Terms) (pageSize : Nat) (node : Address) : Progress → Progress → Prop
  | jobsAlive (told : terms.replies (.isAlive node) (.ok true)) :
      Turns terms pageSize node .opening (.opened { skippedAlive := true })
  | jobsDead : Turns terms pageSize node .opening (.jobPage 0 {})
  | unopened : Turns terms pageSize node .opening (.opened {})
  | jobsBroken (after : RowId) (tally : Tally) :
      Turns terms pageSize node (.jobPage after tally) (.opened {})
  | jobsPaged {after : RowId} {tally : Tally} {page : List Job} {last : Job} (count : Nat)
      (told : terms.replies (.pageJobs after node pageSize) (.ok page))
      (isLast : page.getLast? = some last) :
      Turns terms pageSize node (.jobPage after tally)
        (.jobPage last.id { tally with reassigned := count })
  | jobsClear (after : RowId) (tally : Tally) :
      Turns terms pageSize node (.jobPage after tally) (.opened tally)
  | jobsLeft (after : RowId) (tally : Tally) :
      Turns terms pageSize node (.jobPage after tally) (.opened { tally with leftover := true })
  | cacheAlive {jobs : Tally} (told : terms.replies (.isAlive node) (.ok true)) :
      Turns terms pageSize node (.opened jobs) (.closing jobs { skippedAlive := true })
  | cacheDead (jobs : Tally) : Turns terms pageSize node (.opened jobs) (.cachePage jobs 0 {})
  | unlisted (jobs : Tally) : Turns terms pageSize node (.opened jobs) (.closing jobs {})
  | cacheBroken (jobs : Tally) (after : RowId) (tally : Tally) :
      Turns terms pageSize node (.cachePage jobs after tally) (.closing jobs {})
  | cachePaged {jobs : Tally} {after : RowId} {tally : Tally} {page : List CacheRow} {last : CacheRow}
      (moved failed : Nat) (told : terms.replies (.pageCache after node none none pageSize) (.ok page))
      (isLast : page.getLast? = some last) :
      Turns terms pageSize node (.cachePage jobs after tally)
        (.cachePage jobs last.id { tally with reassigned := moved, failed := failed })
  | cacheClear (jobs : Tally) (after : RowId) (tally : Tally) :
      Turns terms pageSize node (.cachePage jobs after tally) (.closing jobs tally)
  | cacheLeft (jobs : Tally) (after : RowId) (tally : Tally) :
      Turns terms pageSize node (.cachePage jobs after tally)
        (.closing jobs { tally with leftover := true })
  | finished {jobs cache : Tally} (report : Report) (isOf : report.node = node)
      (left : report.leftover = (jobs.leftover || cache.leftover)) :
      Turns terms pageSize node (.closing jobs cache) (.finished report)

/-- What is recorded of a job that could not be submitted. -/
def RecordsFailure (jobId : String) (status : JobStatus) (error : String) : Prop :=
  status = .submitFailed ∧ ∃ moment detail, error = failureText moment jobId detail

/-- The calls that a takeover of the node may make. -/
def Asks (node : Address) : Call → Prop
  | .liveness => False
  | .swap _ _ _ => False
  | .reset other record _ => other = node ∧ record = .neverAlive
  | .markJob jobId status error => RecordsFailure jobId status error
  | .activateGraph _ => False
  | .buildGraph _ => False
  | _ => True

/-- The calls of the stage of the jobs, after the check that opens it. -/
def OfJobs (node : Address) : Call → Prop
  | .reset other record _ => other = node ∧ record = .neverAlive
  | .pageJobs _ owner _ => owner = node
  | .aliveNodes => True
  | .weigh _ => True
  | .reassignJobs _ _ => True
  | _ => False

/-- The calls of the stage of the cache that neither look up the node nor write its record. -/
def Plain : Call → Prop
  | .aliveNodes => True
  | .markJob jobId status error => RecordsFailure jobId status error
  | .pageCache _ _ _ _ _ => True
  | .reassignCache _ _ => True
  | .deleteJob _ => True
  | .deleteRow _ => True
  | .weigh _ => True
  | _ => False

/-- The calls of the stage of the cache, after the check that opens it. -/
def OfCache (node : Address) : Call → Prop
  | .reset other record _ => other = node ∧ record = .neverAlive
  | request => Plain request

/-- The calls of the broadcast. -/
def OfBroadcast : Call → Prop
  | .aliveNodes => True
  | .notify _ => True
  | .trigger => True
  | _ => False

/-- The calls that a takeover may make when it has come so far. -/
def Progress.Asks (node : Address) : Progress → Call → Prop
  | .opening => (· = .isAlive node)
  | .jobPage _ _ => OfJobs node
  | .opened _ => (· = .isAlive node)
  | .cachePage _ _ _ => OfCache node
  | .closing _ _ => OfBroadcast
  | .finished _ => fun _ => False

theorem Progress.Asks.asks {node : Address} {progress : Progress} {request : Call}
    (asks : progress.Asks node request) : Takeover.Asks node request := by
  cases progress <;> cases request <;> first | exact asks | trivial

theorem Plain.ofCache {request : Call} (isPlain : Plain request) (node : Address) : OfCache node request := by
  cases request <;> first | exact isPlain | cases isPlain

section Parts

variable {terms : Terms} {node : Address}

theorem sharesFor_keeps (weighs : ∀ demand, terms.calls (.weigh demand)) (demand : Demand) :
    (sharesFor demand).Keeps terms fun _ => True := by
  refine .bind (.ask (weighs demand)) fun reply _ => ?_
  cases reply <;> exact trivial

theorem addUp_keeps {ι : Type} {request : Address → List ι → Script (Except Fault Nat)}
    (each : ∀ dest items, (request dest items).Keeps terms fun _ => True)
    (entries : List (Address × List ι)) : (addUp request entries).Keeps terms fun _ => True := by
  induction entries with
  | nil => exact trivial
  | cons entry rest inductionHypothesis =>
      exact .bind (each _ _) fun _ _ => .bind inductionHypothesis fun _ _ => trivial

theorem moveJobs_keeps (moves : ∀ dest ids, terms.calls (.reassignJobs dest ids))
    (plan : Distribution RowId) : (moveJobs plan).Keeps terms fun _ => True :=
  addUp_keeps (fun dest ids => .ask (moves dest ids)) _

theorem moveKind_keeps (weighs : ∀ demand, terms.calls (.weigh demand))
    (moves : ∀ dest ids, terms.calls (.reassignJobs dest ids)) (kind : ScheduleKind) (page : List Job)
    (nodes : List Address) : (moveKind kind page nodes).Keeps terms fun _ => True := by
  unfold moveKind
  dsimp only
  split
  · exact trivial
  · exact .bind (sharesFor_keeps weighs _) fun _ _ => moveJobs_keeps moves _

theorem destinations_keeps (lists : terms.calls .aliveNodes) :
    (destinations node).run.Keeps terms fun _ => True :=
  .attemptAsk lists (fun _ => trivial) fun _ _ => trivial

variable (calls : ∀ request, Plain request → terms.calls request)

include calls

theorem moveRows_keeps (plan : Distribution String) : (moveRows plan).Keeps terms fun _ => True :=
  addUp_keeps (fun dest jobIds => .ask (calls (.reassignCache dest jobIds) trivial)) _

theorem moveGroups_keeps (submissions : List Submission) (nodes : List Address)
    (groups : List (Option String)) :
    (moveGroups submissions nodes groups).Keeps terms fun _ => True := by
  induction groups with
  | nil => exact trivial
  | cons group rest inductionHypothesis =>
      exact .bind (sharesFor_keeps (fun _ => calls _ trivial) _) fun _ _ =>
        .bind (moveRows_keeps calls _) fun _ _ => .bind inductionHypothesis fun _ _ => trivial

theorem moveSubmitted_keeps (submissions : List Submission) (nodes : List Address) :
    (moveSubmitted submissions nodes).Keeps terms fun _ => True := by
  unfold moveSubmitted
  dsimp only
  split
  · exact trivial
  · exact moveRows_keeps calls _

omit calls in
theorem recordFailure_keeps (clock : terms.deeds .readClock) (jobId detail : String)
    (deletes : terms.calls (.deleteJob jobId))
    (marks : ∀ moment, terms.calls (.markJob jobId .submitFailed (failureText moment jobId detail))) :
    (recordFailure jobId detail).run.Keeps terms fun _ => True := by
  unfold recordFailure
  split
  · exact trivial
  · refine .attemptAsk deletes (fun _ => trivial) fun _ _ => ?_
    exact .attemptOf (.act clock) fun _ _ => .ask (marks _)

theorem dealWith_keeps (clock : terms.deeds .readClock) (row : CacheRow) (flaw : RowFlaw) :
    (dealWith row flaw).run.Keeps terms fun _ => True := by
  unfold dealWith
  split
  · exact .attemptAsk (calls _ trivial) (fun _ => trivial) fun _ _ => trivial
  · exact recordFailure_keeps clock _ _ (calls _ trivial) fun _ => calls _ ⟨rfl, _, _, rfl⟩

theorem dealWithFlaws_keeps (clock : terms.deeds .readClock) (page : List CacheRow) :
    (dealWithFlaws page).Keeps terms fun _ => True := by
  induction page with
  | nil => exact trivial
  | cons row rest inductionHypothesis =>
      unfold dealWithFlaws
      split
      · exact inductionHypothesis
      · exact .bind (dealWith_keeps calls clock row _) fun _ _ =>
          .bind inductionHypothesis fun _ _ => trivial

omit calls in
theorem triggerAll_keeps (triggers : terms.calls .trigger)
    (notifies : ∀ target, terms.calls (.notify target)) (localAddress : Address)
    (targets : List Address) : (triggerAll localAddress targets).Keeps terms fun _ => True := by
  induction targets with
  | nil => exact trivial
  | cons target rest inductionHypothesis =>
      unfold triggerAll
      dsimp only
      split
      · exact .bind (.ask triggers) fun _ _ => .bind inductionHypothesis fun _ _ => trivial
      · exact .bind (.ask (notifies _)) fun _ _ => .bind inductionHypothesis fun _ _ => trivial

omit calls in
theorem broadcast_keeps (lists : terms.calls .aliveNodes) (triggers : terms.calls .trigger)
    (notifies : ∀ target, terms.calls (.notify target)) (localAddress : Address) :
    (broadcast localAddress).Keeps terms fun _ => True := by
  refine .bind (.ask lists) fun reply _ => ?_
  cases reply with
  | ok alive => exact triggerAll_keeps triggers notifies localAddress alive
  | error fault => exact trivial

end Parts

/-! ## Rounds -/

section Rounds

variable {terms : Terms} {settings : Settings} {node : Address}

theorem orElse_keeps {attempt : Attempt Progress} {broken : Progress} {goal : Progress → Prop}
    (keeps : attempt.run.Keeps terms fun result => ∀ progress, result = .ok progress → goal progress)
    (fallback : goal broken) : (orElse attempt broken).Keeps terms goal := by
  refine .bind keeps fun result reached => ?_
  cases result with
  | ok progress => exact reached progress rfl
  | error fault => exact fallback

theorem jobRound_keeps (calls : ∀ request, OfJobs node request → terms.calls request) {pageSize : Nat}
    (after : RowId) (tally : Tally) :
    (jobRound pageSize node after tally).run.Keeps terms fun result =>
      ∀ next, result = .ok next → Turns terms pageSize node (.jobPage after tally) next := by
  unfold jobRound
  refine .attemptAsk (calls _ rfl) (fun _ => nofun) fun page told => ?_
  split
  case h_1 =>
    refine .attemptAsk (calls _ rfl) (fun _ => nofun) fun remaining _ => ?_
    split
    · rintro next ⟨⟩
      exact .jobsClear after tally
    · refine .attemptAsk (calls _ ⟨rfl, rfl⟩) (fun _ => nofun) fun _ _ => ?_
      rintro next ⟨⟩
      exact .jobsLeft after tally
  case h_2 last isLast =>
    have weighs := fun demand => calls (.weigh demand) trivial
    have moves := fun dest ids => calls (.reassignJobs dest ids) trivial
    refine .attempt (destinations_keeps (calls _ trivial)) (fun _ _ => nofun) fun alive _ => ?_
    refine .attemptOf (moveKind_keeps weighs moves _ _ _) fun cron _ => ?_
    refine .attemptOf (moveKind_keeps weighs moves _ _ _) fun backfill _ => ?_
    rintro next ⟨⟩
    exact .jobsPaged _ told isLast

theorem cacheRound_keeps (calls : ∀ request, OfCache node request → terms.calls request)
    (clock : terms.deeds .readClock) {pageSize : Nat} (jobs : Tally) (after : RowId) (tally : Tally) :
    (cacheRound pageSize node jobs after tally).run.Keeps terms fun result =>
      ∀ next, result = .ok next → Turns terms pageSize node (.cachePage jobs after tally) next := by
  unfold cacheRound
  refine .attemptAsk (calls _ trivial) (fun _ => nofun) fun page told => ?_
  split
  case h_1 =>
    refine .attemptAsk (calls _ trivial) (fun _ => nofun) fun remaining _ => ?_
    split
    · rintro next ⟨⟩
      exact .cacheClear jobs after tally
    · refine .attemptAsk (calls _ ⟨rfl, rfl⟩) (fun _ => nofun) fun _ _ => ?_
      rintro next ⟨⟩
      exact .cacheLeft jobs after tally
  case h_2 last isLast =>
    have plain := fun request (isPlain : Plain request) => calls request (isPlain.ofCache node)
    refine .attemptOf (dealWithFlaws_keeps plain clock page) fun dealt _ => ?_
    refine .attempt (destinations_keeps (calls _ trivial)) (fun _ _ => nofun) fun alive _ => ?_
    refine .attemptOf (moveGroups_keeps plain _ _ _) fun queued _ => ?_
    refine .attemptOf (moveSubmitted_keeps plain _ _) fun submitted _ => ?_
    rintro next ⟨⟩
    exact .cachePaged _ _ told isLast

theorem settle_keeps_terms (forgets : terms.deeds (.forgetRetries node))
    (schedules : terms.deeds (.scheduleRetry node)) (jobs cache : Tally) :
    (settle node jobs cache).Keeps terms fun _ => True := by
  unfold settle
  dsimp only
  split
  · refine ⟨forgets, fun _ => ?_⟩
    split
    · exact ⟨schedules, fun _ => trivial⟩
    · exact trivial
  · split
    · exact ⟨schedules, fun _ => trivial⟩
    · exact trivial

/-- A round goes the course, and has only the effects and calls that the terms give it. -/
theorem round_keeps {progress : Progress} (calls : ∀ request, progress.Asks node request → terms.calls request)
    (clock : terms.deeds .readClock)
    (budget : ∀ jobs cache, progress = .closing jobs cache →
      terms.deeds (.forgetRetries node) ∧ terms.deeds (.scheduleRetry node))
    (unfinished : ∀ report, progress ≠ .finished report) :
    (round settings node progress).Keeps terms (Turns terms settings.pageSize node progress) := by
  cases progress with
  | opening =>
      refine orElse_keeps ?_ .unopened
      refine .attemptAsk (calls _ rfl) (fun _ => nofun) fun alive told => ?_
      rintro next ⟨⟩
      cases alive with
      | true => exact .jobsAlive told
      | false => exact .jobsDead
  | jobPage after tally => exact orElse_keeps (jobRound_keeps calls after tally) (.jobsBroken after tally)
  | opened jobs =>
      refine orElse_keeps ?_ (.unlisted jobs)
      refine .attemptAsk (calls _ rfl) (fun _ => nofun) fun alive told => ?_
      rintro next ⟨⟩
      cases alive with
      | true => exact .cacheAlive told
      | false => exact .cacheDead jobs
  | cachePage jobs after tally =>
      exact orElse_keeps (cacheRound_keeps calls clock jobs after tally) (.cacheBroken jobs after tally)
  | closing jobs cache =>
      obtain ⟨forgets, schedules⟩ := budget jobs cache rfl
      refine .bind (settle_keeps_terms forgets schedules jobs cache) fun _ _ => ?_
      exact .bind (broadcast_keeps (calls _ trivial) (calls _ trivial) (fun _ => calls _ trivial) _)
        fun _ _ => .finished _ rfl rfl
  | finished report => exact absurd rfl (unfinished report)

end Rounds

end Handover.Takeover
