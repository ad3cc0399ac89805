import Handover.Proofs.Flaws

/-!
Contract: what is left when the failure of a submission could not be recorded.

Recording writes two stores, and the cache comes first: its rows are gone before the job
is marked. So an attempt that ends in a fault never touches the job store, and it leaves
the cache alone just when that is what was refused.

Owns: which of the two calls ended an attempt and what it left, and that an attempt can
be made again until it succeeds: then both stores hold what one successful attempt would
have left.
-/

set_option autoImplicit false

namespace Handover.Takeover

open Coordinator (TaskId)
open Time (Instant)

/-- What the collaborators hold once the failure of a job is recorded. -/
def recorded (world : World) (jobId detail : String) (moment : Instant) : World :=
  { world with
    jobs := world.jobs.mark jobId .submitFailed (failureText moment jobId detail)
    cache := (world.cache.deleteJob jobId).1 }

/-- What an attempt to record the failure of a job leaves that ended in `fault`. -/
structure Unrecorded (before after : World) (jobId detail : String) (fault : Fault)
    (made : List Made) : Prop where
  /-- An attempt for a blank job id ends in no fault. -/
  named : Text.isBlank jobId = false
  /-- The last call that was made was refused, with the text of the fault: the deletion,
  or after a deletion the mark. -/
  refused : ∃ text, fault = .store text ∧
    (made = [(.deleteJob jobId, some text)] ∨ ∃ moment,
      made = [(.deleteJob jobId, none),
        (.markJob jobId .submitFailed (failureText moment jobId detail), some text)])
  /-- Neither the job store nor anything else but the cache has changed. -/
  rest : { after with cache := before.cache } = before
  /-- Of the cache just the rows of the job are gone, if they were deleted. -/
  rows : ∀ row, row ∈ after.cache ↔
    row ∈ before.cache ∧ (row.jobId = jobId → (.deleteJob jobId, none) ∉ made)
  /-- Everything is as it was if the deletion was refused, or had nothing to delete. -/
  intact : after = before ↔
    (.deleteJob jobId, none) ∉ made ∨ ∀ row ∈ before.cache, row.jobId ≠ jobId
  /-- A later attempt succeeds unless one of its calls is refused again, and then both
  stores hold what one successful attempt would have left in the first place. -/
  again : ∀ (id : TaskId) (chances : Chances) (session : Session), session.world = after →
    ∃ result last, (recordFailure jobId detail).run.play id chances session = some (result, last) ∧
      ((∀ turn, (chances turn).refused (.deleteJob jobId) = none ∧
          ∀ status error, (chances turn).refused (.markJob jobId status error) = none) →
        result = .ok ()) ∧
      (result = .ok () → ∃ moment, last.world = recorded before jobId detail moment)

/-! ## What the calls leave -/

theorem deleteJob_deleteJob (cache : Cache) (jobId : String) :
    (((cache.deleteJob jobId).1).deleteJob jobId).1 = (cache.deleteJob jobId).1 := by
  apply Table.ext_rows
  simp [Cache.deleteJob]

theorem mem_deleteJob {cache : Cache} {jobId : String} {row : CacheRow} :
    row ∈ (cache.deleteJob jobId).1 ↔ row ∈ cache ∧ row.jobId ≠ jobId := by
  simp [Cache.deleteJob]

theorem deleteJob_eq_self_iff {cache : Cache} {jobId : String} :
    (cache.deleteJob jobId).1 = cache ↔ ∀ row ∈ cache, row.jobId ≠ jobId := by
  constructor
  · intro same row member
    rw [← same] at member
    exact (mem_deleteJob.1 member).2
  · intro absent
    apply Table.ext_rows
    exact List.filter_eq_self.2 fun row member => by simpa using absent row member

/-- A deletion made twice is made once. -/
theorem recorded_of_deleted (world : World) (jobId detail : String) (moment : Instant) :
    recorded { world with cache := (world.cache.deleteJob jobId).1 } jobId detail moment =
      recorded world jobId detail moment := by
  simp [recorded, deleteJob_deleteJob]

/-- An attempt for a job comes to its end. It succeeds if neither of its calls is refused,
and then the failure is recorded. -/
theorem recordFailure_ends (id : TaskId) (chances : Chances) {jobId : String}
    (named : Text.isBlank jobId = false) (detail : String) (session : Session) :
    ∃ result last, (recordFailure jobId detail).run.play id chances session = some (result, last) ∧
      ((∀ turn, (chances turn).refused (.deleteJob jobId) = none ∧
          ∀ status error, (chances turn).refused (.markJob jobId status error) = none) →
        result = .ok ()) ∧
      (result = .ok () → ∃ moment, last.world = recorded session.world jobId detail moment) := by
  have leads : (recordFailure jobId detail).run.Leads id chances session _ :=
    recordFailure_leads jobId detail session
  obtain ⟨result, made, last, played, continues, records⟩ := leads
  refine ⟨result, last, played, ?_⟩
  cases records with
  | ignored nameless => exact absurd (named.symm.trans nameless) nofun
  | kept _ text =>
      refine ⟨fun unrefused => ?_, nofun⟩
      exact absurd List.mem_cons_self (continues.accepted (fun turn => (unrefused turn).1) text)
  | unmarked _ moment text =>
      refine ⟨fun unrefused => ?_, nofun⟩
      exact absurd (List.mem_cons_of_mem _ List.mem_cons_self)
        (continues.accepted (fun turn => (unrefused turn).2 _ _) text)
  | recorded _ moment => exact ⟨fun _ => rfl, fun _ => ⟨moment, continues.world⟩⟩

/-- An attempt to record a failure that ends in a fault has changed nothing but the cache,
and that just by deleting the rows of the job before the mark was refused. Nothing is lost
to a caller who repeats it. -/
theorem failure_unrecorded {id : TaskId} {chances : Chances} {session last : Session}
    {jobId detail : String} {fault : Fault}
    (failed : (recordFailure jobId detail).run.play id chances session = some (.error fault, last)) :
    ∃ made, last.calls = session.calls ++ made ∧
      Unrecorded session.world last.world jobId detail fault made := by
  obtain ⟨made, continues, records⟩ := (recordFailure_leads jobId detail session).of_play failed
  refine ⟨made, continues.calls, ?_⟩
  cases records with
  | kept named text =>
      have same : last.world = session.world := continues.world
      have notDeleted : ((.deleteJob jobId, none) : Made) ∉ [(.deleteJob jobId, some text)] := by simp
      rw [same]
      exact
        { named := named
          refused := ⟨text, rfl, .inl rfl⟩
          rest := rfl
          rows := fun row => by simp
          intact := iff_of_true rfl (.inl notDeleted)
          again := fun id chances later there =>
            there ▸ recordFailure_ends id chances named detail later }
  | unmarked named moment text =>
      have left : last.world =
        { session.world with cache := (session.world.cache.deleteJob jobId).1 } := continues.world
      rw [left]
      exact
        { named := named
          refused := ⟨text, rfl, .inr ⟨moment, rfl⟩⟩
          rest := rfl
          rows := fun row => by simp [mem_deleteJob]
          intact := by
            simp only [List.mem_cons_self, not_true_eq_false, false_or, ← deleteJob_eq_self_iff]
            exact ⟨congrArg World.cache, fun same => by rw [same]⟩
          again := fun id chances later there => by
            have ends := recordFailure_ends id chances named detail later
            simpa only [there, recorded_of_deleted] using ends }

/-- A job of a dead node, and the node's row for it, which cannot be read. -/
private def unreadable : Session :=
  .opening (.initial default
    { World.initial with
      jobs := .ofList [⟨1, "j", ⟨"a:1"⟩, .running, .cron, none⟩]
      cache := .ofList [⟨1, "j", ⟨"a:1"⟩, 7, none⟩] })

/-- Every mark is refused, and nothing else. -/
private def markless : Chances := fun _ =>
  { weigher := .none
    refused := fun
      | .markJob _ _ _ => some "down"
      | _ => none
    wall := ⟨0, 0⟩
    draw := 0 }

theorem failure_unrecorded_for_row :
    ∃ last made, (recordFailure "j" "m").run.play 0 markless unreadable =
        some (.error (.store "down"), last) ∧
      last.calls = [] ++ made ∧
      Unrecorded unreadable.world last.world "j" "m" (.store "down") made := by
  have failed : (recordFailure "j" "m").run.play 0 markless unreadable = some (.error (.store "down"), _) :=
    rfl
  obtain ⟨made, told, left⟩ := failure_unrecorded failed
  exact ⟨_, made, failed, told, left⟩

/-- The mark is refused and the attempt ends in that fault, but the row is gone, and no
listing of the node's rows finds it again. -/
theorem row_gone_unrecorded :
    ∃ last, (recordFailure "j" "m").run.play 0 markless unreadable =
        some (.error (.store "down"), last) ∧
      last.world ≠ unreadable.world ∧
      unreadable.world.cache.page 0 ⟨"a:1"⟩ none none 1 = [⟨1, "j", ⟨"a:1"⟩, 7, none⟩] ∧
      last.world.cache.page 0 ⟨"a:1"⟩ none none 1 = [] ∧
      last.world.jobs.findJob? "j" = some ⟨1, "j", ⟨"a:1"⟩, .running, .cron, none⟩ := by
  refine ⟨_, rfl, ?_, ?_, ?_, ?_⟩ <;> decide

end Handover.Takeover
