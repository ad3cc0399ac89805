import Handover.Proofs.Counts
import Handover.Takeover.Stages

/-!
Contract: the calls by which the unreadable rows of a page are dealt with.

Owns: what it comes to that the failure of a submission is recorded, the shapes that
the calls for one row may take, those for a page put together from them, and that the
script makes such calls and counts the rows it succeeded with.

A row without a job id is dropped by its row id. Any other has its job id dropped
from the cache, and only then its job is marked, so that a refusal of the first
call leaves both stores as they are.
-/

set_option autoImplicit false

namespace Handover.Takeover

open Coordinator (TaskId)

/-- What it comes to that the failure of a submission is recorded. -/
inductive Records (jobId detail : String) : Except Fault Unit → List Made → Prop
  | ignored (nameless : Text.isBlank jobId = true) : Records jobId detail (.ok ()) []
  | kept (named : Text.isBlank jobId = false) (text : String) :
      Records jobId detail (.error (.store text)) [(.deleteJob jobId, some text)]
  | unmarked (named : Text.isBlank jobId = false) (moment : Time.Instant) (text : String) :
      Records jobId detail (.error (.store text))
        [(.deleteJob jobId, none),
          (.markJob jobId .submitFailed (failureText moment jobId detail), some text)]
  | recorded (named : Text.isBlank jobId = false) (moment : Time.Instant) :
      Records jobId detail (.ok ())
        [(.deleteJob jobId, none),
          (.markJob jobId .submitFailed (failureText moment jobId detail), none)]

/-- The calls by which an unreadable row is dealt with. -/
inductive DealsWith (row : CacheRow) (flaw : RowFlaw) : List Made → Prop
  | dropped (nameless : row.namesNoJob = true) (refused : Option String) :
      DealsWith row flaw [(.deleteRow row.id, refused)]
  | kept (named : row.namesNoJob = false) (text : String) :
      DealsWith row flaw [(.deleteJob row.jobId, some text)]
  | recorded (named : row.namesNoJob = false) (moment : Time.Instant) (refused : Option String) :
      DealsWith row flaw
        [(.deleteJob row.jobId, none),
          (.markJob row.jobId .submitFailed (failureText moment row.jobId (flawDetail row flaw)),
            refused)]

/-- The calls by which the unreadable rows of a page are dealt with, row after row. -/
inductive DealsWithAll : List CacheRow → List Made → Prop
  | nil : DealsWithAll [] []
  | readable {row : CacheRow} {rest : List CacheRow} {one : Submission} {made : List Made}
      (read : row.read = .ok one) (later : DealsWithAll rest made) :
      DealsWithAll (row :: rest) made
  | flawed {row : CacheRow} {rest : List CacheRow} {flaw : RowFlaw} {first made : List Made}
      (read : row.read = .error flaw) (now : DealsWith row flaw first)
      (later : DealsWithAll rest made) : DealsWithAll (row :: rest) (first ++ made)

/-! ## What such calls may be -/

/-- A call by which an unreadable row among `rows` is dealt with. -/
inductive FlawCall (rows : CacheRow → Prop) : Call → Prop
  | drop {row : CacheRow} (listed : rows row) (nameless : row.namesNoJob = true) :
      FlawCall rows (.deleteRow row.id)
  | delete {row : CacheRow} {flaw : RowFlaw} (listed : rows row) (read : row.read = .error flaw)
      (named : row.namesNoJob = false) : FlawCall rows (.deleteJob row.jobId)
  | mark {row : CacheRow} {flaw : RowFlaw} (listed : rows row) (read : row.read = .error flaw)
      (named : row.namesNoJob = false) (moment : Time.Instant) :
      FlawCall rows
        (.markJob row.jobId .submitFailed (failureText moment row.jobId (flawDetail row flaw)))

theorem FlawCall.mono {rows others : CacheRow → Prop} {request : Call}
    (call : FlawCall rows request) (among : ∀ row, rows row → others row) :
    FlawCall others request := by
  cases call with
  | drop listed nameless => exact .drop (among _ listed) nameless
  | delete listed read named => exact .delete (among _ listed) read named
  | mark listed read named moment => exact .mark (among _ listed) read named moment

namespace FlawCall

variable {rows : CacheRow → Prop}

theorem of_deleteRow {id : RowId} (call : FlawCall rows (.deleteRow id)) :
    ∃ row, rows row ∧ row.namesNoJob = true ∧ row.id = id := by
  cases call with
  | drop listed nameless => exact ⟨_, listed, nameless, rfl⟩

theorem of_deleteJob {jobId : String} (call : FlawCall rows (.deleteJob jobId)) :
    ∃ row flaw, rows row ∧ row.read = .error flaw ∧ row.namesNoJob = false ∧ row.jobId = jobId := by
  cases call with
  | delete listed read named => exact ⟨_, _, listed, read, named, rfl⟩

theorem of_markJob {jobId error : String} {status : JobStatus}
    (call : FlawCall rows (.markJob jobId status error)) :
    ∃ row flaw moment, rows row ∧ row.read = .error flaw ∧ row.namesNoJob = false ∧
      row.jobId = jobId ∧ status = .submitFailed ∧
        error = failureText moment row.jobId (flawDetail row flaw) := by
  cases call with
  | mark listed read named moment => exact ⟨_, _, moment, listed, read, named, rfl, rfl, rfl⟩

end FlawCall

theorem DealsWith.call {row : CacheRow} {flaw : RowFlaw} {made : List Made}
    (deals : DealsWith row flaw made) (read : row.read = .error flaw) {rows : CacheRow → Prop}
    (listed : rows row) : ∀ one ∈ made, FlawCall rows one.1 := by
  cases deals with
  | dropped nameless refused =>
      intro one member
      rw [List.mem_singleton.1 member]
      exact .drop listed nameless
  | kept named text =>
      intro one member
      rw [List.mem_singleton.1 member]
      exact .delete listed read named
  | recorded named moment refused =>
      intro one member
      rcases List.mem_cons.1 member with rfl | member
      · exact .delete listed read named
      · rw [List.mem_singleton.1 member]
        exact .mark listed read named moment

theorem DealsWithAll.call {page : List CacheRow} {made : List Made}
    (deals : DealsWithAll page made) : ∀ one ∈ made, FlawCall (· ∈ page) one.1 := by
  induction deals with
  | nil => exact fun _ member => absurd member List.not_mem_nil
  | readable read later inductionHypothesis =>
      intro one member
      exact (inductionHypothesis one member).mono fun row => List.mem_cons_of_mem _
  | flawed read now later inductionHypothesis =>
      intro one member
      rcases List.mem_append.1 member with inFirst | inLater
      · exact now.call read List.mem_cons_self one inFirst
      · exact (inductionHypothesis one inLater).mono fun row => List.mem_cons_of_mem _

/-! ## What such calls leave out -/

/-- No call to drop or delete a row was refused. -/
def RemovalsAccepted (made : List Made) : Prop :=
  (∀ id text, (.deleteRow id, some text) ∉ made) ∧ ∀ jobId text, (.deleteJob jobId, some text) ∉ made

theorem RemovalsAccepted.of_append {first second : List Made}
    (accepted : RemovalsAccepted (first ++ second)) :
    RemovalsAccepted first ∧ RemovalsAccepted second :=
  ⟨⟨fun id text member => accepted.1 id text (List.mem_append_left _ member),
      fun jobId text member => accepted.2 jobId text (List.mem_append_left _ member)⟩,
    ⟨fun id text member => accepted.1 id text (List.mem_append_right _ member),
      fun jobId text member => accepted.2 jobId text (List.mem_append_right _ member)⟩⟩

/-- Unless a removal is refused, every unreadable row of a page is removed. -/
theorem DealsWithAll.removed {page : List CacheRow} {made : List Made}
    (deals : DealsWithAll page made) (accepted : RemovalsAccepted made) {row : CacheRow}
    (member : row ∈ page) {flaw : RowFlaw} (unread : row.read = .error flaw) :
    row.RemovedBy made := by
  induction deals with
  | nil => exact absurd member List.not_mem_nil
  | readable read later inductionHypothesis =>
      rcases List.mem_cons.1 member with rfl | member
      · rw [unread] at read
        cases read
      · exact inductionHypothesis accepted member
  | flawed read now later inductionHypothesis =>
      obtain ⟨acceptedNow, acceptedLater⟩ := accepted.of_append
      rw [CacheRow.removedBy_append]
      rcases List.mem_cons.1 member with rfl | member
      · left
        cases now with
        | dropped nameless refused =>
            cases refused with
            | none => exact .inr List.mem_cons_self
            | some text => exact absurd List.mem_cons_self (acceptedNow.1 _ text)
        | kept named text => exact absurd List.mem_cons_self (acceptedNow.2 _ text)
        | recorded named moment refused => exact .inl List.mem_cons_self
      · exact .inr (inductionHypothesis acceptedLater member)

/-- A job is marked only after its rows were removed. -/
theorem DealsWithAll.deleted_of_marked {page : List CacheRow} {made : List Made}
    (deals : DealsWithAll page made) {jobId : String} (marked : jobId ∈ markedNames made) :
    (.deleteJob jobId, none) ∈ made := by
  induction deals with
  | nil => exact absurd marked List.not_mem_nil
  | readable read later inductionHypothesis => exact inductionHypothesis marked
  | flawed read now later inductionHypothesis =>
      rw [markedNames, List.filterMap_append, List.mem_append] at marked
      rcases marked with first | more
      · apply List.mem_append_left _
        cases now with
        | dropped nameless refused => cases refused <;> cases first
        | kept named text => cases first
        | recorded named moment refused =>
            cases refused with
            | some text => cases first
            | none =>
                rw [List.mem_singleton.1 first]
                exact List.mem_cons_self
      · exact List.mem_append_right _ (inductionHypothesis more)

/-! ## Names -/

theorem droppedIds_append (first second : List Made) :
    droppedIds (first ++ second) = droppedIds first ++ droppedIds second := List.filterMap_append

theorem markedNames_append (first second : List Made) :
    markedNames (first ++ second) = markedNames first ++ markedNames second :=
  List.filterMap_append

theorem DealsWithAll.droppedIds_sublist {page : List CacheRow} {made : List Made}
    (deals : DealsWithAll page made) : (droppedIds made).Sublist (page.map CacheRow.id) := by
  induction deals with
  | nil => exact .slnil
  | readable read later inductionHypothesis => exact inductionHypothesis.cons _
  | flawed read now later inductionHypothesis =>
      rw [droppedIds_append]
      cases now with
      | dropped nameless refused =>
          cases refused with
          | none => exact inductionHypothesis.cons_cons _
          | some text => exact inductionHypothesis.cons _
      | kept named text => exact inductionHypothesis.cons _
      | recorded named moment refused => exact inductionHypothesis.cons _

theorem DealsWithAll.markedNames_sublist {page : List CacheRow} {made : List Made}
    (deals : DealsWithAll page made) :
    (markedNames made).Sublist ((page.filter fun row => !row.namesNoJob).map CacheRow.jobId) := by
  induction deals with
  | nil => exact .slnil
  | @readable row rest one made read later inductionHypothesis =>
      refine inductionHypothesis.trans (List.Sublist.map _ ?_)
      exact (List.sublist_cons_self row rest).filter _
  | @flawed row rest flaw first made read now later inductionHypothesis =>
      rw [markedNames_append]
      have tail := inductionHypothesis.trans
        (((List.sublist_cons_self row rest).filter fun row => !row.namesNoJob).map CacheRow.jobId)
      cases now with
      | dropped nameless refused => cases refused <;> exact tail
      | kept named text => exact tail
      | recorded named moment refused =>
          cases refused with
          | some text => exact tail
          | none =>
              rw [List.filter_cons_of_pos (by simp [named])]
              exact inductionHypothesis.cons_cons _

/-! ## The script -/

section Scripts

variable {id : TaskId} {chances : Chances}

/-- Whether a row was dealt with, as a number. -/
def succeeded (result : Except Fault Unit) : Nat := match result with | .ok _ => 1 | .error _ => 0

theorem recordFailure_leads (jobId detail : String) (session : Session) :
    (recordFailure jobId detail).run.Leads id chances session fun result made _ =>
      Records jobId detail result made := by
  unfold recordFailure
  cases blank : Text.isBlank jobId with
  | true => exact .done _ _ (.ignored blank)
  | false =>
      simp only [Bool.false_eq_true, if_false]
      have deleted : (Attempt.ask (.deleteJob jobId)).run.Leads id chances session fun result made _ =>
          match result with
          | .ok _ => made = [(.deleteJob jobId, none)]
          | .error fault => ∃ text, fault = .store text ∧ made = [(.deleteJob jobId, some text)] :=
        .ask rfl (fun text _ _ => ⟨text, rfl, rfl⟩) fun _ _ _ => rfl
      apply Script.Leads.attempt deleted
      · rintro fault made after ⟨text, rfl, rfl⟩
        exact .kept blank text
      rintro found made after - rfl
      have clock : (Script.act .readClock).Leads id chances after fun _ made _ => made = [] :=
        .readClock fun _ _ _ => rfl
      refine .attemptOf clock ?_
      rintro moment made after - rfl
      exact .ask rfl (fun text _ _ => .unmarked blank moment text) fun _ _ _ => .recorded blank moment

theorem dealWith_leads {row : CacheRow} {flaw : RowFlaw} (session : Session) :
    (dealWith row flaw).run.Leads id chances session fun result made _ =>
      DealsWith row flaw made ∧ succeeded result = dealtCount made := by
  unfold dealWith
  cases nameless : row.namesNoJob with
  | true =>
      simp only [if_true]
      refine .attemptAsk rfl (fun fault text _ => ⟨.dropped nameless _, rfl⟩) fun weigher after _ => ?_
      exact .done _ _ ⟨.dropped nameless _, rfl⟩
  | false =>
      simp only [Bool.false_eq_true, if_false]
      apply (recordFailure_leads _ _ session).mono
      rintro result made after - records
      cases records with
      | ignored blank => exact absurd (nameless.symm.trans blank) nofun
      | kept _ text => exact ⟨.kept nameless text, rfl⟩
      | unmarked _ moment text => exact ⟨.recorded nameless moment (some text), rfl⟩
      | recorded _ moment => exact ⟨.recorded nameless moment none, rfl⟩

/-- The unreadable rows of a page are dealt with, and the successes are counted. -/
theorem dealWithFlaws_leads (page : List CacheRow) (session : Session) :
    (dealWithFlaws page).Leads id chances session fun count made _ =>
      DealsWithAll page made ∧ count = dealtCount made := by
  induction page generalizing session with
  | nil => exact .done _ _ ⟨.nil, rfl⟩
  | cons row rest inductionHypothesis =>
      unfold dealWithFlaws
      split
      case h_1 one read =>
        apply (inductionHypothesis session).mono
        rintro count made after - ⟨deals, counted⟩
        exact ⟨.readable read deals, counted⟩
      case h_2 flaw read =>
        apply (dealWith_leads session).bind
        rintro result first middle - ⟨now, succeeded⟩
        apply (inductionHypothesis middle).bind
        rintro count made after - ⟨later, counted⟩
        refine .done _ _ ⟨?_, ?_⟩
        · rw [List.append_nil]
          exact .flawed read now later
        · rw [List.append_nil, dealtCount_append, ← succeeded, counted]
          rfl

end Scripts

end Handover.Takeover
