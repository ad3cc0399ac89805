import Handover.Proofs.Table
import Handover.Takeover.Stages
import Mathlib.Data.List.Perm.Subperm

/-!
Contract: how the rows of a page are parted before they are handed out.

Owns: the two schedule kinds of a page of jobs, and the groups and stages of the
readable rows of a page of the cache, each of which parts its page with nothing
left out and nothing taken twice.
-/

set_option autoImplicit false

namespace Handover.Takeover

/-- The jobs of a page by schedule kind are the jobs of the page. -/
theorem idsOfKind_perm (page : List Job) :
    (idsOfKind .cron page ++ idsOfKind .backfill page).Perm (page.map Job.id) := by
  have rest : (page.filter fun job => job.kind == .backfill) =
      page.filter fun job => !(job.kind == .cron) := by
    refine List.filter_congr fun job _ => ?_
    cases job.kind <;> rfl
  simp only [idsOfKind, rest, ← List.map_append]
  exact (List.filter_append_perm (fun job => job.kind == .cron) page).map Job.id

/-- Items taken key by key are the items, if the keys are distinct and none is missing. -/
theorem flatMap_filter_perm {α κ : Type} [BEq κ] [LawfulBEq κ] (keyOf : α → κ) {keys : List κ}
    (distinct : keys.Nodup) {items : List α} (none_missing : ∀ item ∈ items, keyOf item ∈ keys) :
    (keys.flatMap fun wanted => items.filter fun item => keyOf item == wanted).Perm items := by
  induction keys generalizing items with
  | nil => rw [List.eq_nil_iff_forall_not_mem.2 fun item member =>
      List.not_mem_nil (none_missing item member)]; exact .refl _
  | cons first keys inductionHypothesis =>
      obtain ⟨fresh, distinctRest⟩ := List.nodup_cons.1 distinct
      let others := items.filter fun item => !(keyOf item == first)
      have later : (keys.flatMap fun wanted => others.filter fun item => keyOf item == wanted).Perm
          others := by
        refine inductionHypothesis distinctRest fun item member => ?_
        obtain ⟨itemIn, apart⟩ := List.mem_filter.1 member
        rcases List.mem_cons.1 (none_missing item itemIn) with same | inRest
        · simp [same] at apart
        · exact inRest
      have sameRest : (keys.flatMap fun wanted => items.filter fun item => keyOf item == wanted) =
          keys.flatMap fun wanted => others.filter fun item => keyOf item == wanted := by
        refine List.flatMap_congr fun wanted member => ?_
        rw [List.filter_filter]
        refine List.filter_congr fun item _ => ?_
        have apart : wanted ≠ first := fun same => fresh (same ▸ member)
        by_cases same : keyOf item = wanted <;> simp [same, apart]
      rw [List.flatMap_cons, sameRest]
      exact (later.append_left _).trans (List.filter_append_perm _ items)

theorem nodup_queuedGroups (submissions : List Submission) : (queuedGroups submissions).Nodup := by
  unfold queuedGroups
  apply List.Nodup.append
  · split <;> simp
  · apply List.Nodup.map (fun _ _ => Option.some.inj)
    exact Table.nodup_rows _
  · intro group inFirst inSecond
    obtain ⟨name, _, rfl⟩ := List.mem_map.1 inSecond
    split at inFirst <;> simp at inFirst

theorem mem_queuedGroups {submissions : List Submission} {one : Submission}
    (member : one ∈ submissions) (queued : one.stage = .queued) :
    one.group ∈ queuedGroups submissions := by
  have listed : one.group ∈ (submissions.filter fun one => one.stage == .queued).map
      Submission.group := List.mem_map.2 ⟨one, List.mem_filter.2 ⟨member, by simp [queued]⟩, rfl⟩
  unfold queuedGroups
  rw [List.mem_append]
  cases group : one.group with
  | none =>
      rw [group] at listed
      exact .inl (by simp [listed])
  | some name =>
      rw [group] at listed
      refine .inr (List.mem_map.2 ⟨name, ?_, rfl⟩)
      have known := (Table.exists_key_ofList _ name).2
        ⟨name, List.mem_filterMap (f := id).2 ⟨some name, listed, rfl⟩, rfl⟩
      simpa [key, Table.mem_def] using known

/-- The queued submissions by group, and the others, are the submissions. -/
theorem parts_perm (submissions : List Submission) :
    (((queuedGroups submissions).flatMap fun group => queuedIn group submissions) ++
      submittedIds submissions).Perm (submissions.map Submission.jobId) := by
  let queued := submissions.filter fun one => one.stage == .queued
  have byGroup : ((queuedGroups submissions).flatMap fun group =>
      queued.filter fun one => one.group == group).Perm queued := by
    apply flatMap_filter_perm Submission.group (nodup_queuedGroups submissions)
    intro one member
    obtain ⟨inside, isQueued⟩ := List.mem_filter.1 member
    exact mem_queuedGroups inside (by simpa using isQueued)
  have named : ((queuedGroups submissions).flatMap fun group => queuedIn group submissions) =
      ((queuedGroups submissions).flatMap fun group =>
        queued.filter fun one => one.group == group).map Submission.jobId := by
    rw [List.map_flatMap]
    refine List.flatMap_congr fun group _ => ?_
    simp only [queuedIn, queued, List.filter_filter, Bool.and_comm]
  have others : submittedIds submissions =
      (submissions.filter fun one => !(one.stage == .queued)).map Submission.jobId := by
    refine congrArg (List.map Submission.jobId) (List.filter_congr fun one _ => ?_)
    cases one.stage <;> rfl
  rw [named, others, ← List.map_append]
  exact ((byGroup.append_right _).trans (List.filter_append_perm _ submissions)).map _

end Handover.Takeover
