import Handover.Proofs.Course
import Handover.Proofs.Rounds

/-!
Contract: where a takeover begins determines what it comes to.

Owns: the order of the stages of a takeover, that of two points on its way the one leads to
the other, and that a point which is no listing comes only once on the way: there is one start
of the second stage, and one report.

Which round it is that comes to such a point is not told. Rounds of listings can go on for
as long as pages do.
-/

set_option autoImplicit false

namespace Handover

open Coordinator (TaskId)

/-- A script that ends as `goal` says whoever answers does so where it is played. -/
theorem Script.Keeps.goal_of_play {α : Type} {id : TaskId} {chances : Chances} {script : Script α}
    {goal : α → Prop} (keeps : script.Keeps .any goal) {session after : Session} {value : α}
    (played : script.play id chances session = some (value, after)) : goal value := by
  induction script generalizing session with
  | done value =>
      cases played
      exact keeps
  | call request next inductionHypothesis => exact inductionHypothesis _ (keeps.2 _ trivial) played
  | effect deed next inductionHypothesis =>
      obtain ⟨⟨result, state⟩, -, played⟩ := Option.bind_eq_some_iff.1 played
      exact inductionHypothesis result (keeps.2 result) played

namespace Takeover

/-- The place of a progress in the order in which takeovers go. -/
def Progress.stage : Progress → Nat
  | .opening => 0
  | .jobPage _ _ => 1
  | .opened _ => 2
  | .cachePage _ _ _ => 3
  | .closing _ _ => 4
  | .finished _ => 5

/-- Only a listing is followed by another. -/
def Progress.Lists : Progress → Prop
  | .jobPage _ _ => True
  | .cachePage _ _ _ => True
  | _ => False

theorem Turns.stage {terms : Terms} {pageSize : Nat} {node : Address} {progress next : Progress}
    (turns : Turns terms pageSize node progress next) :
    progress.stage ≤ next.stage ∧ (¬ progress.Lists → progress.stage < next.stage) := by
  cases turns <;> simp [Progress.stage, Progress.Lists]

section Ways

variable {id : TaskId} {chances : Chances} {settings : Settings} {node : Address}
  {progress next later other : Progress} {session after there : Session}

theorem round_turns (unfinished : ∀ report, progress ≠ .finished report)
    (played : (round settings node progress).play id chances session = some (next, after)) :
    Turns .any settings.pageSize node progress next := by
  have keeps : (round settings node progress).Keeps .any (Turns .any settings.pageSize node progress) :=
    round_keeps (fun _ _ => trivial) trivial (fun _ _ _ => ⟨trivial, trivial⟩) unfinished
  exact keeps.goal_of_play played

namespace Reaches

theorem stage_le (reaches : Reaches id chances settings node progress session later after) :
    progress.stage ≤ later.stage := by
  refine reaches.keeps (fun now _ => progress.stage ≤ now.stage) ?_ le_rfl
  intro now session next after played soFar
  by_cases ended : ∃ report, now = .finished report
  · obtain ⟨report, rfl⟩ := ended
    cases played
    exact soFar
  · exact soFar.trans (round_turns (not_exists.1 ended) played).stage.1

/-- No way comes back to a point that is no listing. -/
theorem eq_of_stage (reaches : Reaches id chances settings node progress session later after)
    (once : ¬ progress.Lists) (same : progress.stage = later.stage) :
    later = progress ∧ after = session := by
  by_cases ended : ∃ report, progress = .finished report
  · -- a takeover that is finished stays as it is
    obtain ⟨report, rfl⟩ := ended
    refine reaches.keeps (fun now last => now = .finished report ∧ last = session) ?_ ⟨rfl, rfl⟩
    rintro _ _ next last played ⟨rfl, rfl⟩
    cases played
    exact ⟨rfl, rfl⟩
  · obtain ⟨count, played⟩ := reaches
    cases count with
    | zero =>
        cases played
        exact ⟨rfl, rfl⟩
    | succ count =>
        obtain ⟨⟨next, middle⟩, now, rest⟩ := Option.bind_eq_some_iff.1 played
        have further : progress.stage < next.stage := (round_turns (not_exists.1 ended) now).stage.2 once
        have onward : next.stage ≤ later.stage := stage_le ⟨count, rest⟩
        omega

/-- Of two points on the way one leads to the other. -/
theorem total (first : Reaches id chances settings node progress session later after)
    (second : Reaches id chances settings node progress session other there) :
    Reaches id chances settings node later after other there ∨
      Reaches id chances settings node other there later after := by
  obtain ⟨count, played⟩ := first
  obtain ⟨more, playedMore⟩ := second
  rcases Nat.le_total count more with less | less
  · obtain ⟨rest, rfl⟩ := Nat.exists_eq_add_of_le less
    rw [playRounds_add, played] at playedMore
    exact .inl ⟨rest, playedMore⟩
  · obtain ⟨rest, rfl⟩ := Nat.exists_eq_add_of_le less
    rw [playRounds_add, playedMore] at played
    exact .inr ⟨rest, played⟩

/-- The way has one point of each stage that is no listing. -/
theorem unique (first : Reaches id chances settings node progress session later after)
    (second : Reaches id chances settings node progress session other there)
    (same : later.stage = other.stage) (once : ¬ later.Lists) (onceThere : ¬ other.Lists) :
    other = later ∧ there = after := by
  rcases first.total second with onward | back
  · exact onward.eq_of_stage once same
  · obtain ⟨sameProgress, sameSession⟩ := back.eq_of_stage onceThere same.symm
    exact ⟨sameProgress.symm, sameSession.symm⟩

end Reaches

/-- The start of the second stage is determined. -/
theorem Reaches.opened_unique {jobs tally : Tally}
    (first : Reaches id chances settings node progress session (.opened jobs) after)
    (second : Reaches id chances settings node progress session (.opened tally) there) :
    tally = jobs ∧ there = after := by
  obtain ⟨same, sameSession⟩ := first.unique second rfl not_false not_false
  exact ⟨Progress.opened.inj same, sameSession⟩

/-- The report is determined. -/
theorem Reaches.finished_unique {report told : Report}
    (first : Reaches id chances settings node progress session (.finished report) after)
    (second : Reaches id chances settings node progress session (.finished told) there) :
    told = report ∧ there = after := by
  obtain ⟨same, sameSession⟩ := first.unique second rfl not_false not_false
  exact ⟨Progress.finished.inj same, sameSession⟩

end Ways

end Takeover

end Handover
