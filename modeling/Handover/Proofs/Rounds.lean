import Handover.Proofs.Flaws
import Handover.Proofs.Handing
import Handover.Proofs.Members
import Handover.Takeover.Cycle

/-!
Contract: rounds of a takeover that are played one after the other.

Owns: playing rounds, what it means that they come to some progress, the rule by
which rounds are followed up to the end of a stage, the question that opens a stage, and
when a stage breaks off.

A stage comes to its end because every page lies behind the one before it. The
rule asks for an invariant that each round keeps and for row ids that grow.
-/

set_option autoImplicit false

namespace Handover.Takeover

open Coordinator (TaskId)

section Rounds

variable (id : TaskId) (chances : Chances) (settings : Settings) (node : Address)

def playRounds : Nat → Progress → Session → Option (Progress × Session)
  | 0, progress, session => some (progress, session)
  | count + 1, progress, session =>
      ((round settings node progress).play id chances session).bind fun (next, after) =>
        playRounds count next after

/-- Some rounds lead from one progress to another. -/
def Reaches (progress : Progress) (session : Session) (later : Progress) (after : Session) : Prop :=
  ∃ count, playRounds id chances settings node count progress session = some (later, after)

/-- Some rounds come to a progress, by calls and in a session, as `goal` says. -/
def Arrives (progress : Progress) (session : Session)
    (goal : Progress → List Made → Session → Prop) : Prop :=
  ∃ later made after, Reaches id chances settings node progress session later after ∧
    Continues chances session after made ∧ goal later made after

variable {id chances settings node}

theorem playRounds_add (first second : Nat) (progress : Progress) (session : Session) :
    playRounds id chances settings node (first + second) progress session =
      (playRounds id chances settings node first progress session).bind fun (next, after) =>
        playRounds id chances settings node second next after := by
  induction first generalizing progress session with
  | zero => simp [playRounds]
  | succ first inductionHypothesis =>
      rw [Nat.succ_add]
      simp only [playRounds]
      cases (round settings node progress).play id chances session with
      | none => rfl
      | some played => exact inductionHypothesis played.1 played.2

/-- One more round, played after the others. -/
theorem playRounds_succ (count : Nat) (progress : Progress) (session : Session) :
    playRounds id chances settings node (count + 1) progress session =
      (playRounds id chances settings node count progress session).bind fun (next, after) =>
        (round settings node next).play id chances after := by
  rw [playRounds_add]
  congr 1
  funext ⟨next, after⟩
  simp only [playRounds]
  cases (round settings node next).play id chances after <;> rfl

namespace Reaches

variable {progress middle later : Progress} {session between after : Session}

theorem refl (progress : Progress) (session : Session) :
    Reaches id chances settings node progress session progress session := ⟨0, rfl⟩

theorem trans (first : Reaches id chances settings node progress session middle between)
    (second : Reaches id chances settings node middle between later after) :
    Reaches id chances settings node progress session later after := by
  obtain ⟨count, played⟩ := first
  obtain ⟨more, playedMore⟩ := second
  refine ⟨count + more, ?_⟩
  rw [playRounds_add, played]
  exact playedMore

theorem of_play (played : (round settings node progress).play id chances session = some (later, after)) :
    Reaches id chances settings node progress session later after := by
  refine ⟨1, ?_⟩
  unfold playRounds
  rw [played]
  rfl

/-- What every round keeps is kept by all of them. -/
theorem keeps (holds : Progress → Session → Prop)
    (step : ∀ progress session next after,
      (round settings node progress).play id chances session = some (next, after) →
        holds progress session → holds next after)
    (reaches : Reaches id chances settings node progress session later after)
    (start : holds progress session) : holds later after := by
  obtain ⟨count, played⟩ := reaches
  induction count generalizing progress session with
  | zero =>
      cases played
      exact start
  | succ count inductionHypothesis =>
      obtain ⟨⟨next, middle⟩, now, rest⟩ := Option.bind_eq_some_iff.1 played
      exact inductionHypothesis (step _ _ _ _ now start) rest

end Reaches

namespace Arrives

variable {progress : Progress} {session : Session} {goal : Progress → List Made → Session → Prop}

theorem now (reached : goal progress [] session) :
    Arrives id chances settings node progress session goal :=
  ⟨progress, [], session, .refl progress session, .refl chances session, reached⟩

theorem trans {middle : Progress → List Made → Session → Prop}
    (first : Arrives id chances settings node progress session middle)
    (second : ∀ later made after, Continues chances session after made → middle later made after →
      Arrives id chances settings node later after fun last more final =>
        goal last (made ++ more) final) :
    Arrives id chances settings node progress session goal := by
  obtain ⟨later, made, after, reaches, continues, reached⟩ := first
  obtain ⟨last, more, final, reachesLater, continuesLater, ended⟩ :=
    second later made after continues reached
  exact ⟨last, made ++ more, final, reaches.trans reachesLater, continues.trans continuesLater, ended⟩

theorem of_round (leads : (round settings node progress).Leads id chances session goal) :
    Arrives id chances settings node progress session goal := by
  obtain ⟨later, made, after, played, continues, reached⟩ := leads
  exact ⟨later, made, after, .of_play played, continues, reached⟩

end Arrives

/-! ## Following a stage -/

/-- How many row ids there still are behind the last page. -/
def Progress.ahead : Progress → Nat
  | .jobPage after _ => UInt64.size - after.val
  | .cachePage _ after _ => UInt64.size - after.val
  | _ => 0

theorem Progress.ahead_jobPage_pos (after : RowId) (tally : Tally) :
    0 < (Progress.jobPage after tally).ahead := Nat.sub_pos_of_lt after.isLt

theorem Progress.ahead_cachePage_pos (jobs : Tally) (after : RowId) (tally : Tally) :
    0 < (Progress.cachePage jobs after tally).ahead := Nat.sub_pos_of_lt after.isLt

/-- Rounds that keep an invariant and leave ever fewer row ids ahead come to the goal. -/
theorem Arrives.of_invariant (invariant goal : Progress → List Made → Session → Prop)
    (step : ∀ progress made session, invariant progress made session → goal progress made session ∨
      (round settings node progress).Leads id chances session fun next more after =>
        invariant next (made ++ more) after ∧ next.ahead < progress.ahead)
    {progress : Progress} {made : List Made} {session : Session}
    (start : invariant progress made session) :
    Arrives id chances settings node progress session fun later more after =>
      goal later (made ++ more) after := by
  induction remaining : progress.ahead using Nat.strongRecOn
    generalizing progress made session with
  | ind ahead inductionHypothesis =>
      rcases step progress made session start with reached | leads
      · exact .now (by simpa using reached)
      · apply (Arrives.of_round leads).trans
        rintro next more after - ⟨kept, fewer⟩
        have later := inductionHypothesis next.ahead (remaining ▸ fewer) kept rfl
        simpa only [List.append_assoc] using later

end Rounds

/-! ## Breaking off -/

/-- The calls that a stage cannot do without. -/
def decides : Call → Bool
  | .isAlive _ => true
  | .aliveNodes => true
  | .reset _ _ _ => true
  | .pageJobs _ _ _ => true
  | .pageCache _ _ _ _ _ => true
  | _ => false

/-- A call that a stage cannot do without was refused. -/
def Broke (made : List Made) : Prop :=
  ∃ one ∈ made, decides one.1 = true ∧ one.2.isSome = true

instance (made : List Made) : Decidable (Broke made) :=
  inferInstanceAs (Decidable (∃ one ∈ made, _))

@[simp] theorem not_broke_nil : ¬ Broke [] := by simp [Broke]

@[simp] theorem broke_cons {one : Made} {rest : List Made} :
    Broke (one :: rest) ↔ (decides one.1 = true ∧ one.2.isSome = true) ∨ Broke rest := by
  simp [Broke]

@[simp] theorem broke_append {first second : List Made} :
    Broke (first ++ second) ↔ Broke first ∨ Broke second := by
  simp only [Broke, List.mem_append]
  grind

theorem not_broke_of_undecided {made : List Made} (undecided : ∀ one ∈ made, decides one.1 = false) :
    ¬ Broke made := by
  rintro ⟨one, member, decided, _⟩
  rw [undecided one member] at decided
  cases decided

theorem Hands.not_broke {ν : Type} {mover : Mover ν} {nodes : List Address} {names : List ν}
    {made : List Made} (hands : Hands mover nodes names made)
    (undecided : ∀ dest taken, decides (mover.call dest taken) = false) : ¬ Broke made := by
  refine not_broke_of_undecided fun one member => ?_
  rcases hands.only one member with ⟨demand, same⟩ | ⟨dest, taken, same, _⟩
  · rw [same]
    rfl
  · rw [same]
    exact undecided dest taken

theorem DealsWithAll.not_broke {page : List CacheRow} {made : List Made}
    (deals : DealsWithAll page made) : ¬ Broke made := by
  refine not_broke_of_undecided fun one member => ?_
  have call := deals.call one member
  generalize one.1 = request at call
  cases call <;> rfl

/-- No call that a stage cannot do without is ever refused. -/
def Answered (chances : Chances) : Prop :=
  ∀ turn request, decides request = true → (chances turn).refused request = none

theorem Answered.not_broke {chances : Chances} (answered : Answered chances)
    {before after : Session} {made : List Made} (continues : Continues chances before after made) :
    ¬ Broke made := by
  rintro ⟨⟨request, refused⟩, member, decided, told⟩
  obtain ⟨text, rfl⟩ := Option.isSome_iff_exists.1 told
  exact continues.accepted (fun turn => answered turn request decided) text member

section OrElse

variable {id : TaskId} {chances : Chances}

/-- A round that breaks off counts as `broken`. -/
theorem orElse_leads {attempt : Attempt Progress} {session : Session}
    {outcome : Except Fault Progress → List Made → Session → Prop}
    (leads : attempt.run.Leads id chances session outcome) (broken : Progress) :
    (orElse attempt broken).Leads id chances session fun next made after =>
      outcome (.ok next) made after ∨ next = broken ∧ ∃ fault, outcome (.error fault) made after := by
  apply leads.bind
  rintro result made after - reached
  cases result with
  | ok next => exact .done _ _ (.inl (by simpa using reached))
  | error fault => exact .done _ _ (.inr ⟨rfl, fault, by simpa using reached⟩)

/-- A stage opens with the question whether its node is alive. -/
theorem opens_leads {node : Address} (skipped begun : Progress) (session : Session) :
    (do let alive ← readsAlive node; return if alive then skipped else begun : Attempt Progress).run.Leads
      id chances session fun result made _ =>
        match result with
        | .ok next => made = [(.isAlive node, none)] ∧
            next = if session.world.members.isAlive node then skipped else begun
        | .error _ => ∃ text, made = [(.isAlive node, some text)] :=
  .attemptAsk rfl (fun _ text _ => ⟨text, rfl⟩) fun _ _ _ => .done _ _ ⟨rfl, rfl⟩

/-- Its answer decides how the stage goes on, and nothing changes. -/
theorem opens_outcomes {node : Address} (skipped begun broken : Progress) (session : Session) :
    (orElse (do let alive ← readsAlive node; return if alive then skipped else begun) broken).Leads
      id chances session fun next _ after =>
        after.world = session.world ∧
          ((next = if session.world.members.isAlive node then skipped else begun) ∨ next = broken) := by
  apply (orElse_leads (opens_leads skipped begun session) broken).mono
  rintro next made after continues (⟨rfl, rfl⟩ | ⟨rfl, _, text, rfl⟩)
  · exact ⟨continues.world, .inl rfl⟩
  · exact ⟨continues.world, .inr rfl⟩

/-- The alive nodes other than the dead one, as a stage asks for them. -/
theorem destinations_leads {dead : Address} {session : Session} :
    (destinations dead).run.Leads id chances session fun result made _ =>
      match result with
      | .ok nodes => made = [(.aliveNodes, none)] ∧
          nodes = session.world.members.others dead
      | .error _ => ∃ text, made = [(.aliveNodes, some text)] := by
  refine .attemptAsk rfl (fun fault text _ => ⟨text, rfl⟩) fun weigher after _ => ?_
  exact .done _ _ ⟨rfl, rfl⟩

end OrElse

end Handover.Takeover
