import Handover.Proofs.Rounds

/-!
Contract: the end of a takeover, after both stages.

Owns: what the broadcast may call and what it leaves alone, how the retry budget is
settled, and the last round as a whole.

Settling is done within the coordinator and makes no call. Its second half waits
while someone changes the mode.
-/

set_option autoImplicit false

namespace Handover

open Coordinator (TaskId State)

namespace Takeover

/-! ## The broadcast -/

def broadcasts : Call → Bool
  | .aliveNodes => true
  | .trigger => true
  | .notify _ => true
  | _ => false

theorem broadcasts_keeps {made : List Made} (calls : ∀ one ∈ made, broadcasts one.1 = true)
    (world : World) :
    (world.replay made).jobs = world.jobs ∧ (world.replay made).cache = world.cache := by
  refine World.replay_keeps (fun other => other.jobs = world.jobs ∧ other.cache = world.cache)
    ?_ ⟨rfl, rfl⟩
  rintro ⟨request, refused⟩ member other same
  have call := calls _ member
  cases refused <;> cases request <;> first | exact same | cases call

section Scripts

variable {id : TaskId} {chances : Chances}

theorem ask_leads {request : Call} (refusable : request.refusable = true)
    (called : broadcasts request = true) (session : Session) :
    (Script.ask request).Leads id chances session fun _ made _ =>
      ∀ one ∈ made, broadcasts one.1 = true :=
  .ask refusable (fun _ _ _ => by simp [called]) fun _ _ _ => by simp [called]

theorem triggerAll_leads (localAddress : Address) (targets : List Address) (session : Session) :
    (triggerAll localAddress targets).Leads id chances session fun _ made _ =>
      ∀ one ∈ made, broadcasts one.1 = true := by
  induction targets generalizing session with
  | nil => exact .done _ _ (by simp)
  | cons target rest inductionHypothesis =>
      -- whichever of the two calls comes first, the rest of the script is the same
      have later : ∀ (first : List Made) (middle : Session),
          (∀ one ∈ first, broadcasts one.1 = true) →
          ∀ add : List Address × List Address → List Address × List Address,
          (triggerAll localAddress rest >>= fun reachedMissed =>
            Script.done (add reachedMissed)).Leads id chances middle
              fun _ made _ => ∀ one ∈ first ++ made, broadcasts one.1 = true := by
        intro first middle called add
        apply (inductionHypothesis middle).bind
        intro reachedMissed made last _ calledLater
        refine .done _ _ fun call member => ?_
        rw [List.append_nil] at member
        exact (List.mem_append.1 member).elim (called call) (calledLater call)
      unfold triggerAll
      dsimp only
      split
      · apply (ask_leads rfl rfl session).bind
        exact fun result made middle _ called => later made middle called _
      · apply (ask_leads rfl rfl session).bind
        exact fun result made middle _ called => later made middle called _

theorem broadcast_leads (id : TaskId) (chances : Chances) (localAddress : Address) (session : Session) :
    (broadcast localAddress).Leads id chances session fun _ made _ =>
      ∀ one ∈ made, broadcasts one.1 = true := by
  apply (ask_leads rfl rfl session).bind
  intro reply made after _ called
  cases reply with
  | error fault => exact .done _ _ (by simpa using called)
  | ok alive =>
      apply (triggerAll_leads localAddress alive after).mono
      intro _ more last _ calledLater call member
      rcases List.mem_append.1 member with now | later
      · exact called call now
      · exact calledLater call later

end Scripts

/-! ## The retry budget -/

/-- How the budget is settled: cleared where no work is left, else used up a little. -/
inductive Settles (node : Address) (state : State) : Bool → State → Prop
  | cleared : Settles node state false { state with retries := state.retries.erase node }
  | counted (draw : Nat) : Settles node state true (state.scheduleRetry node draw)

end Takeover

namespace Coordinator.State

variable {state : State} {node : Address} {draw : Nat}

/-- On standby there is nothing to count. -/
theorem scheduleRetry_of_standby (standby : state.group = none) :
    state.scheduleRetry node draw = state := by
  unfold scheduleRetry
  rw [standby]

theorem scheduleRetry_of_exceeded {group : Group} (active : state.group = some group)
    (exceeded : state.retriesOf node + 1 > state.settings.retryLimit) :
    state.scheduleRetry node draw =
      { state with retries := state.retries.insert (node, state.retriesOf node + 1) } := by
  unfold scheduleRetry countRetry
  rw [active]
  exact if_pos exceeded

theorem scheduleRetry_of_within {group : Group} (active : state.group = some group)
    (within : ¬ state.retriesOf node + 1 > state.settings.retryLimit) :
    state.scheduleRetry node draw =
      { state with retries := state.retries.insert (node, state.retriesOf node + 1) }.spawn
        (.fresh (.retry group.activation node
          (state.clock + state.settings.retryDelay (state.retriesOf node + 1) draw)) []) := by
  unfold scheduleRetry countRetry
  rw [active]
  exact if_neg within

/-- Only the budgets change, and tasks come up. -/
theorem scheduleRetry_eq (state : State) (node : Address) (draw : Nat) :
    ∃ retries raised, state.scheduleRetry node draw =
      { state with retries := retries, tasks := state.tasks ++ raised } := by
  rcases active : state.group with _ | group
  · exact ⟨state.retries, [], by rw [scheduleRetry_of_standby active, List.append_nil, ← active]⟩
  · by_cases exceeded : state.retriesOf node + 1 > state.settings.retryLimit
    · exact ⟨_, [], by rw [scheduleRetry_of_exceeded active exceeded, List.append_nil, active]⟩
    · exact ⟨_, _, by rw [scheduleRetry_of_within active exceeded, spawn, active]⟩

/-- A retry is counted only while nobody changes the mode. -/
theorem afterEffect_scheduleRetry {wall : Time.Instant} {result : (Effect.scheduleRetry node).Result}
    {after : State} (happened : state.afterEffect wall draw (.scheduleRetry node) = some (result, after)) :
    state.changing = none ∧ after = state.scheduleRetry node draw := by
  simp only [afterEffect] at happened
  split at happened
  case isTrue => cases happened
  case isFalse still =>
    cases happened
    exact ⟨by simpa using still, rfl⟩

/-- A node is queued unless the queue is closed, and whoever queues it is told so. -/
theorem afterEffect_enqueue {wall : Time.Instant} {taken : Bool} {after : State}
    (happened : state.afterEffect wall draw (.enqueue node) = some (taken, after)) :
    (taken = false ∧ after = state ∧ state.closed = true) ∨
      (taken = true ∧ after = { state with queue := state.queue ++ [node] }.note (.queued node) ∧
        state.closed = false) := by
  simp only [afterEffect] at happened
  split at happened
  case isTrue shut =>
    cases happened
    exact .inl ⟨rfl, rfl, shut⟩
  case isFalse opened =>
    cases happened
    exact .inr ⟨rfl, rfl, by simpa using opened⟩

theorem scheduleRetry_world (state : State) (node : Address) (draw : Nat) :
    (state.scheduleRetry node draw).world = state.world := by
  obtain ⟨retries, raised, same⟩ := scheduleRetry_eq state node draw
  rw [same]

end Coordinator.State

namespace Takeover

section Settle

variable {id : TaskId} {chances : Chances} {node : Address} {jobs cache : Tally} {session : Session}

/-- Settling, as far as it comes to its end, makes no call and changes no store. -/
theorem settle_keeps {after : Session}
    (played : (settle node jobs cache).play id chances session = some ((), after)) :
    after.world = session.world ∧ after.calls = session.calls := by
  have counts : ∀ {middle : Session},
      (Script.act (.scheduleRetry node)).play id chances middle = some ((), after) →
        after.world = middle.world ∧ after.calls = middle.calls := by
    intro middle counted
    simp only [Script.play, Script.act, State.afterEffect] at counted
    split at counted
    case isTrue => cases counted
    case isFalse =>
      cases counted
      exact ⟨State.scheduleRetry_world _ _ _, rfl⟩
  unfold settle at played
  dsimp only at played
  split at played
  case isTrue =>
    rw [Script.play_bind] at played
    simp only [Script.play, Script.act, State.afterEffect, Option.bind_some] at played
    split at played
    · have kept := counts played
      exact kept
    · cases played
      exact ⟨rfl, rfl⟩
  case isFalse =>
    split at played
    · exact counts played
    · cases played
      exact ⟨rfl, rfl⟩

/-- Where neither stage was skipped, settling goes by whether work is left. It waits only
where work is left and someone changes the mode. -/
theorem settle_play (id : TaskId) (chances : Chances) (node : Address)
    (jobsNotSkipped : jobs.skippedAlive = false)
    (cacheNotSkipped : cache.skippedAlive = false)
    (still : (jobs.leftover || cache.leftover) = true → session.state.changing = none) :
    ∃ settled, Settles node session.state (jobs.leftover || cache.leftover) settled ∧
      (settle node jobs cache).play id chances session =
        some ((), { session with state := settled, turn := session.turn + 1 }) := by
  unfold settle
  simp only [jobsNotSkipped, cacheNotSkipped, Bool.false_or]
  cases left : (jobs.leftover || cache.leftover) with
  | false =>
    refine ⟨_, .cleared, ?_⟩
    simp [Script.play, Script.act, State.afterEffect]
  | true =>
    refine ⟨_, .counted (chances session.turn).draw, ?_⟩
    simp [Script.play, Script.act, State.afterEffect, still left]

/-- Settling that came to its end did not have to wait. -/
theorem settle_still {after : Session} (jobsNotSkipped : jobs.skippedAlive = false)
    (cacheNotSkipped : cache.skippedAlive = false)
    (played : (settle node jobs cache).play id chances session = some ((), after))
    (left : (jobs.leftover || cache.leftover) = true) : session.state.changing = none := by
  unfold settle at played
  simp only [jobsNotSkipped, cacheNotSkipped, left, Bool.or_self, Bool.not_true, Bool.false_eq_true,
    if_false, if_true, Script.play, Script.act, State.afterEffect] at played
  cases changing : session.state.changing with
  | none => rfl
  | some changer =>
      rw [changing] at played
      cases played

/-- The last round, as far as it comes to its end, only makes the calls of the broadcast. -/
theorem close_keeps {settings : Settings} {next : Progress} {after : Session}
    (played : (close settings node jobs cache).play id chances session = some (next, after)) :
    (∃ report, next = .finished report) ∧ ∃ made, after.calls = session.calls ++ made ∧
      after.world = session.world.replay made ∧ ∀ one ∈ made, broadcasts one.1 = true := by
  unfold close at played
  rw [Script.play_bind] at played
  obtain ⟨⟨⟨⟩, settled⟩, settling, played⟩ := Option.bind_eq_some_iff.1 played
  obtain ⟨sameWorld, sameCalls⟩ := settle_keeps settling
  obtain ⟨⟨notified, missed⟩, made, told, broadcasting, continues, called⟩ :=
    broadcast_leads id chances settings.localAddress settled
  dsimp only at played
  rw [Script.play_bind, broadcasting] at played
  obtain ⟨rfl, rfl⟩ := Prod.mk.inj (Option.some.inj played)
  refine ⟨⟨_, rfl⟩, made, ?_, ?_, called⟩
  · rw [continues.calls, sameCalls]
  · rw [continues.world, sameWorld]

/-- The last round settles the budget and reports whether work is left. -/
theorem close_play (id : TaskId) (chances : Chances) (settings : Settings) (node : Address)
    (jobsNotSkipped : jobs.skippedAlive = false)
    (cacheNotSkipped : cache.skippedAlive = false)
    (still : (jobs.leftover || cache.leftover) = true → session.state.changing = none) :
    ∃ report after settled,
      (close settings node jobs cache).play id chances session = some (.finished report, after) ∧
      report.leftover = (jobs.leftover || cache.leftover) ∧
      Settles node session.state (jobs.leftover || cache.leftover) settled ∧
      after.state.retries = settled.retries ∧ after.state.tasks = settled.tasks := by
  obtain ⟨settled, settles, settling⟩ := settle_play id chances node jobsNotSkipped cacheNotSkipped still
  obtain ⟨⟨notified, missed⟩, made, told, broadcasting, continues, _⟩ := broadcast_leads
    id chances settings.localAddress { session with state := settled, turn := session.turn + 1 }
  refine ⟨?report, told, settled, ?played, ?left, settles, ?retries, ?tasks⟩
  case played =>
    unfold close
    rw [Script.play_bind, settling]
    exact (Script.play_bind _ _ _).trans (by rw [broadcasting]; rfl)
  case left => rfl
  case retries => exact continues.retries
  case tasks => exact continues.tasks

/-- A last round that came to its end did not have to wait. -/
theorem close_still {settings : Settings} {next : Progress} {after : Session}
    (jobsNotSkipped : jobs.skippedAlive = false) (cacheNotSkipped : cache.skippedAlive = false)
    (played : (close settings node jobs cache).play id chances session = some (next, after))
    (left : (jobs.leftover || cache.leftover) = true) : session.state.changing = none := by
  unfold close at played
  rw [Script.play_bind] at played
  obtain ⟨⟨⟨⟩, settled⟩, settling, _⟩ := Option.bind_eq_some_iff.1 played
  exact settle_still jobsNotSkipped cacheNotSkipped settling left

/-- A takeover that is finished plays nothing more. -/
theorem playRounds_finished {settings : Settings} (count : Nat) (report : Report) :
    playRounds id chances settings node count (.finished report) session =
      some (.finished report, session) := by
  induction count with
  | zero => rfl
  | succ count inductionHypothesis => exact inductionHypothesis

/-- A takeover is closed by one round. -/
theorem Reaches.of_closing {settings : Settings} {report : Report} {after : Session}
    (reaches : Reaches id chances settings node (.closing jobs cache) session (.finished report) after) :
    (close settings node jobs cache).play id chances session = some (.finished report, after) := by
  obtain ⟨count, played⟩ := reaches
  cases count with
  | zero => cases played
  | succ count =>
      obtain ⟨⟨next, middle⟩, now, rest⟩ := Option.bind_eq_some_iff.1 played
      obtain ⟨⟨told, rfl⟩, _⟩ := close_keeps now
      cases (playRounds_finished count told).symm.trans rest
      exact now

end Settle

end Takeover

end Handover
