import Handover.Proofs.Strokes

/-!
Contract: whom the checks of the heartbeats can kill.

Owns: the exact condition under which the swap of a check wins, by what happened to the
record since it was listed; that without a write over the record a won swap finds the very
record that was listed, which is not that of a node whose heartbeats go on; and that a
takeover which resets the record in between can let a stale swap win.
-/

set_option autoImplicit false

namespace Handover

open Time (Instant)

/-- The record of a node whose last heartbeat is not older than the timeout. -/
def Liveness.IsBeating (timeoutMillis : Nat) (now : Instant) (record : Liveness) : Prop :=
  record.alive = true ∧ ∃ heard, record.lastHeartbeat = some heard ∧
    heard.age now ≤ MonitorSettings.effectiveTimeout timeoutMillis * Instant.nanosPerMilli

/-- What is due is not beating. -/
theorem Detection.not_isBeating_of_isDue {timeoutMillis : Nat} {now : Instant} {record : Liveness}
    (due : isDue timeoutMillis now record = true) : ¬ record.IsBeating timeoutMillis now := by
  rintro ⟨alive, heard, last, recent⟩
  rcases Bool.or_eq_true_iff.1 due with expired | needs
  · simp only [isExpired, last, alive, Bool.true_and, decide_eq_true_eq] at expired
    omega
  · simp [Liveness.needsRecovery, alive] at needs

namespace Coordinator

namespace State

/-- A swap of the node's record to `record` wins if it is carried out now. No shares matter for it. -/
def Wins (state : State) (node : Address) (expected : Nat) (record : Liveness) : Prop :=
  (state.world.reply (.answering none) (.swap node expected record) none).1 = .ok true

theorem wins_iff {state : State} {node : Address} {expected : Nat} {record : Liveness} :
    state.Wins node expected record ↔ state.world.members.version node = expected := by
  unfold Wins World.reply World.carryOut Membership.swap
  by_cases same : state.world.members.version node = expected <;> simp [same]

end State

/-- A swap that the task with the number is about to make: the record that it listed, due as of
the moment of its check, and what happened since. -/
structure SwapOf (start : State) (events : List Event) (id : TaskId) (duty : Duty)
    (timeoutMillis : Nat) (now : Instant) (node : Address) (seen : Liveness) (listing : State)
    (between : List Event) : Prop where
  timeout : duty.timeout? = some timeoutMillis
  asOf : AsOf start events id now duty
  /-- The listing was answered in the same check, just before `between`. -/
  split : ∃ before shares, events = before ++ .answer id shares none :: between ∧
    start.run (before ++ [.answer id shares none]) = some listing
  samePass : .proceed id ∉ between
  listed : listing.world.members.record? node = some seen
  due : Detection.isDue timeoutMillis now seen = true

/-- When the swap of a record that was listed wins. -/
structure Fence (timeoutMillis : Nat) (now : Instant) (node : Address) (seen : Liveness)
    (listing : State) (between : List Event) (state : State) : Prop where
  /-- Where nothing wrote over the record since, it wins just if nothing was done to it. -/
  kept : listing.Along (fun state event => ¬ state.Overwrites node event) between →
    (state.Wins node seen.version seen.markedDead ↔ listing.tally (State.raisesOf node) between = 0)
  /-- Then it finds the record that was listed, and the node is not beating. -/
  finds : listing.Along (fun state event => ¬ state.Overwrites node event) between →
    state.Wins node seen.version seen.markedDead →
      state.world.members.record? node = some seen ∧ ¬ seen.IsBeating timeoutMillis now
  /-- Where something did, it wins just if the version has come back to the one listed. -/
  overwritten : ∀ first event last middle next record, between = first ++ event :: last →
    listing.run first = some middle → middle.stroke node event = .overwrites record →
      middle.step event = some next →
        next.Along (fun state event => ¬ state.Overwrites node event) last →
          (state.Wins node seen.version seen.markedDead ↔
            record.version + next.tally (State.raisesOf node) last = seen.version)
  /-- Versions are counted without a bound. A 64-bit word holds the version that the swap is
  compared with, if it holds the one listed with all rises since. -/
  fits : listing.Along (fun state event => ¬ state.Overwrites node event) between →
    seen.version + listing.tally (State.raisesOf node) between < UInt64.size →
      state.world.members.version node < UInt64.size
  /-- After a write over the record, it is the version written that has to fit with all rises since. -/
  overwrittenFits : ∀ first event last middle next record, between = first ++ event :: last →
    listing.run first = some middle → middle.stroke node event = .overwrites record →
      middle.step event = some next →
        next.Along (fun state event => ¬ state.Overwrites node event) last →
          record.version + next.tally (State.raisesOf node) last < UInt64.size →
            state.world.members.version node < UInt64.size

namespace State

variable {settings : Settings} {world : World} {before events between : List Event}
  {listing state : State} {id : TaskId} {task : Task} {node : Address} {seen : Liveness}

/-- The version after a write over the record is the one written, with all rises since. -/
theorem version_of_overwritten {first last : List Event} {event : Event} {middle next : State}
    {record : Liveness} (ran : (initial settings world).run before = some listing)
    (run : listing.run (first ++ event :: last) = some state)
    (listed : listing.world.members.record? node = some seen) (ranFirst : listing.run first = some middle)
    (stroke : middle.stroke node event = .overwrites record) (stepped : middle.step event = some next)
    (kept : next.Along (fun state event => ¬ state.Overwrites node event) last) :
    state.world.members.version node = record.version + next.tally (raisesOf node) last := by
  have whole : (initial settings world).run (before ++ first) = some middle := run_trans ran ranFirst
  have ranNext : (initial settings world).run (before ++ first ++ [event]) = some next := by
    rw [run_snoc, whole]
    exact stepped
  have ranLast : next.run last = some state := by
    rw [run_append, ranFirst] at run
    simpa [State.run, stepped] using run
  obtain ⟨latest, there⟩ : ∃ latest, middle.world.members.record? node = some latest :=
    run_record? ran ranFirst listed
  obtain ⟨after, now, leads⟩ := step_record? stepped (swaps_honest whole) there
  rw [stroke] at leads
  obtain rfl : after = record := leads
  obtain ⟨final, thereFinal, version, _⟩ := run_version ranNext ranLast kept now
  rw [Membership.version_of_record? thereFinal, version]

/-- The laws of the fence hold from any state of a run in which the node has a record. -/
theorem fence {timeoutMillis : Nat} {now : Instant}
    (ran : (initial settings world).run before = some listing)
    (run : listing.run between = some state) (listed : listing.world.members.record? node = some seen)
    (due : Detection.isDue timeoutMillis now seen = true) :
    Fence timeoutMillis now node seen listing between state where
  kept := by
    intro kept
    obtain ⟨record, there, version, same⟩ := run_version ran run kept listed
    rw [wins_iff, Membership.version_of_record? there, version]
    omega
  finds := by
    intro kept wins
    obtain ⟨record, there, version, same⟩ := run_version ran run kept listed
    rw [wins_iff, Membership.version_of_record? there, version] at wins
    exact ⟨same (by omega) ▸ there, Detection.not_isBeating_of_isDue due⟩
  overwritten := by
    rintro first event last middle next record rfl ranFirst stroke stepped kept
    rw [wins_iff, version_of_overwritten ran run listed ranFirst stroke stepped kept]
  fits := by
    intro kept small
    obtain ⟨record, there, version, _⟩ := run_version ran run kept listed
    rwa [Membership.version_of_record? there, version]
  overwrittenFits := by
    rintro first event last middle next record rfl ranFirst stroke stepped kept small
    rwa [version_of_overwritten ran run listed ranFirst stroke stepped kept]

/-- Every swap that a check is about to make goes back to its own listing of a record that was
due, and wins just as what happened since then says. -/
theorem swap_fenced (run : (initial settings world).run events = some state)
    (found : state.task? id = some task) {expected : Nat} {record : Liveness}
    (swaps : task.call? = some (.swap node expected record, true)) :
    ∃ timeoutMillis now seen listing between, expected = seen.version ∧ record = seen.markedDead ∧
      SwapOf (initial settings world) events id task.duty timeoutMillis now node seen listing
        between ∧
      Fence timeoutMillis now node seen listing between state := by
  obtain ⟨timeoutMillis, now, listed, seen, timeout, asOf,
    ⟨before, shares, between, middle, rfl, ran, rfl, calls, samePass⟩, member, due, rfl, rfl⟩ :=
    run_swaps run found swaps
  have parts : before ++ .answer id shares none :: between =
      (before ++ [.answer id shares none]) ++ between := by simp
  obtain ⟨listing, ranListing, runSince⟩ : ∃ listing,
      (initial settings world).run (before ++ [.answer id shares none]) = some listing ∧
        listing.run between = some state := by
    rw [parts, run_append] at run
    exact Option.bind_eq_some_iff.1 run
  have stepped : middle.step (.answer id shares none) = some listing := by
    rw [run_snoc, ran] at ranListing
    exact ranListing
  have filed : middle.world.members.find? node = some (node, seen) :=
    Table.find?_eq_some_iff.2 ⟨member, rfl⟩
  have there : middle.world.members.record? node = some seen := by
    rw [Membership.record?, filed]
    rfl
  obtain ⟨after, now', leads⟩ := step_record? stepped (swaps_honest ran) there
  rw [State.stroke, calls] at leads
  obtain rfl : after = seen := leads
  exact ⟨timeoutMillis, now, after, listing, between, rfl, rfl,
    ⟨timeout, asOf, ⟨before, shares, rfl, ranListing⟩, samePass, now', due⟩,
    fence ranListing runSince now' due⟩

/-- A node that was last heard a second after the beginning, and a job of it. -/
private def silent : World :=
  { World.initial with
    members := .ofList [(⟨"a"⟩, .heardAt ⟨1, 0⟩ 1)]
    jobs := .ofList [⟨1, "j", ⟨"a"⟩, .running, .cron, none⟩] }

/-- A check as of a hundred seconds after the beginning, up to its swap. -/
private def checking : List Event :=
  [.arrive [.check 10000 ⟨100, 0⟩], .proceed 0, .start 0, .answer 0 none none, .start 0]

theorem swap_fenced_of_silent : ∃ state task timeoutMillis now seen listing between,
    (initial default silent).run checking = some state ∧ state.task? 0 = some task ∧
      task.call? = some (.swap ⟨"a"⟩ 1 (Liveness.heardAt ⟨1, 0⟩ 1).markedDead, true) ∧
      1 = seen.version ∧
      SwapOf (initial default silent) checking 0 task.duty timeoutMillis now ⟨"a"⟩ seen listing
        between ∧
      Fence timeoutMillis now ⟨"a"⟩ seen listing between state := by
  obtain ⟨state, task, run, found, swaps⟩ : ∃ state task,
      (initial default silent).run checking = some state ∧ state.task? 0 = some task ∧
        task.call? = some (.swap ⟨"a"⟩ 1 (Liveness.heardAt ⟨1, 0⟩ 1).markedDead, true) :=
    ⟨_, _, rfl, rfl, rfl⟩
  obtain ⟨timeoutMillis, now, seen, listing, between, version, _, swapOf, fence⟩ :=
    swap_fenced run found swaps
  exact ⟨state, task, timeoutMillis, now, seen, listing, between, run, found, swaps, version, swapOf,
    fence⟩

/-- The node is found dead by another actor, a takeover leaves its job and resets its record,
and then it is heard again. -/
private def revival : List Event :=
  [.write (.markDead ⟨"a"⟩) ⟨100, 0⟩, .arrive [.takeOver ⟨"a"⟩], .proceed 1, .start 1, .answer 1 none none,
    .proceed 1, .start 1, .answer 1 none none, .start 1, .answer 1 none none, .start 1, .answer 1 none none,
    .proceed 1, .start 1, .answer 1 none none, .start 1, .answer 1 none none, .start 1, .answer 1 none none,
    .write (.heartbeat ⟨"a"⟩ (some ⟨99, 0⟩)) ⟨100, 0⟩]

/-- The reset brings the version back to the one that the check listed, and its swap kills a
node that was heard a second before. -/
theorem beating_node_killed : ∃ state task fresh,
    (initial default silent).run (checking ++ revival) = some state ∧ state.task? 0 = some task ∧
      task.duty = .check 10000 ⟨100, 0⟩ ∧
      task.call? = some (.swap ⟨"a"⟩ 1 (Liveness.heardAt ⟨1, 0⟩ 1).markedDead, true) ∧
      state.world.members.record? ⟨"a"⟩ = some fresh ∧ fresh.IsBeating 10000 ⟨100, 0⟩ ∧
      state.Wins ⟨"a"⟩ 1 (Liveness.heardAt ⟨1, 0⟩ 1).markedDead := by
  refine ⟨_, _, .heardAt ⟨99, 0⟩ 1, rfl, rfl, rfl, rfl, rfl, ⟨rfl, ⟨99, 0⟩, rfl, by decide⟩, rfl⟩

end State

end Coordinator

end Handover
