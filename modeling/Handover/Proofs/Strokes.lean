import Handover.Proofs.Members
import Handover.Proofs.Sweeps
import Handover.Proofs.Writes

/-!
Contract: what the events of a run do to the liveness record of a node.

Owns: which events leave the record alone, which raise its version by one, and which write
over it; and the version of the record after a run, told from these.
-/

set_option autoImplicit false

namespace Handover.Coordinator

open Time (Instant)

/-- What an event does to the record of a node. -/
inductive Stroke where
  | spares
  /-- The record gets the next version: a heartbeat, a death, or a swap that a check won. -/
  | raises
  /-- The record makes way for another, whatever its version. -/
  | overwrites (record : Liveness)
deriving DecidableEq

/-- How the record after a stroke follows from the one before. -/
def Stroke.Leads (before after : Liveness) : Stroke → Prop
  | .spares => after = before
  | .raises => after.version = before.version + 1
  | .overwrites record => after = record

/-- What a call of a task does to the record of the node when it is carried out. -/
def callStroke (node : Address) (members : Membership) : Call → Stroke
  | .reset other record _ => if other = node then .overwrites record else .spares
  | .swap other expected _ =>
      if other = node ∧ members.version node = expected then .raises else .spares
  | _ => .spares

namespace State

/-- What an event does to the record of the node. -/
def stroke (node : Address) (state : State) : Event → Stroke
  | .answer id _ none =>
      match (state.task? id).bind Task.call? with
      | some (request, true) => callStroke node state.world.members request
      | _ => .spares
  | .effect id wall draw =>
      if state.deed? (.effect id wall draw) = some (id, .heartbeat node) then .raises else .spares
  | .write (.heartbeat other _) _ => if other = node then .raises else .spares
  | .write (.markDead other) _ => if other = node then .raises else .spares
  | .write (.reset other record) _ => if other = node then .overwrites record else .spares
  | .write (.swap other expected record) _ =>
      if other = node ∧ state.world.members.version node = expected then .overwrites record
      else .spares
  | _ => .spares

end State

/-! ## One event -/

section Members

variable {members : Membership} {node other : Address} {record before : Liveness}
  (there : members.record? node = some before)

include there

theorem record?_set_leads : ∃ after, (members.set other record).record? node = some after ∧
    (if other = node then Stroke.overwrites record else .spares).Leads before after := by
  rw [Membership.record?_set]
  split
  · exact ⟨record, rfl, rfl⟩
  · exact ⟨before, there, rfl⟩

theorem record?_heartbeat_leads (moment : Instant) :
    ∃ after, (members.heartbeat other moment).record? node = some after ∧
      (if other = node then Stroke.raises else .spares).Leads before after := by
  rw [Membership.heartbeat, Membership.record?_set]
  split
  case isTrue same => exact ⟨_, rfl, by rw [same, there]; rfl⟩
  case isFalse => exact ⟨before, there, rfl⟩

theorem record?_markDead_leads : ∃ after, (members.markDead other).record? node = some after ∧
    (if other = node then Stroke.raises else .spares).Leads before after := by
  rw [Membership.markDead, Membership.record?_set]
  split
  case isTrue same => exact ⟨_, rfl, by rw [same, there]; rfl⟩
  case isFalse => exact ⟨before, there, rfl⟩

theorem record?_swap_leads (expected : Nat) : ∃ after,
    (members.swap other expected record).1.record? node = some after ∧
      (if other = node ∧ members.version node = expected then Stroke.overwrites record
        else .spares).Leads before after := by
  by_cases same : other = node
  · subst same
    unfold Membership.swap
    split
    case isTrue wins => exact ⟨record, Membership.record?_set_self, by simp [wins, Stroke.Leads]⟩
    case isFalse loses => exact ⟨before, there, by simp [loses, Stroke.Leads]⟩
  · exact ⟨before, (Membership.record?_swap_ne same expected).trans there, by simp [same, Stroke.Leads]⟩

/-- A swap to the next version raises the version if it is won. -/
theorem record?_swap_raises {expected : Nat} (honest : other = node → record.version = expected + 1) :
    ∃ after, (members.swap other expected record).1.record? node = some after ∧
      (if other = node ∧ members.version node = expected then Stroke.raises else .spares).Leads
        before after := by
  obtain ⟨after, now, leads⟩ : ∃ after, (members.swap other expected record).1.record? node = some after ∧
      (if other = node ∧ members.version node = expected then Stroke.overwrites record
        else .spares).Leads before after := record?_swap_leads there expected
  refine ⟨after, now, ?_⟩
  split at leads
  case isTrue wins =>
    obtain rfl : after = record := leads
    have version : members.version node = before.version := Membership.version_of_record? there
    rw [if_pos wins]
    exact (honest wins.1).trans (congrArg (· + 1) (wins.2.symm.trans version))
  case isFalse loses =>
    rw [if_neg loses]
    exact leads

end Members

namespace State

variable {state next shared : State} {event : Event} {id : TaskId} {act : Act} {node : Address}
  {before : Liveness}

/-- A call that is refused leaves who is alive. -/
theorem reply_refused_members (world : World) (weigher : Weigher) (request : Call) (detail : String) :
    (world.reply weigher request (some detail)).2.members = world.members := by
  cases request <;> rfl

/-- A call that is carried out does to the record what its stroke says. -/
theorem record?_reply_leads {world : World} (weigher : Weigher) {request : Call}
    (honest : ∀ expected record, request = .swap node expected record → record.version = expected + 1)
    (there : world.members.record? node = some before) :
    ∃ after, (world.reply weigher request none).2.members.record? node = some after ∧
      (callStroke node world.members request).Leads before after := by
  cases request
  case reset other record _ => exact record?_set_leads there
  case swap other expected record =>
    exact record?_swap_raises there fun same => honest expected record (same ▸ rfl)
  all_goals exact ⟨before, there, rfl⟩

/-- What the node's record is after an event follows from what it was. -/
theorem step_record? (stepped : state.step event = some next)
    (honest : ∀ id task expected record, state.task? id = some task →
      task.call? = some (.swap node expected record, true) → record.version = expected + 1)
    (there : state.world.members.record? node = some before) :
    ∃ after, next.world.members.record? node = some after ∧
      (state.stroke node event).Leads before after := by
  rw [step_world stepped]
  cases event with
  | write entry wall =>
      cases entry with
      | heartbeat other moment => exact record?_heartbeat_leads there _
      | markDead other => exact record?_markDead_leads there
      | reset other record => exact record?_set_leads there
      | swap other expected record => exact record?_swap_leads there expected
      | _ => exact ⟨before, there, rfl⟩
  | answer id shares refused =>
      cases under : (state.task? id).bind Task.call? with
      | none =>
          have calls : state.request? id = none := by simp [request?, under]
          rw [worldNext, calls]
          exact ⟨before, there, by cases refused <;> simp [State.stroke, under, Stroke.Leads]⟩
      | some call =>
          obtain ⟨request, started⟩ := call
          obtain ⟨task, found, calls⟩ := Option.bind_eq_some_iff.1 under
          cases started with
          | false =>
              have idle : state.request? id = none := by simp [request?, under]
              rw [worldNext, idle]
              exact ⟨before, there, by cases refused <;> simp [State.stroke, under, Stroke.Leads]⟩
          | true =>
              rw [worldNext, request?_eq_some_iff.2 ⟨task, found, calls⟩]
              cases refused with
              | some detail =>
                  refine ⟨before, ?_, rfl⟩
                  exact (congrArg (Membership.record? · node)
                    (reply_refused_members _ _ request detail)).trans there
              | none =>
                  rw [State.stroke, under]
                  refine record?_reply_leads (.answering shares) ?_ there
                  rintro expected record rfl
                  exact honest id task expected record found calls
  | effect id wall draw =>
      cases own : state.deed? (.effect id wall draw) with
      | none => exact ⟨before, by rw [worldNext, own]; exact there, by simp [State.stroke, own, Stroke.Leads]⟩
      | some deed =>
          obtain ⟨other, deed⟩ := deed
          obtain rfl : id = other := Option.some.inj (of_deed? own).1
          rw [worldNext, own, State.stroke, own]
          cases deed
          case heartbeat other => simpa [worldAfter] using record?_heartbeat_leads there wall
          all_goals exact ⟨before, there, by simp [Stroke.Leads]⟩
  | _ => exact ⟨before, there, rfl⟩

/-! ## Runs -/

section Run

variable {settings : Settings} {world : World} {before : List Event}
  {events : List Event} {start state : State} {seen : Liveness}

/-- Counts the events that raise the version of the node's record. -/
def raisesOf (node : Address) (state : State) (event : Event) : Nat :=
  if state.stroke node event = .raises then 1 else 0

/-- The event writes over the record of the node. -/
def Overwrites (node : Address) (state : State) (event : Event) : Prop :=
  ∃ record, state.stroke node event = .overwrites record

/-- The swaps of checks raise the version by one. -/
theorem swaps_honest (run : (initial settings world).run events = some state) (id : TaskId)
    (task : Task) (expected : Nat) (record : Liveness) (found : state.task? id = some task)
    (swaps : task.call? = some (.swap node expected record, true)) : record.version = expected + 1 := by
  obtain ⟨_, _, _, seen, _, _, _, _, _, rfl, rfl⟩ := run_swaps run found swaps
  rfl

/-- A node that has a record keeps one. -/
theorem run_record? (ran : (initial settings world).run before = some start)
    (run : start.run events = some state) (there : start.world.members.record? node = some seen) :
    ∃ record, state.world.members.record? node = some record := by
  refine run_induction (motive := fun _ state => ∃ record, state.world.members.record? node = some record)
    ⟨seen, there⟩ ?_ (along_of_forall fun _ _ => trivial) run
  rintro events event middle next - run - stepped ⟨record, there⟩
  have whole : (initial settings world).run (before ++ events) = some middle := by
    rw [run_append, ran]
    exact run
  obtain ⟨after, now, _⟩ := step_record? stepped (swaps_honest whole) there
  exact ⟨after, now⟩

/-- Where nothing writes over the record of a node, its version tells how often it was
raised, and a record whose version was never raised is as it was. -/
theorem run_version (ran : (initial settings world).run before = some start)
    (run : start.run events = some state)
    (kept : start.Along (fun state event => ¬ state.Overwrites node event) events)
    (there : start.world.members.record? node = some seen) :
    ∃ record, state.world.members.record? node = some record ∧
      record.version = seen.version + start.tally (raisesOf node) events ∧
      (start.tally (raisesOf node) events = 0 → record = seen) := by
  refine run_induction (motive := fun events state => ∃ record,
    state.world.members.record? node = some record ∧
      record.version = seen.version + start.tally (raisesOf node) events ∧
      (start.tally (raisesOf node) events = 0 → record = seen)) ⟨seen, there, rfl, fun _ => rfl⟩ ?_ kept run
  rintro events event middle next - run kept stepped ⟨record, there, version, same⟩
  have whole : (initial settings world).run (before ++ events) = some middle := by
    rw [run_append, ran]
    exact run
  obtain ⟨after, now, leads⟩ := step_record? stepped (swaps_honest whole) there
  refine ⟨after, now, ?_⟩
  rw [tally_snoc run, raisesOf]
  cases stroke : middle.stroke node event with
  | spares =>
      rw [stroke] at leads
      obtain rfl : after = record := leads
      simpa using ⟨version, same⟩
  | raises =>
      rw [stroke] at leads
      have raised : after.version = record.version + 1 := leads
      rw [if_pos rfl]
      exact ⟨by omega, by omega⟩
  | overwrites other => exact absurd ⟨other, stroke⟩ kept

end Run

end State

end Handover.Coordinator
