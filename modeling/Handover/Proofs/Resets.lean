import Handover.Proofs.Grounds
import Handover.Proofs.Strokes

/-!
Contract: whom the resets of a takeover can hit.

Owns: what the events of a run tell about whether a node is alive; that a reset goes back to
the liveness check of its own stage; and the exact condition under which it finds the node
alive: a heartbeat that came after that check, and nothing since that said otherwise.
-/

set_option autoImplicit false

namespace Handover.Coordinator

open Time (Instant)
open Takeover (FoundDead)

namespace State

/-! ## What is told of a node -/

/-- What a call of a task tells about whether the node is alive when it is carried out. -/
def callTells (node : Address) (members : Membership) : Call → Option Bool
  | .reset other record _ => if other = node then some record.alive else none
  | .swap other expected record =>
      if other = node ∧ members.version node = expected then some record.alive else none
  | _ => none

/-- What an event tells about whether the node is alive, if it writes the node's record. -/
def tells (node : Address) (state : State) : Event → Option Bool
  | .answer id _ none =>
      match state.request? id with
      | some request => callTells node state.world.members request
      | none => none
  | .effect id wall draw =>
      if state.deed? (.effect id wall draw) = some (id, .heartbeat node) then some true else none
  | .write (.heartbeat other _) _ => if other = node then some true else none
  | .write (.markDead other) _ => if other = node then some false else none
  | .write (.reset other record) _ => if other = node then some record.alive else none
  | .write (.swap other expected record) _ =>
      if other = node ∧ state.world.members.version node = expected then some record.alive else none
  | _ => none

section Members

variable (members : Membership) (node other : Address) (record : Liveness)

private theorem isAlive_set_or : some ((members.set other record).isAlive node) =
    (if other = node then some record.alive else none).or (some (members.isAlive node)) := by
  rw [Membership.isAlive_set]
  split <;> rfl

private theorem isAlive_heartbeat_or (moment : Instant) :
    some ((members.heartbeat other moment).isAlive node) =
      (if other = node then some true else none).or (some (members.isAlive node)) :=
  isAlive_set_or members node other _

private theorem isAlive_markDead_or : some ((members.markDead other).isAlive node) =
    (if other = node then some false else none).or (some (members.isAlive node)) := by
  rw [Membership.markDead, isAlive_set_or]
  cases members.record? other <;> rfl

private theorem isAlive_swap_or (expected : Nat) :
    some ((members.swap other expected record).1.isAlive node) =
      (if other = node ∧ members.version node = expected then some record.alive else none).or
        (some (members.isAlive node)) := by
  unfold Membership.swap
  by_cases same : other = node
  · subst same
    split
    case isTrue wins => simp [isAlive_set_or, wins]
    case isFalse loses => simp [loses]
  · split
    · rw [isAlive_set_or]
      simp [same]
    · simp [same]

private theorem reply_isAlive (world : World) (weigher : Weigher) (request : Call) :
    some ((world.reply weigher request none).2.members.isAlive node) =
      (callTells node world.members request).or (some (world.members.isAlive node)) := by
  cases request
  case reset other record _ => exact isAlive_set_or _ _ _ _
  case swap other expected record => exact isAlive_swap_or _ _ _ _ _
  all_goals rfl

end Members

variable {state next : State} {event : Event}

/-- After an event the node is as alive as the event tells, or as it was. -/
theorem step_isAlive (node : Address) (stepped : state.step event = some next) :
    some (next.world.members.isAlive node) =
      (state.tells node event).or (some (state.world.members.isAlive node)) := by
  rw [step_world stepped]
  cases event with
  | write entry wall =>
      cases entry with
      | heartbeat other moment => exact isAlive_heartbeat_or _ _ _ _
      | markDead other => exact isAlive_markDead_or _ _ _
      | reset other record => exact isAlive_set_or _ _ _ _
      | swap other expected record => exact isAlive_swap_or _ _ _ _ _
      | _ => rfl
  | answer id shares refused =>
      rw [worldNext]
      cases calls : state.request? id with
      | none => cases refused <;> simp [tells, calls]
      | some request =>
          cases refused with
          | some detail =>
              rw [reply_refused_members]
              rfl
          | none =>
              rw [tells, calls]
              exact reply_isAlive _ _ _ _
  | effect id wall draw =>
      rw [worldNext, tells]
      cases own : state.deed? (.effect id wall draw) with
      | none => rfl
      | some deed =>
          obtain ⟨other, deed⟩ := deed
          obtain rfl : id = other := Option.some.inj (of_deed? own).1
          cases deed
          case heartbeat other => simpa [worldAfter] using isAlive_heartbeat_or _ node other wall
          all_goals simp [worldAfter]
  | _ => rfl

/-- After a run the node is as alive as was told last, or as it was. -/
theorem run_isAlive {start : State} {events : List Event} (node : Address)
    (run : start.run events = some state) : some (state.world.members.isAlive node) =
      (start.latest (tells node) events).or (some (start.world.members.isAlive node)) := by
  have law : ∀ state event next, True → State.step state event = some next →
      some (next.world.members.isAlive node) =
        (state.tells node event).or (some (state.world.members.isAlive node)) :=
    fun _ _ _ _ stepped => step_isAlive node stepped
  exact run_latest law (along_of_forall fun _ _ => trivial) run

end State

/-! ## Resets -/

/-- A reset that the task with the number is about to make of the record of the node, and the
liveness check of its own stage, which was answered just before `between`. -/
structure ResetOf (start : State) (events : List Event) (id : TaskId) (duty : Duty) (node : Address)
    (checked : State) (between : List Event) : Prop where
  takesOver : duty.node? = some node
  split : ∃ before shares middle, events = before ++ .answer id shares none :: between ∧
    start.run before = some middle ∧
    middle.request? id = some (.isAlive node) ∧
    middle.step (.answer id shares none) = some checked
  sameTakeover : checked.Along (fun state _ => state.IsAt id node) between
  /-- The check is the last one, so it is that of the stage. -/
  sameStage : ∀ one ∈ checked.heard id between, ∀ other, one.request ≠ .isAlive other
  dead : checked.world.members.isAlive node = false

namespace State

variable {settings : Settings} {world : World} {events : List Event}
  {state : State} {id : TaskId} {task : Task} {node : Address}

/-- Every reset that a takeover is about to make goes back to the liveness check of its own
stage, which found the node dead. It finds the node alive just if the last that was told of
the node since then is that it is alive, and then it writes over that. -/
theorem reset_grounded (run : (initial settings world).run events = some state)
    (found : state.task? id = some task) {record : Liveness} {synchronized started : Bool}
    (resets : task.call? = some (.reset node record synchronized, started)) :
    ∃ checked between, record = .neverAlive ∧
      ResetOf (initial settings world) events id task.duty node checked between ∧
      (state.world.members.isAlive node = true ↔
        checked.latest (tells node) between = some true) ∧
      (started = true → ∀ shares next, state.step (.answer id shares none) = some next →
        next.world.members.record? node = some .neverAlive) := by
  obtain ⟨-, sound⟩ := run_sound (along_of_forall fun _ _ => heeds_any) run
  obtain ⟨takesOver, rfl⟩ := (sound.tasks found).mayCall resets
  obtain ⟨begun, during, since, -, -, -, newer, older, heard, last⟩ :=
    run_grounds run found takesOver resets
  obtain ⟨before, shares, refused, between, middle, checked, rfl, ran, stepped, ranBetween, calls, replied,
    rfl, stays⟩ := since.of_heard run heard
  obtain ⟨rfl, dead⟩ : refused = none ∧ middle.world.members.isAlive node = false := by
    cases refused with
    | none => exact ⟨rfl, (Except.ok.inj replied).symm⟩
    | some detail => cases replied
  have same : checked.world.members = middle.world.members := by
    rw [step_world stepped, worldNext, calls]
    rfl
  have told := run_isAlive node ranBetween
  rw [same, dead] at told
  refine ⟨checked, between, rfl, ⟨takesOver, ⟨before, shares, middle, rfl, ran, calls, stepped⟩, stays, last,
    same ▸ dead⟩, ?_, ?_⟩
  · cases latest : checked.latest (tells node) between <;> rw [latest] at told <;> simpa using told
  · rintro rfl shares next carriedOut
    rw [step_world carriedOut, worldNext, request?_eq_some_iff.2 ⟨task, found, resets⟩]
    exact Membership.record?_set_self

/-- A node that was never heard, and a job of it. -/
private def forsaken : World :=
  { World.initial with jobs := .ofList [⟨1, "j", ⟨"a"⟩, .running, .cron, none⟩] }

/-- A takeover of the node, to which no other node is alive, up to its first reset. -/
private def forsaking : List Event :=
  [.arrive [.takeOver ⟨"a"⟩], .proceed 0, .start 0, .answer 0 none none, .proceed 0, .start 0, .answer 0 none none,
    .start 0, .answer 0 none none, .start 0, .answer 0 none none, .proceed 0, .start 0, .answer 0 none none, .start 0,
    .answer 0 none none, .start 0]

theorem reset_grounded_of_forsaken : ∃ state task checked between,
    (initial default forsaken).run forsaking = some state ∧ state.task? 0 = some task ∧
      task.call? = some (.reset ⟨"a"⟩ .neverAlive true, true) ∧
      ResetOf (initial default forsaken) forsaking 0 task.duty ⟨"a"⟩ checked between ∧
      (state.world.members.isAlive ⟨"a"⟩ = true ↔ checked.latest (tells ⟨"a"⟩) between = some true) ∧
      ∀ shares next, state.step (.answer 0 shares none) = some next →
        next.world.members.record? ⟨"a"⟩ = some .neverAlive := by
  obtain ⟨state, task, run, found, resets⟩ : ∃ state task,
      (initial default forsaken).run forsaking = some state ∧ state.task? 0 = some task ∧
        task.call? = some (.reset ⟨"a"⟩ .neverAlive true, true) := ⟨_, _, rfl, rfl, rfl⟩
  obtain ⟨checked, between, -, resetOf, alive, lands⟩ := reset_grounded run found resets
  exact ⟨state, task, checked, between, run, found, resets, resetOf, alive, lands rfl⟩

/-- A heartbeat comes after the check of the stage. The reset writes over it, and the node is
one that was never heard. -/
theorem heartbeat_lost : ∃ state task next,
    (initial default forsaken).run (forsaking ++ [.write (.heartbeat ⟨"a"⟩ none) ⟨5, 0⟩]) = some state ∧
      state.task? 0 = some task ∧ task.duty = .takeOver ⟨"a"⟩ ∧
      task.call? = some (.reset ⟨"a"⟩ .neverAlive true, true) ∧
      state.world.members.record? ⟨"a"⟩ = some (.heardAt ⟨5, 0⟩ 1) ∧
      state.step (.answer 0 none none) = some next ∧
      next.world.members.record? ⟨"a"⟩ = some .neverAlive :=
  ⟨_, _, _, rfl, rfl, rfl, rfl, rfl, rfl, rfl⟩

end State

end Handover.Coordinator
