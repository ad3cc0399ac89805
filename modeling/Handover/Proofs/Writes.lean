import Handover.Proofs.Runs

/-!
Contract: what the collaborators hold after an event, told from the event alone.

Owns: the world that an event leaves, whatever its task goes on with; and what was told last
along a run, where each event may tell something new.
-/

set_option autoImplicit false

namespace Handover.Coordinator.State

open Time (Instant)

/-! ## One event -/

section Event

variable {state next shared : State} {event : Event} {id : TaskId} {act : Act}

/-- Only replies and effects change what the collaborators hold. -/
theorem Takes.world (takes : state.Takes id event act shared)
    (notReply : ∀ request reply, act ≠ .reply request reply)
    (notDeed : ∀ deed result, act ≠ .deed deed result) : shared.world = state.world := by
  cases takes with
  | reply request shares refused => exact absurd rfl (notReply _ _)
  | deed wall draw happened => exact absurd rfl (notDeed _ _)
  | changeEnd leader =>
      obtain ⟨_, _, _, _, _, _, same⟩ := changeMode_eq state leader
      rw [same]
  | _ => rfl

/-- What the collaborators hold after an effect: only a heartbeat changes it. -/
def worldAfter (wall : Instant) (world : World) : Effect → World
  | .heartbeat other => { world with members := world.members.heartbeat other wall }
  | _ => world

theorem afterEffect_world {wall : Instant} {draw : Nat} {deed : Effect} {result : deed.Result}
    {after : State} (happened : state.afterEffect wall draw deed = some (result, after)) :
    after.world = worldAfter wall state.world deed := by
  cases deed
  case scheduleRetry other =>
    obtain ⟨_, rfl⟩ := afterEffect_scheduleRetry happened
    exact scheduleRetry_world _ _ _
  case enqueue node =>
    obtain ⟨_, rfl, _⟩ | ⟨_, rfl, _⟩ := afterEffect_enqueue happened <;> rfl
  all_goals
    cases happened
    rfl

/-- What the collaborators hold after an event: a call that is answered, a heartbeat of this
node and a write of another actor change it. -/
def worldNext (state : State) : Event → World
  | .answer id shares refused =>
      match state.request? id with
      | some request => (state.world.reply (.answering shares) request refused).2
      | none => state.world
  | .effect id wall draw =>
      match state.deed? (.effect id wall draw) with
      | some (_, deed) => worldAfter wall state.world deed
      | none => state.world
  | .write entry wall => state.world.afterWrite wall entry
  | _ => state.world

theorem step_world (stepped : state.step event = some next) : next.world = state.worldNext event := by
  cases event
  case write entry wall =>
    cases stepped
    rfl
  case answer id shares refused =>
    obtain ⟨task, found, stepped⟩ := Option.bind_eq_some_iff.1 stepped
    split at stepped
    case h_1 request rest work =>
      cases stepped
      have calls : state.request? id = some request :=
        request?_eq_some_iff.2 ⟨task, found, by rw [Task.call?, work]⟩
      rw [worldNext, calls]
      rfl
    case h_2 => cases stepped
  case effect id wall draw =>
    obtain ⟨task, found, stepped⟩ := Option.bind_eq_some_iff.1 stepped
    split at stepped
    case h_1 deed rest started work =>
      obtain ⟨⟨result, after⟩, happened, stepped⟩ := Option.bind_eq_some_iff.1 stepped
      cases stepped
      have own : state.deed? (.effect id wall draw) = some (id, deed) := by
        rw [deed?, found, Option.bind_some, Task.effect?, work]
        rfl
      have same := afterEffect_world happened
      rw [worldNext, own]
      exact same
    case h_2 => cases stepped
  all_goals
    cases State.happens stepped with
    | moved found goes takes =>
        refine takes.world (fun _ _ => ?_) fun _ _ => ?_ <;> (rintro rfl; cases takes)
    | _ => rfl

end Event

/-! ## What was told last -/

/-- What the events of a run told last, if any of them told something. -/
def latest {β : Type} (tells : State → Event → Option β) (start : State) : List Event → Option β
  | [] => none
  | event :: rest => (match start.step event with
      | some next => next.latest tells rest
      | none => none).or (tells start event)

section Latest

variable {β : Type} {tells : State → Event → Option β} {start state : State} {events : List Event}
  {event : Event}

theorem latest_snoc (run : start.run events = some state) :
    start.latest tells (events ++ [event]) = (tells state event).or (start.latest tells events) := by
  induction events generalizing start with
  | nil =>
      cases run
      simp only [List.nil_append, latest, Option.or_none]
      cases state.step event <;> simp
  | cons first rest inductionHypothesis =>
      obtain ⟨middle, stepped, ran⟩ := Option.bind_eq_some_iff.1 run
      simp only [List.cons_append, latest, stepped, inductionHypothesis ran, Option.or_assoc]

/-- If each event changes what is seen to what it tells, a run changes it to what was told last. -/
theorem run_latest {holds : State → Event → Prop} {sees : State → Option β}
    (law : ∀ state event next, holds state event → state.step event = some next →
      sees next = (tells state event).or (sees state))
    (along : start.Along holds events) (run : start.run events = some state) :
    sees state = (start.latest tells events).or (sees start) := by
  refine run_induction (motive := fun events state =>
    sees state = (start.latest tells events).or (sees start)) (by simp [latest]) ?_ along run
  intro events event state next _ ran holds stepped seen
  rw [law _ _ _ holds stepped, seen, latest_snoc ran, Option.or_assoc]

end Latest

end Handover.Coordinator.State
