import Handover.Proofs.Unblocked

/-!
Contract: a node has the tasks of one activation at most, and only while it is active.

Owns: that the mode and the tasks of the present activation go together; that activations
are numbered anew, so that one that is over never comes back; that no checker but that of
the present activation is live.
-/

set_option autoImplicit false

namespace Handover.Coordinator

/-- The activation that a task belongs to. -/
def Role.activation? : Role → Option Nat
  | .worker activation _ _ => some activation
  | .checker activation _ => some activation
  | .retry activation _ _ => some activation
  | _ => none

theorem Role.Becomes.activation? {role after : Role} (becomes : role.Becomes after) :
    after.activation? = role.activation? := by
  cases becomes <;> rfl

namespace State

variable {state shared : State} {id : TaskId} {event : Event} {act : Act} {leader : Bool} {group : Group}

/-! ## The end of a change of the mode -/

theorem deactivate_activations (state : State) : state.deactivate.activations = state.activations := by
  unfold deactivate
  cases state.group <;> rfl

theorem deactivate_tasks (active : state.group = some group) :
    state.deactivate.tasks = state.tasks.modify group.checker Task.close := by
  unfold deactivate
  rw [active]

/-- What the end of a change makes of what belongs to the mode. -/
theorem Takes.changed (takes : state.Takes id event (.changeEnd leader) shared) :
    shared.group = (if leader then
      some ⟨state.activations, state.tasks.length, state.tasks.length + 1⟩ else none) ∧
    (shared.mode == .active) = leader ∧ shared.active = leader ∧
    shared.activations = state.activations + if leader then 1 else 0 := by
  cases takes
  cases leader with
  | true => exact ⟨rfl, rfl, rfl, rfl⟩
  | false => exact ⟨rfl, rfl, rfl, state.deactivate_activations⟩

theorem Takes.activations_le (takes : state.Takes id event act shared) :
    state.activations ≤ shared.activations := by
  by_cases isEnd : ∃ leader, act = .changeEnd leader
  · obtain ⟨leader, rfl⟩ := isEnd
    rw [takes.changed.2.2.2]
    exact Nat.le_add_right _ _
  · exact (takes.activations fun leader same => isEnd ⟨leader, same⟩).ge

/-! ## The law -/

/-- The tasks of the present activation, and those of activations that are over. -/
structure Staffed (state : State) : Prop where
  mode : (state.mode == .active) = state.group.isSome
  shown : state.active = state.group.isSome
  group : ∀ {group}, state.group = some group → group.activation < state.activations
  tasks : ∀ {id task activation}, state.task? id = some task →
    task.role.activation? = some activation → activation < state.activations
  /-- No checker is live but that of the present activation. -/
  checkers : ∀ {id task}, state.task? id = some task → task.role.Checks → task.ended = false →
    ∃ group, state.group = some group ∧ group.checker = id

theorem initial_staffed (settings : Settings) (world : World) :
    (initial settings world).Staffed where
  mode := rfl
  shown := rfl
  group := nofun
  tasks := nofun
  checkers := nofun

/-- What is raised belongs to an activation that has its number. -/
theorem Raised.activation_lt {role : Role} {activation : Nat} (staffed : state.Staffed)
    (takes : state.Takes id event act shared) (raised : Raised state act role)
    (belongs : role.activation? = some activation) : activation < shared.activations := by
  cases raised with
  | worker =>
      obtain rfl : state.activations = activation := Option.some.inj belongs
      rw [takes.changed.2.2.2]
      exact Nat.lt_succ_self _
  | checker =>
      obtain rfl : state.activations = activation := Option.some.inj belongs
      rw [takes.changed.2.2.2]
      exact Nat.lt_succ_self _
  | retry active node due =>
      obtain rfl := Option.some.inj belongs
      exact Nat.lt_of_lt_of_le (staffed.group active) takes.activations_le

/-- The checkers that are live after a change of the mode has ended. -/
theorem Staffed.changed {other : TaskId} {one : Task} (staffed : state.Staffed)
    (needed : leader ≠ (state.mode == .active))
    (takes : state.Takes id event (.changeEnd leader) shared) (found : shared.task? other = some one)
    (checks : one.role.Checks) (running : one.ended = false) :
    ∃ group, shared.group = some group ∧ group.checker = other := by
  have none_live : state.group = none → state.task? other ≠ some one := by
    intro inactive before
    obtain ⟨group, active, _⟩ := staffed.checkers before checks running
    cases inactive.symm.trans active
  cases leader with
  | true =>
      have inactive : state.group = none := by
        rw [staffed.mode] at needed
        simpa using needed.symm
      refine ⟨_, takes.changed.1, ?_⟩
      have tasks : shared.tasks = state.tasks ++ [.fresh (.worker state.activations false none) [],
          .fresh (.checker state.activations state.clock) []] := by
        cases takes
        rfl
      rw [task?, tasks, List.getElem?_append] at found
      split at found
      case isTrue => exact absurd found (none_live inactive)
      case isFalse behind =>
        obtain ⟨_, _, isChecker⟩ := checks
        obtain ⟨offset, rfl⟩ := Nat.exists_eq_add_of_le (Nat.not_lt.1 behind)
        rw [Nat.add_sub_cancel_left] at found
        cases offset with
        | zero =>
            cases found
            cases isChecker
        | succ offset =>
            cases offset with
            | zero => rfl
            | succ => cases found
  | false =>
      exfalso
      cases takes
      cases active : state.group with
      | none =>
          refine none_live active ?_
          simpa [changeMode, deactivate, active, task?] using found
      | some group =>
          change state.deactivate.tasks[other]? = some one at found
          rw [deactivate_tasks active, List.getElem?_modify, Option.map_eq_map] at found
          obtain ⟨before, was, changed⟩ := Option.map_eq_some_iff.1 found
          split at changed
          case isTrue =>
            subst changed
            cases running
          case isFalse apart =>
            subst changed
            obtain ⟨own, known, isChecker⟩ := staffed.checkers was checks running
            cases active.symm.trans known
            exact apart isChecker

/-! ## One event -/

section Moves

variable {allowed : Act → Prop} {task later : Task}

theorem Staffed.spawned {role : Role} {errands : List Errand} (staffed : state.Staffed)
    (outside : Outside role errands) : (state.spawn (.fresh role errands)).Staffed where
  mode := staffed.mode
  shown := staffed.shown
  group := staffed.group
  tasks := fun found belongs => by
    rcases of_task?_spawn found with before | rfl
    · exact staffed.tasks before belongs
    · cases outside <;> cases belongs
  checkers := fun found checks running => by
    rcases of_task?_spawn found with before | rfl
    · exact staffed.checkers before checks running
    · obtain ⟨_, _, isChecker⟩ := checks
      cases outside <;> cases isChecker

theorem Staffed.told {role : Role} (staffed : state.Staffed) (found : state.task? id = some task)
    (told : task.role.Told role) : (state.setTask id { task with role := role }).Staffed where
  mode := staffed.mode
  shown := staffed.shown
  group := staffed.group
  tasks := fun there belongs => by
    rcases (task?_setTask_iff found).1 there with ⟨_, rfl⟩ | ⟨_, before⟩
    · exact staffed.tasks found (told.becomes.activation? ▸ belongs)
    · exact staffed.tasks before belongs
  checkers := fun there checks running => by
    rcases (task?_setTask_iff found).1 there with ⟨rfl, rfl⟩ | ⟨_, before⟩
    · exact staffed.checkers found (told.becomes.checks.1 checks) running
    · exact staffed.checkers before checks running

/-- Every task there is after a move belongs to an activation that has its number. -/
theorem Staffed.activation_lt (staffed : state.Staffed) (found : state.task? id = some task)
    (goes : task.Goes state.settings act later) (takes : state.Takes id event act shared) {other : TaskId}
    {one : Task} {activation : Nat} (there : (shared.setTask id later).task? other = some one)
    (belongs : one.role.activation? = some activation) : activation < shared.activations := by
  obtain ⟨_, still⟩ := takes.there found
  have grows := takes.activations_le
  rcases (task?_setTask_iff still).1 there with ⟨_, rfl⟩ | ⟨_, after⟩
  · exact (staffed.tasks found (goes.becomes.activation? ▸ belongs)).trans_le grows
  · rcases takes.of_task? after with was | ⟨_, role, rfl, raised⟩ | ⟨former, _, was, rfl, _⟩
    · exact (staffed.tasks was belongs).trans_le grows
    · exact raised.activation_lt staffed takes belongs
    · exact (staffed.tasks was belongs).trans_le grows

/-- The end of a change of the mode makes the mode and the activation go together anew. -/
theorem Staffed.changeEnd (staffed : state.Staffed) (sound : state.Sound allowed)
    (switched : state.Switched) (found : state.task? id = some task)
    (goes : task.Goes state.settings (.changeEnd leader) later)
    (takes : state.Takes id event (.changeEnd leader) shared) : (shared.setTask id later).Staffed := by
  have steers : task.steers? = some leader ∧ later.steers? = none := goes.steers
  obtain ⟨group, mode, shown, activations⟩ := takes.changed
  have active : leader = shared.group.isSome := by
    rw [group]
    cases leader <;> rfl
  refine ⟨mode.trans active, shown.trans active, fun {own} present => ?_,
    staffed.activation_lt found goes takes, fun {other one} there checks running => ?_⟩
  · change shared.group = some own at present
    change own.activation < shared.activations
    rw [group] at present
    rw [activations]
    cases leader <;> cases present
    exact Nat.lt_succ_self _
  · obtain ⟨_, still⟩ := takes.there found
    rcases (task?_setTask_iff still).1 there with ⟨rfl, rfl⟩ | ⟨_, after⟩
    · cases ((sound.tasks found).not_steers (goes.becomes.checks.1 checks)).symm.trans steers.1
    · have needed := switched.needed ((look_of_found found).trans steers.1)
      have live : ∃ group, shared.group = some group ∧ group.checker = other :=
        staffed.changed needed takes after checks running
      exact live

/-- Any other move leaves the mode and the activation as they are, and no checker comes up. -/
theorem Staffed.moved (staffed : state.Staffed) (notEnd : ∀ leader, act ≠ .changeEnd leader)
    (found : state.task? id = some task) (goes : task.Goes state.settings act later)
    (takes : state.Takes id event act shared) : (shared.setTask id later).Staffed := by
  have group : (shared.setTask id later).group = state.group := takes.group notEnd
  refine ⟨?_, ?_, fun {own} active => ?_, staffed.activation_lt found goes takes,
    fun {other one} there checks running => ?_⟩
  · rw [group, ← staffed.mode]
    exact congrArg (· == Mode.active) (takes.mode notEnd)
  · rw [group, ← staffed.shown]
    exact takes.active notEnd
  · rw [group] at active
    exact (staffed.group active).trans_le takes.activations_le
  · obtain ⟨_, still⟩ := takes.there found
    rw [group]
    rcases (task?_setTask_iff still).1 there with ⟨rfl, rfl⟩ | ⟨_, after⟩
    · exact staffed.checkers found (goes.becomes.checks.1 checks) (goes.of_running running)
    · rcases takes.of_task? after with was | ⟨_, role, rfl, raised⟩ | ⟨former, _, was, rfl, _⟩
      · exact staffed.checkers was checks running
      · obtain ⟨_, _, isChecker⟩ := checks
        cases raised with
        | checker => exact absurd rfl (notEnd true)
        | worker => cases isChecker
        | retry => cases isChecker
      · cases running

end Moves

end State

open State in
/-- Activations are only ever counted up. -/
theorem Happens.activations_le {state next : State} {event : Event} (happens : Happens state event next) :
    state.activations ≤ next.activations := by
  cases happens with
  | moved found goes takes => exact takes.activations_le
  | _ => exact le_rfl

open State in
theorem Happens.staffed {state next : State} {event : Event} {allowed : Act → Prop}
    (happens : Happens state event next) (sound : state.Sound allowed) (switched : state.Switched)
    (staffed : state.Staffed) : next.Staffed := by
  cases happens with
  | spawned _ outside => exact staffed.spawned outside
  | told _ found told => exact staffed.told found told
  | @moved _ _ _ _ act _ found goes takes =>
      by_cases isEnd : ∃ leader, act = .changeEnd leader
      · obtain ⟨leader, rfl⟩ := isEnd
        exact staffed.changeEnd sound switched found goes takes
      · exact staffed.moved (fun leader same => isEnd ⟨leader, same⟩) found goes takes
  | passed millis => exact ⟨staffed.mode, staffed.shown, staffed.group, staffed.tasks, staffed.checkers⟩
  | written entry wall =>
      exact ⟨staffed.mode, staffed.shown, staffed.group, staffed.tasks, staffed.checkers⟩

end Handover.Coordinator
