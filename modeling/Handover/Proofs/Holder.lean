import Handover.Proofs.Course

/-!
Contract: at most one takeover is in progress, and every one that began is finished.

Owns: which task is at a takeover and which holds the queue; that the holder is just the
task that holds it; that begins and ends of takeovers take turns in the log.

A worker holds the queue from when it gets hold of it until it is told to stop, a caller
for as long as its takeover takes. A takeover outlives the leadership: nothing but its own
end takes it from its task, unless a caller is given up on.
-/

set_option autoImplicit false

namespace Handover.Coordinator

open Takeover (Progress Report Turns)

/-! ## Tasks at a takeover -/

/-- The node whose work the task is taking over. -/
def Task.at? (task : Task) : Option Address := task.work.bind fun _ => task.duty.node?

/-- A worker that has got hold of the queue. -/
def Role.grips : Role → Bool
  | .worker _ true _ => true
  | _ => false

/-- The task keeps others from the queue. -/
def Task.holds (task : Task) : Bool := !task.ended && (task.role.grips || task.at?.isSome)

theorem Task.at?_of_work {task : Task} {work : Work} (busy : task.work = some work) :
    task.at? = task.duty.node? := by
  rw [at?, busy]
  rfl

theorem Task.at?_of_idle {task : Task} (idle : task.work = none) : task.at? = none := by
  rw [at?, idle]
  rfl

/-- A task is at a node only with a script under way. -/
theorem Task.work_of_at? {task : Task} {node : Address} (here : task.at? = some node) :
    task.duty.node? = some node ∧ ∃ script started, task.work = some ⟨script, started⟩ := by
  cases busy : task.work with
  | none => cases (at?_of_idle busy).symm.trans here
  | some work => exact ⟨(at?_of_work busy).symm.trans here, work.script, work.started, rfl⟩

theorem Task.at?_eq_of_idle {task later : Task} (idle : task.work = none) (still : later.work = none) :
    later.at? = task.at? := (at?_of_idle still).trans (at?_of_idle idle).symm

/-- The script of a takeover ends with a progress, and reports on its own node. -/
theorem Duty.Underway.progresses {settings : Settings} {allowed : Act → Prop} {duty : Duty}
    {script : Script Outcome} {node : Address} (takesOver : duty.node? = some node)
    (underway : duty.Underway settings allowed script) :
    script.Keeps .any fun outcome =>
      ∃ progress, outcome = .progress progress ∧
        ∀ report, progress = .finished report → report.node = node := by
  have round : ∀ progress, (∀ report, progress ≠ .finished report) →
      (roundOf settings node progress).Keeps .any fun outcome =>
        ∃ next, outcome = .progress next ∧ ∀ report, next = .finished report → report.node = node := by
    intro progress unfinished
    refine .bind (Takeover.round_keeps (fun _ _ => trivial) trivial (fun _ _ _ => ⟨trivial, trivial⟩)
      unfinished) fun next turns => ⟨next, rfl, ?_⟩
    rintro report rfl
    cases turns
    assumption
  refine underway.keeps (fun _ _ _ => trivial) ?_ fun other progress same unfinished _ => ?_
  · cases duty <;> cases takesOver
    · exact round .opening fun _ => nofun
    · exact ⟨trivial, fun _ => round .opening fun _ => nofun⟩
  · cases takesOver.symm.trans same
    exact round progress unfinished

/-- To which takeover an act brings a task. With most acts it stays at the one it is at. -/
def Act.Brings (before after : Option Address) : Act → Prop
  | .take node => before = none ∧ after = some node
  | .begin node => before = none ∧ after = some node
  | .finish report _ => before = some report.node ∧ after = none
  | .abandon => after = none
  | _ => after = before

section Goes

variable {settings : Settings} {allowed : Act → Prop} {task later : Task} {act : Act}

theorem Errand.Begins.node {errand : Errand} {script : Script Outcome}
    (begins : errand.Begins settings act script) :
    errand.duty.node? = match act with
      | .begin node => some node
      | _ => none := by
  cases begins <;> rfl

theorem Role.Begins.node {role after : Role} {script : Script Outcome}
    (begins : role.Begins settings after act script) :
    after.duty.node? = match act with
      | .take node => some node
      | _ => none := by
  cases begins <;> rfl

/-- A takeover that comes to the end of a script came to a progress, of its own node. -/
theorem Task.Sound.progresses (sound : task.Sound settings allowed) {node : Address}
    {outcome : Outcome} {started : Bool} (takesOver : task.duty.node? = some node)
    (work : task.work = some ⟨.done outcome, started⟩) :
    ∃ progress, outcome = .progress progress ∧
      ∀ report, progress = .finished report → report.node = node :=
  (sound.underway _ _ work).progresses takesOver

theorem Task.Goes.at? (goes : task.Goes settings act later) (sound : task.Sound settings allowed) :
    act.Brings task.at? later.at? := by
  cases goes with
  | started work => exact (Task.at?_of_work work).symm
  | replied work reply => exact (Task.at?_of_work work).symm
  | acted work result => exact (Task.at?_of_work work).symm
  | @errandBegun _ _ _ script running idle errands begins =>
      have now : (task.begin script).at? = _ := congrArg Duty.node? (Task.duty_of_errands errands)
      cases begins
      case takeOver node => exact ⟨Task.at?_of_idle idle, now⟩
      all_goals exact now.trans (Task.at?_of_idle idle).symm
  | @errandEnded errand _ _ outcome _ running work errands ends =>
      have duty := Task.duty_of_errands errands
      have before : task.at? = _ := (Task.at?_of_work work).trans (congrArg Duty.node? duty)
      cases ends with
      | lead leader outcome => exact before.symm
      | takeOver node report =>
          obtain ⟨_, same, isOf⟩ := sound.progresses (congrArg Duty.node? duty) work
          exact ⟨before.trans (congrArg some (isOf report (Outcome.progress.inj same).symm).symm), rfl⟩
      | other notLead notProgress =>
          cases errand
          case takeOver node =>
            obtain ⟨progress, same, _⟩ := sound.progresses (congrArg Duty.node? duty) work
            exact absurd same (notProgress node progress rfl)
          all_goals exact before.symm
  | leadSkipped running idle errands => exact (Task.at?_of_idle idle).symm
  | drained workers running idle errands => exact Task.at?_eq_of_idle idle idle
  | awaited running idle errands => exact Task.at?_eq_of_idle idle idle
  | awaitedAll running idle errands => exact (Task.at?_of_idle idle).symm
  | @roleBegun role _ script running idle errands begins =>
      have now : ({ task with role := role }.begin script).at? = role.duty.node? :=
        congrArg Duty.node? (Task.duty_of_none errands)
      have node := begins.node
      generalize task.role = before at begins
      cases begins
      case take => exact ⟨Task.at?_of_idle idle, now⟩
      all_goals exact now.trans (Task.at?_of_idle idle).symm
  | errandRound running work errands unfinished => exact (Task.at?_of_work work).symm
  | workerRound running work errands role unfinished => exact (Task.at?_of_work work).symm
  | @workerFinished _ _ node report _ running work errands role =>
      have duty : task.duty = .work node := by rw [Task.duty_of_none errands, role]; rfl
      obtain ⟨_, same, isOf⟩ := sound.progresses (congrArg Duty.node? duty) work
      refine ⟨?_, rfl⟩
      rw [Task.at?_of_work work, duty, isOf report (Outcome.progress.inj same).symm]
      rfl
  | @workerAstray _ _ node _ _ running work errands role notProgress =>
      have duty : task.duty = .work node := by rw [Task.duty_of_none errands, role]; rfl
      obtain ⟨progress, same, _⟩ := sound.progresses (congrArg Duty.node? duty) work
      exact absurd same (notProgress progress)
  | rested running work errands idle once =>
      rw [Task.at?_of_work work, Task.duty_of_none errands]
      cases role : task.role
      case worker activation holds node =>
        cases node with
        | none => rfl
        | some node => exact absurd role (idle activation holds node)
      all_goals rfl
  | pushed running work errands role =>
      rw [Task.at?_of_work work, Task.duty_of_none errands, role]
      rfl
  | looked running idle errands role => exact Task.at?_eq_of_idle idle idle
  | left running idle errands role => exact Task.at?_eq_of_idle idle idle
  | acquired running idle errands role => exact Task.at?_eq_of_idle idle idle
  | passed later running idle errands role => exact Task.at?_eq_of_idle idle idle
  | closed running idle errands free => exact (Task.at?_of_idle idle).symm
  | released running idle errands role => exact (Task.at?_of_idle idle).symm
  | abandoned role => rfl

/-! ## Holding the queue -/

theorem Task.holds_congr (grips : later.role.grips = task.role.grips) (ended : later.ended = task.ended)
    (same : later.at? = task.at?) : later.holds = task.holds := by
  rw [holds, holds, grips, ended, same]

theorem Task.holds_of_grips (running : task.ended = false) (grips : task.role.grips = true) :
    task.holds = true := by
  rw [holds, running, grips]
  rfl

theorem Task.holds_of_at? (running : task.ended = false) {node : Address} (here : task.at? = some node) :
    task.holds = true := by
  simp [holds, running, here]

theorem Task.not_holds (free : task.role.grips = false) (away : task.at? = none) :
    task.holds = false := by
  simp [holds, free, away]

theorem Role.grips_eq_false {role : Role} (free : ∀ activation node, role ≠ .worker activation true node) :
    role.grips = false := by
  cases role
  case worker activation holds node =>
    cases holds with
    | false => rfl
    | true => exact absurd rfl (free activation node)
  all_goals rfl

theorem Role.grips_of_takesErrands {role : Role} (asked : role.takesErrands ≠ false) :
    role.grips = false := by
  cases role <;> first | rfl | exact absurd rfl asked

/-- How an act changes whether a task holds the queue. With most acts it does as before. -/
def Act.Binds (before after : Bool) : Act → Prop
  | .acquire => before = false ∧ after = true
  | .begin _ => before = false ∧ after = true
  | .finish _ outside => before = true ∧ after = !outside
  | .release => before = true ∧ after = false
  | .abandon => after = false
  | _ => after = before

theorem Task.Goes.holds (goes : task.Goes settings act later) (sound : task.Sound settings allowed) :
    act.Binds task.holds later.holds := by
  have brings := goes.at? sound
  cases goes with
  | started work => exact Task.holds_congr rfl rfl brings
  | replied work reply => exact Task.holds_congr rfl rfl brings
  | acted work result => exact Task.holds_congr rfl rfl brings
  | errandBegun running idle errands begins =>
      have free := Role.grips_of_takesErrands (sound.not_unasked errands)
      cases begins
      case takeOver node => exact ⟨Task.not_holds free brings.1, Task.holds_of_at? running brings.2⟩
      all_goals exact Task.holds_congr rfl rfl brings
  | errandEnded running work errands ends =>
      have free := Role.grips_of_takesErrands (sound.not_unasked errands)
      cases ends with
      | lead leader outcome => exact Task.holds_congr rfl rfl brings
      | takeOver node report => exact ⟨Task.holds_of_at? running brings.1, Task.not_holds free brings.2⟩
      | other _ _ => exact Task.holds_congr rfl rfl brings
  | leadSkipped running idle errands => exact Task.holds_congr rfl rfl brings
  | drained workers running idle errands => exact Task.holds_congr rfl rfl brings
  | awaited running idle errands => exact Task.holds_congr rfl rfl brings
  | awaitedAll running idle errands => exact Task.holds_congr rfl rfl brings
  | roleBegun running idle errands begins =>
      generalize same : task.role = before at begins
      cases begins
      case take activation former node =>
        have before : task.holds = true := Task.holds_of_grips running (by rw [same]; rfl)
        refine Eq.trans ?_ before.symm
        exact Task.holds_of_grips running rfl
      all_goals exact Task.holds_congr (by rw [same]; rfl) rfl brings
  | errandRound running work errands unfinished => exact Task.holds_congr rfl rfl brings
  | workerRound running work errands role unfinished => exact Task.holds_congr rfl rfl brings
  | @workerFinished _ holds node _ _ running work errands role =>
      obtain ⟨_, notHolding⟩ := sound.worker _ _ _ role
      cases holds with
      | false => cases notHolding rfl
      | true => exact ⟨Task.holds_of_at? running brings.1, Task.holds_of_grips running rfl⟩
  | @workerAstray _ holds _ _ _ running work errands role notProgress =>
      exact Task.holds_congr (by rw [role]; cases holds <;> rfl) rfl brings
  | rested running work errands idle once => exact Task.holds_congr rfl rfl brings
  | pushed running work errands role =>
      exact (Task.not_holds (by rw [role]; rfl) brings.symm).symm
  | looked running idle errands role => exact Task.holds_congr (by rw [role]; rfl) rfl brings
  | left running idle errands role => exact Task.holds_congr (by rw [role]; rfl) rfl brings
  | acquired running idle errands role =>
      exact ⟨Task.not_holds (by rw [role]; rfl) (Task.at?_of_idle idle),
        Task.holds_of_grips running rfl⟩
  | passed later running idle errands role => exact Task.holds_congr (by rw [role]; rfl) rfl brings
  | closed running idle errands free =>
      exact (Task.not_holds (Role.grips_eq_false free) (Task.at?_of_idle idle)).symm
  | released running idle errands role => exact ⟨Task.holds_of_grips running (by rw [role]; rfl), rfl⟩
  | abandoned role => rfl

end Goes

/-! ## The law of the holder -/

theorem Role.Told.grips {role after : Role} (told : role.Told after) : after.grips = role.grips := by
  cases told <;> rfl

theorem Task.duty_told {task : Task} {role : Role} (told : task.role.Told role) :
    Task.duty { task with role := role } = task.duty := by
  simp only [Task.duty, told.duty]

theorem Task.at?_told {task : Task} {role : Role} (told : task.role.Told role) :
    Task.at? { task with role := role } = task.at? := by
  simp only [Task.at?, Task.duty_told told]

theorem Task.sight_at? : Task.Sight Task.at? none where
  outside := fun _ => rfl
  raised := fun _ => rfl
  told := Task.at?_told
  closed := fun _ => rfl

theorem Task.sight_holds : Task.Sight Task.holds false where
  outside := by rintro _ _ (_ | _ | _ | _) <;> rfl
  raised := by rintro _ _ _ (_ | _ | _) <;> rfl
  told := fun told => Task.holds_congr told.grips rfl (Task.at?_told told)
  closed := fun _ => rfl

/-- A checker is at no takeover, and holds nothing. -/
theorem Task.Sound.of_checks {settings : Settings} {allowed : Act → Prop} {task : Task}
    (sound : task.Sound settings allowed) (checks : task.role.Checks) :
    task.at? = none ∧ task.holds = false := by
  obtain ⟨activation, due, role⟩ := checks
  have away : task.at? = none := by
    have errands := sound.unasked (by rw [role]; rfl)
    cases work : task.work with
    | none => exact Task.at?_of_idle work
    | some busy => rw [Task.at?_of_work work, Task.duty_of_none errands, role]; rfl
  exact ⟨away, Task.not_holds (by rw [role]; rfl) away⟩

/-- Nobody else touches a task at a takeover, but it may be told something. -/
theorem Happens.still_at {state next : State} {event : Event} {allowed : Act → Prop} {id : TaskId}
    {task : Task} {node : Address} (happens : Happens state event next) (sound : state.Sound allowed)
    (found : state.task? id = some task) (here : task.at? = some node) (away : event.mover ≠ some id) :
    ∃ later, next.task? id = some later ∧ later.at? = some node ∧ later.work = task.work := by
  have apart : ¬ task.role.Checks := by
    intro checks
    cases ((sound.tasks found).of_checks checks).1.symm.trans here
  obtain ⟨role, still, rfl | told⟩ := happens.still sound found away apart
  · exact ⟨task, still, here, rfl⟩
  · exact ⟨_, still, (Task.at?_told told).trans here, rfl⟩

namespace State

/-- The holder of the queue, if there is one, is the one task that holds it. -/
def Held (state : State) : Prop :=
  ∀ id, state.holder = some id ↔ state.look Task.holds false id = true

end State

/-- An act keeps the law. The holder comes free before anyone gets hold of the queue. -/
theorem Act.holder_iff {act : Act} {id : TaskId} {before : Option TaskId} {holding : TaskId → Bool}
    {late : Bool} (held : ∀ other, before = some other ↔ holding other = true)
    (binds : act.Binds (holding id) late)
    (free : act = .acquire ∨ (∃ node, act = .begin node) → before = none) (other : TaskId) :
    act.holder id before = some other ↔ (if id = other then late else holding other) = true := by
  have same : late = holding id → (before = some other ↔
      (if id = other then late else holding other) = true) := by
    rintro rfl
    split
    case isTrue self => exact self ▸ held id
    case isFalse => exact held other
  have acquires : before = none → holding id = false → late = true →
      (some id = some other ↔ (if id = other then late else holding other) = true) := by
    rintro rfl _ rfl
    split
    case isTrue self => simp [self]
    case isFalse apart => simpa [apart] using held other
  have releases : holding id = true → late = false →
      ((none : Option TaskId) = some other ↔ (if id = other then late else holding other) = true) := by
    rintro holds rfl
    split
    case isTrue => simp
    case isFalse apart =>
      have holder := (held id).2 holds
      have notHolding := mt (held other).2
      simp_all
  cases act
  case acquire => exact acquires (free (.inl rfl)) binds.1 binds.2
  case begin node => exact acquires (free (.inr ⟨node, rfl⟩)) binds.1 binds.2
  case finish report outside =>
    cases outside with
    | true => exact releases binds.1 binds.2
    | false => exact same (binds.2.trans binds.1.symm)
  case release => exact releases binds.1 binds.2
  case abandon =>
    obtain rfl : late = false := binds
    cases holds : holding id with
    | true =>
        have holder := (held id).2 holds
        simpa [Act.holder, holder] using releases holds rfl
    | false =>
        have notHolder := mt (held id).1 (by simp [holds])
        simpa [Act.holder, notHolder] using same holds.symm
  all_goals exact same binds

open State in
theorem Happens.held {state next : State} {event : Event} {allowed : Act → Prop}
    (happens : Happens state event next) (sound : state.Sound allowed) (held : state.Held) :
    next.Held := by
  intro other
  cases happens with
  | spawned _ outside =>
      rw [look_spawn Task.sight_holds outside]
      exact held other
  | told _ found told =>
      rw [look_told Task.sight_holds found told]
      exact held other
  | @moved _ id before later act shared found goes takes =>
      rw [takes.look Task.sight_holds (fun _ _ active known =>
        ((sound.tasks known).of_checks (sound.checks active known)).2) found]
      have seen : state.look Task.holds false id = before.holds := look_of_found found
      have binds := seen ▸ goes.holds (sound.tasks found)
      refine Iff.trans (by rw [← takes.holder]; rfl) (Act.holder_iff held binds ?_ other)
      rintro (rfl | ⟨node, rfl⟩)
      · cases takes; assumption
      · cases takes; assumption
  | passed millis => exact held other
  | written entry wall => exact held other

namespace State

variable {start state : State} {events : List Event} {settings : Settings} {world : World}

theorem run_held (sound : start.Sound fun _ => True) (held : start.Held)
    (run : start.run events = some state) : state.Sound (fun _ => True) ∧ state.Held := by
  have along : start.Along (fun _ _ => True) events := along_of_forall fun _ _ => trivial
  refine run_induction (motive := fun _ state => state.Sound (fun _ => True) ∧ state.Held)
    ⟨sound, held⟩ ?_ along run
  rintro _ event state next - - - stepped ⟨sound, held⟩
  exact ⟨(State.happens stepped).sound heeds_any sound, (State.happens stepped).held sound held⟩

theorem initial_held (settings : Settings) (world : World) :
    (initial settings world).Sound (fun _ => True) ∧ (initial settings world).Held :=
  ⟨⟨initial_grouped _ _, fun found => by simp [task?, initial] at found⟩,
    by simp [Held, initial, look, task?]⟩

end State

end Handover.Coordinator
