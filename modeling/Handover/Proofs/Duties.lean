import Handover.Proofs.Runs

/-!
Contract: what the scripts are that tasks have under way.

Owns: the duty that a task is at, the scripts that can be under way for a duty, and the
law that on every run each task has under way only a script for its duty.

A property of all scripts of a duty is proved by induction on how they come to be under
way: it holds of the script that the duty begins with, and no reply, no result of an
effect and no further round takes it away.
-/

set_option autoImplicit false

namespace Handover.Coordinator

open Takeover (Progress)

/-! ## Duties -/

/-- What a task is at. -/
inductive Duty where
  /-- The task has no script for what it is at. -/
  | idle
  | report (text : String)
  | lead (leader : Bool)
  | takeOver (node : Address)
  | recordFailure (jobId detail : String)
  | check (timeoutMillis : Nat) (now : Time.Instant)
  | trigger
  /-- Takes over the work of a node that was taken from the queue. -/
  | work (node : Address)
  | build
  | push (node : Address)
  | monitor (timeoutMillis : Nat)
  | beat (node : Address)
deriving DecidableEq

def Errand.duty : Errand → Duty
  | .report text => .report text
  | .lead leader => .lead leader
  | .drain => .idle
  | .await _ => .idle
  | .takeOver node => .takeOver node
  | .recordFailure jobId detail => .recordFailure jobId detail
  | .check timeoutMillis now => .check timeoutMillis now
  | .trigger => .trigger

def Role.duty : Role → Duty
  | .worker _ _ (some node) => .work node
  | .checker _ _ => .build
  | .retry _ node _ => .push node
  | .monitor own _ _ => .monitor own.timeoutMillis
  | .beat node _ _ _ => .beat node
  | _ => .idle

/-- The first errand of a task goes before its role. -/
def Task.duty (task : Task) : Duty :=
  match task.errands with
  | errand :: _ => errand.duty
  | [] => task.role.duty

theorem Task.duty_of_errands {task : Task} {errand : Errand} {rest : List Errand}
    (errands : task.errands = errand :: rest) : task.duty = errand.duty := by
  rw [duty, errands]

theorem Task.duty_of_none {task : Task} (errands : task.errands = []) : task.duty = task.role.duty := by
  rw [duty, errands]

namespace Duty

/-- The script that a duty begins with. -/
def script (settings : Settings) : Duty → Script Outcome
  | .idle => return .nothing
  | .report text => submitScript text
  | .lead leader => toggleScript leader
  | .takeOver node => roundOf settings node .opening
  | .recordFailure jobId detail => failureScript jobId detail
  | .check timeoutMillis now => checkScript timeoutMillis now
  | .trigger => triggerScript
  | .work node => takenScript settings node
  | .build => buildScript
  | .push node => pushScript node
  | .monitor timeoutMillis => monitorScript timeoutMillis
  | .beat node => beatScript node

/-- The node whose work is taken over. -/
def node? : Duty → Option Address
  | .takeOver node => some node
  | .work node => some node
  | _ => none

/-- The script can be under way for the duty when only allowed acts happen. -/
inductive Underway (settings : Settings) (allowed : Act → Prop) (duty : Duty) : Script Outcome → Prop
  | begun : Underway settings allowed duty (duty.script settings)
  | replied {request : Call} {next : request.Reply → Script Outcome} (reply : request.Reply)
      (may : allowed (.reply request reply))
      (before : Underway settings allowed duty (.call request next)) :
      Underway settings allowed duty (next reply)
  | acted {deed : Effect} {next : deed.Result → Script Outcome} (result : deed.Result)
      (may : allowed (.deed deed result))
      (before : Underway settings allowed duty (.effect deed next)) :
      Underway settings allowed duty (next result)
  | round {node : Address} {progress : Progress} (takesOver : duty.node? = some node)
      (unfinished : ∀ report, progress ≠ .finished report)
      (before : Underway settings allowed duty (.done (.progress progress))) :
      Underway settings allowed duty (roundOf settings node progress)

/-- More scripts can be under way when more is allowed. -/
theorem Underway.mono {settings : Settings} {allowed wider : Act → Prop} {duty : Duty} {script : Script Outcome}
    (underway : duty.Underway settings allowed script)
    (more : ∀ act, act ≠ .abandon → allowed act → wider act) : duty.Underway settings wider script := by
  induction underway with
  | begun => exact .begun
  | replied reply may _ inductionHypothesis => exact .replied reply (more _ nofun may) inductionHypothesis
  | acted result may _ inductionHypothesis => exact .acted result (more _ nofun may) inductionHypothesis
  | round takesOver unfinished _ inductionHypothesis => exact .round takesOver unfinished inductionHypothesis

end Duty

/-! ## The law -/

/-- Whether others ask things of a task in such a role. -/
def Role.takesErrands : Role → Bool
  | .caller => true
  | .watcher _ _ => true
  | _ => false

/-- What every task is like at any time, when only allowed acts happen. -/
structure Task.Sound (settings : Settings) (allowed : Act → Prop) (task : Task) : Prop where
  rests : task.ended = true → task.work = none
  unasked : task.role.takesErrands = false → task.errands = []
  /-- A worker is at a node just while it has a script, and then it holds the queue. -/
  worker : ∀ activation holds node, task.role = .worker activation holds node →
    node.isSome = task.work.isSome ∧ (holds = false → node = none)
  underway : ∀ script started, task.work = some ⟨script, started⟩ →
    task.duty.Underway settings allowed script

section Sound

variable {settings : Settings} {allowed : Act → Prop} {task later : Task} {act : Act}

theorem Errand.Begins.script {errand : Errand} {script : Script Outcome}
    (begins : errand.Begins settings act script) : script = errand.duty.script settings := by
  cases begins <;> rfl

theorem Role.Begins.script {role after : Role} {script : Script Outcome}
    (begins : role.Begins settings after act script) : script = after.duty.script settings := by
  cases begins <;> rfl

theorem Role.Told.duty {role after : Role} (told : role.Told after) : after.duty = role.duty := by
  cases told <;> rfl

/-- A task that was only told something is at what it was at. -/
theorem Task.duty_of_same {task later : Task} (errands : later.errands = task.errands)
    (role : later.role = task.role ∨ task.role.Told later.role) : later.duty = task.duty := by
  unfold Task.duty
  rw [errands]
  rcases role with same | told
  · rw [same]
  · rw [told.duty]

theorem Role.Told.takesErrands {role after : Role} (told : role.Told after) :
    after.takesErrands = role.takesErrands := by
  cases told <;> rfl

namespace Task.Sound

theorem fresh {role : Role} {errands : List Errand} (unasked : role.takesErrands = false → errands = [])
    (away : ∀ activation holds node, role = .worker activation holds node → node = none) :
    (Task.fresh role errands).Sound settings allowed where
  rests := nofun
  unasked := unasked
  worker := by
    intro activation holds node same
    rw [away activation holds node same]
    exact ⟨rfl, fun _ => rfl⟩
  underway := nofun

/-- A task that has no script any more. -/
theorem idle {after : Task} (none : after.work = none)
    (unasked : after.role.takesErrands = false → after.errands = [])
    (away : ∀ activation holds node, after.role = .worker activation holds node → node = Option.none) :
    after.Sound settings allowed where
  rests := fun _ => none
  unasked := unasked
  worker := by
    intro activation holds node same
    rw [away activation holds node same, none]
    exact ⟨rfl, fun _ => rfl⟩
  underway := by
    intro script started work
    cases none.symm.trans work

/-- A task without a script is at no node. -/
theorem away (sound : task.Sound settings allowed) (none : task.work = Option.none)
    (activation : Nat) (holds : Bool) (node : Option Address)
    (same : task.role = .worker activation holds node) : node = Option.none := by
  have known := (sound.worker _ _ _ same).1
  rw [none] at known
  simpa using known

theorem not_unasked (sound : task.Sound settings allowed) {errand : Errand} {rest : List Errand}
    (errands : task.errands = errand :: rest) : task.role.takesErrands ≠ false := by
  intro unasked
  cases (sound.unasked unasked).symm.trans errands

/-- A task that goes on with its script. -/
theorem begin (sound : task.Sound settings allowed) {script before : Script Outcome} {started : Bool}
    (work : task.work = some ⟨before, started⟩) (running : task.ended = false)
    (underway : task.duty.Underway settings allowed script) :
    (task.begin script).Sound settings allowed where
  rests := fun ended => absurd (running.symm.trans ended) nofun
  unasked := sound.unasked
  worker := by
    intro activation holds node same
    have known := sound.worker activation holds node same
    rw [work] at known
    exact known
  underway := by
    intro _ _ same
    cases same
    exact underway

/-- A task that has something under way is not over. -/
theorem running (sound : task.Sound settings allowed) {work : Work} (busy : task.work = some work) :
    task.ended = false := by
  cases ended : task.ended with
  | false => rfl
  | true => cases (sound.rests ended).symm.trans busy

theorem goes (sound : task.Sound settings allowed) (may : allowed act)
    (goes : task.Goes settings act later) : later.Sound settings allowed := by
  cases goes with
  | @started request next work =>
      refine ⟨fun ended => ?_, sound.unasked, fun activation holds node same => ?_, ?_⟩
      · cases (sound.running work).symm.trans ended
      · have known := sound.worker activation holds node same
        rw [work] at known
        exact known
      · intro _ _ same
        cases same
        exact sound.underway _ _ work
  | replied work reply =>
      exact sound.begin work (sound.running work) (.replied reply may (sound.underway _ _ work))
  | acted work result =>
      exact sound.begin work (sound.running work) (.acted result may (sound.underway _ _ work))
  | errandBegun running idle errands begins =>
      refine ⟨fun ended => ?_, sound.unasked, fun activation holds node same => ?_, ?_⟩
      · cases running.symm.trans ended
      · exact (sound.not_unasked errands (congrArg Role.takesErrands same)).elim
      · intro _ _ same
        cases same
        rw [begins.script]
        exact Task.duty_of_errands errands ▸ .begun
  | errandEnded running work errands ends =>
      refine .idle rfl (fun unasked => (sound.not_unasked errands unasked).elim) fun _ _ _ same => ?_
      exact (sound.not_unasked errands (congrArg Role.takesErrands same)).elim
  | leadSkipped running idle errands =>
      exact .idle rfl (fun unasked => (sound.not_unasked errands unasked).elim) (sound.away idle)
  | drained workers running idle errands =>
      exact .idle idle (fun unasked => (sound.not_unasked errands unasked).elim) (sound.away idle)
  | awaited running idle errands =>
      exact .idle idle (fun unasked => (sound.not_unasked errands unasked).elim) (sound.away idle)
  | awaitedAll running idle errands =>
      exact .idle rfl (fun unasked => (sound.not_unasked errands unasked).elim) (sound.away idle)
  | @roleBegun role _ _ running idle errands begins =>
      have duty : Task.duty { task with role := role } = role.duty := Task.duty_of_none errands
      refine ⟨fun ended => ?_, fun _ => errands, fun activation holds node same => ?_, ?_⟩
      · cases running.symm.trans ended
      · obtain rfl : role = _ := same
        generalize task.role = before at begins
        cases begins
        exact ⟨rfl, nofun⟩
      · intro _ _ same
        cases same
        rw [begins.script, ← duty]
        exact .begun
  | errandRound running work errands unfinished =>
      refine sound.begin work running (.round ?_ unfinished (sound.underway _ _ work))
      rw [Task.duty_of_errands errands]
      rfl
  | workerRound running work errands role unfinished =>
      refine sound.begin work running (.round ?_ unfinished (sound.underway _ _ work))
      rw [Task.duty_of_none errands, role]
      rfl
  | workerFinished running work errands role =>
      exact .idle rfl (fun _ => errands) fun _ _ _ same => (Role.worker.inj same).2.2.symm
  | workerAstray running work errands role _ =>
      exact .idle rfl (fun _ => errands) fun _ _ _ same => (Role.worker.inj same).2.2.symm
  | rested running work errands idle once =>
      refine .idle rfl (fun _ => errands) fun activation holds node same => ?_
      cases node with
      | none => rfl
      | some node => exact absurd same (idle activation holds node)
  | pushed running work errands role =>
      exact .idle rfl (fun _ => rfl) fun _ _ _ same => nomatch role.symm.trans same
  | looked running idle errands role => exact .idle idle nofun nofun
  | left running idle errands role => exact .idle idle nofun nofun
  | acquired running idle errands role =>
      exact .idle idle (fun _ => errands) fun _ _ _ same => (Role.worker.inj same).2.2.symm
  | passed later running idle errands role => exact .idle idle (fun _ => errands) nofun
  | closed running idle errands free => exact .idle rfl (fun _ => rfl) (sound.away idle)
  | released running idle errands role => exact .idle rfl (fun _ => rfl) (sound.away idle)
  | abandoned role =>
      exact .idle rfl (fun _ => rfl) fun _ _ _ same => nomatch role.symm.trans same

end Task.Sound

theorem Task.sound_lasts (settings : Settings) (allowed : Act → Prop) :
    Task.Lasts settings allowed (Task.Sound settings allowed) where
  outside := by
    rintro _ _ (_ | _ | _ | _)
    · exact .fresh nofun nofun
    · exact .fresh (fun _ => rfl) nofun
    · exact .fresh (fun _ => rfl) nofun
    · exact .fresh (fun _ => rfl) nofun
  raised := by
    rintro _ _ _ (_ | _ | _)
    · exact .fresh (fun _ => rfl) fun _ _ _ same => (Role.worker.inj same).2.2.symm
    · exact .fresh (fun _ => rfl) nofun
    · exact .fresh (fun _ => rfl) nofun
  told := by
    intro task role told sound
    have duty : Task.duty { task with role := role } = task.duty := by
      simp only [Task.duty, told.duty]
    refine ⟨sound.rests, fun unasked => sound.unasked (told.takesErrands ▸ unasked), fun _ _ _ same => ?_,
      fun script started work => duty ▸ sound.underway script started work⟩
    obtain rfl : role = _ := same
    generalize task.role = before at told
    cases told
  goes := fun may goes sound => sound.goes may goes
  cut := by
    rintro task ⟨_, _, checks⟩ sound
    exact .idle rfl (fun _ => rfl) fun _ _ _ same => nomatch checks.symm.trans same

end Sound

namespace State

/-- What every state is like that a run comes to, when only allowed acts happen. -/
structure Sound (allowed : Act → Prop) (state : State) : Prop where
  grouped : state.Grouped
  tasks : ∀ {id task}, state.task? id = some task → task.Sound state.settings allowed

/-- Whether callers are given up on is nothing that scripts depend on. -/
theorem Sound.mono {allowed wider : Act → Prop} {state : State} (sound : state.Sound allowed)
    (more : ∀ act, act ≠ .abandon → allowed act → wider act) : state.Sound wider where
  grouped := sound.grouped
  tasks := fun found =>
    let own := sound.tasks found
    ⟨own.rests, own.unasked, own.worker, fun script started work => (own.underway script started work).mono more⟩

theorem Sound.checks {allowed : Act → Prop} {state : State} (sound : state.Sound allowed) {group : Group}
    {checker : Task} (active : state.group = some group)
    (found : state.task? group.checker = some checker) : checker.role.Checks := by
  obtain ⟨_, known, checks⟩ := sound.grouped group active
  cases found.symm.trans known
  exact checks

end State

open State in
/-- Nobody else touches a task that is no checker, but it may be told something. -/
theorem Happens.still {state next : State} {event : Event} {allowed : Act → Prop} {id : TaskId}
    {task : Task} (happens : Happens state event next) (sound : state.Sound allowed)
    (found : state.task? id = some task) (away : event.mover ≠ some id) (apart : ¬ task.role.Checks) :
    ∃ role, next.task? id = some { task with role := role } ∧ (role = task.role ∨ task.role.Told role) := by
  cases happens with
  | spawned _ outside => exact ⟨task.role, task?_spawn found, .inl rfl⟩
  | @told _ other before role _ there told =>
      by_cases self : other = id
      · subst self
        cases there.symm.trans found
        exact ⟨role, task?_setTask_of_found found, .inr told⟩
      · exact ⟨task.role, (task?_setTask_ne self).trans found, .inl rfl⟩
  | @moved _ other before later act shared there goes takes =>
      refine ⟨task.role, ?_, .inl rfl⟩
      rw [task?_setTask_ne (by rintro rfl; exact away takes.mover)]
      rcases takes.task? found with same | ⟨_, _, group, active, rfl⟩
      · exact same
      · exact absurd (sound.checks active found) apart
  | passed millis => exact ⟨task.role, found, .inl rfl⟩
  | written entry wall => exact ⟨task.role, found, .inl rfl⟩

open State in
theorem Happens.sound {state next : State} {event : Event} {allowed : Act → Prop}
    (happens : Happens state event next) (heeds : state.Heeds allowed event)
    (sound : state.Sound allowed) : next.Sound allowed where
  grouped := happens.grouped sound.grouped
  tasks := by
    rw [happens.settings]
    exact happens.tasks (Task.sound_lasts _ _) heeds sound.grouped (fun _ _ => sound.tasks) _ _

theorem State.run_sound {settings : Settings} {world : World} {allowed : Act → Prop}
    {events : List Event} {state : State}
    (along : (initial settings world).Along (Heeds allowed) events)
    (run : (initial settings world).run events = some state) :
    state.settings = settings ∧ state.Sound allowed := by
  obtain ⟨rfl, grouped, sound⟩ := run_lasts (Task.sound_lasts settings allowed) along run
  exact ⟨rfl, grouped, fun found => sound _ _ found⟩

end Handover.Coordinator
