import Handover.Coordinator.Step

/-!
Contract: what one event can do to a node.

Owns: the acts by which a task touches what it shares with the other tasks, how a task
changes with each act, what the node makes of it, and the law that every event is one of
these: something new comes up, a task is told something, a task moves, time passes, or
another actor writes.

A fact about single tasks goes by how tasks change, whatever becomes of the rest. A fact
about what tasks share goes by the acts, whatever the tasks are for.
-/

set_option autoImplicit false

namespace Handover.Coordinator

open Takeover (Progress Report)

/-- What a task does to the things that all tasks share. -/
inductive Act where
  /-- Only the task itself changes. -/
  | quiet
  | call (request : Call)
  | reply (request : Call) (reply : request.Reply)
  | deed (deed : Effect) (result : deed.Result)
  /-- The mode is to be changed. -/
  | changeBegin (leader : Bool)
  | changeEnd (leader : Bool)
  /-- The mode is as it should be. -/
  | changeNone (leader : Bool)
  | drain (workers : List TaskId)
  /-- A worker gets hold of the queue. -/
  | acquire
  /-- The worker that holds the queue takes a report from it. -/
  | take (node : Address)
  /-- A takeover begins that was asked for from outside. -/
  | begin (node : Address)
  /-- A takeover is finished, and one from outside lets go of the queue. -/
  | finish (report : Report) (outside : Bool)
  /-- A worker lets go of the queue. -/
  | release
  | abandon

/-! ## How tasks change -/

/-- The script of an errand, and the act with which it begins. -/
inductive Errand.Begins (settings : Settings) : Errand → Act → Script Outcome → Prop
  | report (text : String) : Begins settings (.report text) .quiet (submitScript text)
  | lead (leader : Bool) : Begins settings (.lead leader) (.changeBegin leader) (toggleScript leader)
  | takeOver (node : Address) :
      Begins settings (.takeOver node) (.begin node) (roundOf settings node .opening)
  | recordFailure (jobId detail : String) :
      Begins settings (.recordFailure jobId detail) .quiet (failureScript jobId detail)
  | check (timeoutMillis : Nat) (now : Time.Instant) :
      Begins settings (.check timeoutMillis now) .quiet (checkScript timeoutMillis now)
  | trigger : Begins settings .trigger .quiet triggerScript

/-- The act with which an errand ends. -/
inductive Errand.Ends : Errand → Outcome → Act → Prop
  | lead (leader : Bool) (outcome : Outcome) : Ends (.lead leader) outcome (.changeEnd leader)
  | takeOver (node : Address) (report : Report) :
      Ends (.takeOver node) (.progress (.finished report)) (.finish report true)
  | other {errand : Errand} {outcome : Outcome} (notLead : ∀ leader, errand ≠ .lead leader)
      (notProgress : ∀ node progress, errand = .takeOver node → outcome ≠ .progress progress) :
      Ends errand outcome .quiet

/-- The script that a task begins by its role, the role it has then, and the act. -/
inductive Role.Begins (settings : Settings) : Role → Role → Act → Script Outcome → Prop
  | take (activation : Nat) (former : Option Address) (node : Address) :
      Begins settings (.worker activation true former) (.worker activation true (some node))
        (.take node) (takenScript settings node)
  | build (activation due later : Nat) :
      Begins settings (.checker activation due) (.checker activation later) .quiet buildScript
  | push (activation : Nat) (node : Address) (due : Nat) :
      Begins settings (.retry activation node due) (.retry activation node due) .quiet
        (pushScript node)
  | monitor (own : MonitorSettings) (due later : Nat) (stopped : Bool) :
      Begins settings (.monitor own due stopped) (.monitor own later stopped) .quiet
        (monitorScript own.timeoutMillis)
  | beat (node : Address) (interval due later : Nat) (stopped : Bool) :
      Begins settings (.beat node interval due stopped) (.beat node interval later stopped) .quiet
        (beatScript node)

/-- How a task changes when it moves. -/
inductive Task.Goes (settings : Settings) (task : Task) : Act → Task → Prop
  | started {request : Call} {next : request.Reply → Script Outcome}
      (work : task.work = some ⟨.call request next, false⟩) :
      Goes settings task (.call request) { task with work := some ⟨.call request next, true⟩ }
  | replied {request : Call} {next : request.Reply → Script Outcome}
      (work : task.work = some ⟨.call request next, true⟩) (reply : request.Reply) :
      Goes settings task (.reply request reply) (task.begin (next reply))
  | acted {deed : Effect} {next : deed.Result → Script Outcome} {started : Bool}
      (work : task.work = some ⟨.effect deed next, started⟩) (result : deed.Result) :
      Goes settings task (.deed deed result) (task.begin (next result))
  | errandBegun {errand : Errand} {rest : List Errand} {act : Act} {script : Script Outcome}
      (running : task.ended = false) (idle : task.work = none)
      (errands : task.errands = errand :: rest) (begins : errand.Begins settings act script) :
      Goes settings task act (task.begin script)
  | errandEnded {errand : Errand} {rest : List Errand} {act : Act} {outcome : Outcome}
      {started : Bool} (running : task.ended = false)
      (work : task.work = some ⟨.done outcome, started⟩) (errands : task.errands = errand :: rest)
      (ends : errand.Ends outcome act) : Goes settings task act (task.completed outcome)
  /-- The mode is as it should be, so there is nothing to change. -/
  | leadSkipped {leader : Bool} {rest : List Errand} (running : task.ended = false)
      (idle : task.work = none) (errands : task.errands = .lead leader :: rest) :
      Goes settings task (.changeNone leader) (task.completed .nothing)
  | drained {rest : List Errand} (workers : List TaskId) (running : task.ended = false)
      (idle : task.work = none) (errands : task.errands = .drain :: rest) :
      Goes settings task (.drain workers) { task with errands := .await workers :: rest }
  | awaited {worker : TaskId} {workers : List TaskId} {rest : List Errand}
      (running : task.ended = false) (idle : task.work = none)
      (errands : task.errands = .await (worker :: workers) :: rest) :
      Goes settings task .quiet { task with errands := .await workers :: rest }
  | awaitedAll {rest : List Errand} (running : task.ended = false) (idle : task.work = none)
      (errands : task.errands = .await [] :: rest) :
      Goes settings task .quiet (task.completed .nothing)
  | roleBegun {role : Role} {act : Act} {script : Script Outcome} (running : task.ended = false)
      (idle : task.work = none) (errands : task.errands = [])
      (begins : task.role.Begins settings role act script) :
      Goes settings task act ({ task with role := role }.begin script)
  /-- A takeover goes on with its next round. -/
  | errandRound {node : Address} {progress : Progress} {rest : List Errand} {started : Bool}
      (running : task.ended = false) (work : task.work = some ⟨.done (.progress progress), started⟩)
      (errands : task.errands = .takeOver node :: rest)
      (unfinished : ∀ report, progress ≠ .finished report) :
      Goes settings task .quiet (task.begin (roundOf settings node progress))
  | workerRound {activation : Nat} {holds : Bool} {node : Address} {progress : Progress}
      {started : Bool} (running : task.ended = false)
      (work : task.work = some ⟨.done (.progress progress), started⟩) (errands : task.errands = [])
      (role : task.role = .worker activation holds (some node))
      (unfinished : ∀ report, progress ≠ .finished report) :
      Goes settings task .quiet (task.begin (roundOf settings node progress))
  | workerFinished {activation : Nat} {holds : Bool} {node : Address} {report : Report}
      {started : Bool} (running : task.ended = false)
      (work : task.work = some ⟨.done (.progress (.finished report)), started⟩)
      (errands : task.errands = []) (role : task.role = .worker activation holds (some node)) :
      Goes settings task (.finish report false)
        { task with work := none, role := .worker activation holds none }
  /-- A worker's script ends with something else than a progress. No script of a worker does. -/
  | workerAstray {activation : Nat} {holds : Bool} {node : Address} {outcome : Outcome}
      {started : Bool} (running : task.ended = false)
      (work : task.work = some ⟨.done outcome, started⟩)
      (errands : task.errands = []) (role : task.role = .worker activation holds (some node))
      (notProgress : ∀ progress, outcome ≠ .progress progress) :
      Goes settings task .quiet { task with work := none, role := .worker activation holds none }
  | rested {outcome : Outcome} {started : Bool} (running : task.ended = false)
      (work : task.work = some ⟨.done outcome, started⟩) (errands : task.errands = [])
      (idle : ∀ activation holds node, task.role ≠ .worker activation holds (some node))
      (once : ∀ activation node due, task.role ≠ .retry activation node due) :
      Goes settings task .quiet { task with work := none }
  | pushed {activation : Nat} {node : Address} {due : Nat} {outcome : Outcome} {started : Bool}
      (running : task.ended = false) (work : task.work = some ⟨.done outcome, started⟩)
      (errands : task.errands = []) (role : task.role = .retry activation node due) :
      Goes settings task .quiet task.close
  | looked {feed : Feed} (running : task.ended = false) (idle : task.work = none)
      (errands : task.errands = []) (role : task.role = .watcher feed false) :
      Goes settings task .quiet
        { task with role := .watcher feed.look false, errands := [.lead feed.leader] }
  | left {feed : Feed} (running : task.ended = false) (idle : task.work = none)
      (errands : task.errands = []) (role : task.role = .watcher feed false) :
      Goes settings task .quiet
        { task with role := .watcher feed true, errands := Errand.shutdown }
  | acquired {activation : Nat} {node : Option Address} (running : task.ended = false)
      (idle : task.work = none) (errands : task.errands = [])
      (role : task.role = .worker activation false node) :
      Goes settings task .acquire { task with role := .worker activation true none }
  /-- A monitor lets a check pass while the coordinator is on standby. -/
  | passed {own : MonitorSettings} {due : Nat} (later : Nat) {stopped : Bool}
      (running : task.ended = false) (idle : task.work = none) (errands : task.errands = [])
      (role : task.role = .monitor own due stopped) :
      Goes settings task .quiet { task with role := .monitor own later stopped }
  | closed (running : task.ended = false) (idle : task.work = none) (errands : task.errands = [])
      (free : ∀ activation node, task.role ≠ .worker activation true node) :
      Goes settings task .quiet task.close
  | released {activation : Nat} {node : Option Address} (running : task.ended = false)
      (idle : task.work = none) (errands : task.errands = [])
      (role : task.role = .worker activation true node) : Goes settings task .release task.close
  | abandoned (role : task.role = .caller) : Goes settings task .abandon task.close

/-- A task with an effect ahead has it, unless it is given up on. -/
theorem Task.Goes.of_effect {settings : Settings} {task later : Task} {act : Act} {deed : Effect}
    {next : deed.Result → Script Outcome} {started : Bool} (goes : task.Goes settings act later)
    (notAbandon : act ≠ .abandon) (work : task.work = some ⟨.effect deed next, started⟩) :
    ∃ result, act = .deed deed result ∧ later = task.begin (next result) := by
  cases goes
  case acted same result =>
    cases same.symm.trans work
    exact ⟨result, rfl, rfl⟩
  case abandoned => exact absurd rfl notAbandon
  all_goals simp_all

/-! ## What becomes of the rest -/

/-- The node when the task `id` does something with an event. The task itself is as before. -/
inductive State.Takes (state : State) (id : TaskId) : Event → Act → State → Prop
  | quiet {event : Event} (own : event = .proceed id ∨ event = .quit id) :
      Takes state id event .quiet state
  | call (request : Call) : Takes state id (.start id) (.call request) (state.note (.called id request))
  | reply (request : Call) (shares : Option Shares) (refused : Option String) :
      Takes state id (.answer id shares refused)
        (.reply request (state.world.reply (.answering shares) request refused).1)
        { state with world := (state.world.reply (.answering shares) request refused).2 }
  | deed {deed : Effect} {result : deed.Result} {after : State} (wall : Time.Instant) (draw : Nat)
      (happened : state.afterEffect wall draw deed = some (result, after)) :
      Takes state id (.effect id wall draw) (.deed deed result) after
  | changeBegin (leader : Bool) (still : state.changing = none)
      (differs : leader ≠ (state.mode == .active)) :
      Takes state id (.proceed id) (.changeBegin leader) { state.prune with changing := some id }
  | changeEnd (leader : Bool) :
      Takes state id (.proceed id) (.changeEnd leader)
        { state.changeMode leader with changing := none }
  | changeNone (leader : Bool) (still : state.changing = none)
      (same : leader = (state.mode == .active)) :
      Takes state id (.proceed id) (.changeNone leader) state.prune
  | drain (still : state.changing = none) :
      Takes state id (.proceed id) (.drain state.draining) { state with draining := [] }
  | acquire (free : state.holder = none) :
      Takes state id (.proceed id) .acquire { state with holder := some id }
  | take {node : Address} {rest : List Address} (active : state.group.isSome = true)
      (first : state.queue = node :: rest) :
      Takes state id (.proceed id) (.take node)
        (({ state with queue := rest }.note (.taken id node)).note (.began id node))
  | begin (node : Address) (free : state.holder = none) :
      Takes state id (.proceed id) (.begin node)
        ({ state with holder := some id }.note (.began id node))
  | finish (report : Report) (outside : Bool) :
      Takes state id (.proceed id) (.finish report outside)
        ({ state with holder := if outside then none else state.holder }.note (.finished id report))
  | release : Takes state id (.quit id) .release { state with holder := none }
  | abandon : Takes state id (.abandon id) .abandon
      { state with
        holder := if state.holder = some id then none else state.holder
        changing := if state.changing = some id then none else state.changing }

/-- The task that does something with the event, if it is one that tasks do things with. -/
def Event.mover : Event → Option TaskId
  | .start id => some id
  | .answer id _ _ => some id
  | .effect id _ _ => some id
  | .proceed id => some id
  | .quit id => some id
  | .abandon id => some id
  | _ => none

theorem State.Takes.mover {state shared : State} {id : TaskId} {event : Event} {act : Act}
    (takes : state.Takes id event act shared) : event.mover = some id := by
  cases takes
  case quiet own => rcases own with rfl | rfl <;> rfl
  all_goals rfl

/-- What comes up from outside. -/
inductive Outside : Role → List Errand → Prop
  | caller (errands : List Errand) : Outside .caller errands
  | watcher (feed : Feed) : Outside (.watcher feed false) []
  | monitor (own : MonitorSettings) (due : Nat) : Outside (.monitor own due false) []
  | beat (node : Address) (interval due : Nat) : Outside (.beat node interval due false) []

/-- What a task is told while it goes on with what it does. -/
inductive Role.Told : Role → Role → Prop
  | watcher (before after : Feed) (leaving : Bool) :
      Told (.watcher before leaving) (.watcher after leaving)
  | monitor (own : MonitorSettings) (due : Nat) (stopped : Bool) :
      Told (.monitor own due stopped) (.monitor own due true)
  | beat (node : Address) (interval due : Nat) (stopped : Bool) :
      Told (.beat node interval due stopped) (.beat node interval due true)

/-- What an event can do. -/
inductive Happens (state : State) : Event → State → Prop
  | spawned {event : Event} {role : Role} {errands : List Errand} (apart : event.mover = none)
      (outside : Outside role errands) :
      Happens state event (state.spawn (.fresh role errands))
  | told {event : Event} {id : TaskId} {task : Task} {role : Role} (apart : event.mover = none)
      (found : state.task? id = some task) (told : task.role.Told role) :
      Happens state event (state.setTask id { task with role := role })
  | moved {event : Event} {id : TaskId} {task later : Task} {act : Act} {shared : State}
      (found : state.task? id = some task) (goes : task.Goes state.settings act later)
      (takes : state.Takes id event act shared) : Happens state event (shared.setTask id later)
  | passed (millis : Nat) : Happens state (.pass millis) { state with clock := state.clock + millis }
  | written (entry : Write) (wall : Time.Instant) :
      Happens state (.write entry wall) { state with world := state.world.afterWrite wall entry }

/-! ## Every event is one of these -/

namespace State

variable {state next : State} {id : TaskId} {task : Task}

private theorem happens_of_beginErrand {errand : Errand} {rest : List Errand}
    (found : state.task? id = some task) (running : task.ended = false) (idle : task.work = none)
    (errands : task.errands = errand :: rest)
    (stepped : state.beginErrand id task errand = some next) :
    Happens state (.proceed id) next := by
  cases errand with
  | report text =>
      cases stepped
      exact .moved found (.errandBegun running idle errands (.report text)) (.quiet (.inl rfl))
  | lead leader =>
      simp only [beginErrand] at stepped
      split at stepped
      case isTrue => cases stepped
      case isFalse still =>
        have still : state.changing = none := by simpa using still
        split at stepped
        case isTrue same =>
          cases stepped
          exact .moved found (.leadSkipped running idle errands) (.changeNone leader still same)
        case isFalse differs =>
          cases stepped
          exact .moved found (.errandBegun running idle errands (.lead leader))
            (.changeBegin leader still differs)
  | drain =>
      simp only [beginErrand, errands, List.tail_cons] at stepped
      split at stepped
      case isTrue => cases stepped
      case isFalse still =>
        cases stepped
        exact .moved found (.drained state.draining running idle errands)
          (.drain (by simpa using still))
  | await workers =>
      cases workers with
      | nil =>
          cases stepped
          exact .moved found (.awaitedAll running idle errands) (.quiet (.inl rfl))
      | cons worker workers =>
          simp only [beginErrand, errands, List.tail_cons] at stepped
          split at stepped
          · cases stepped
            exact .moved found (.awaited running idle errands) (.quiet (.inl rfl))
          · cases stepped
  | takeOver node =>
      simp only [beginErrand] at stepped
      split at stepped
      case isTrue => cases stepped
      case isFalse free =>
        cases stepped
        exact .moved found (.errandBegun running idle errands (.takeOver node))
          (.begin node (by simpa using free))
  | recordFailure jobId detail =>
      cases stepped
      exact .moved found (.errandBegun running idle errands (.recordFailure jobId detail))
        (.quiet (.inl rfl))
  | check timeoutMillis now =>
      cases stepped
      exact .moved found (.errandBegun running idle errands (.check timeoutMillis now))
        (.quiet (.inl rfl))
  | trigger =>
      cases stepped
      exact .moved found (.errandBegun running idle errands .trigger) (.quiet (.inl rfl))

private theorem happens_of_beginRole (found : state.task? id = some task)
    (running : task.ended = false) (idle : task.work = none) (errands : task.errands = [])
    (stepped : state.beginRole id task = some next) : Happens state (.proceed id) next := by
  unfold beginRole at stepped
  split at stepped
  case h_1 role =>
    cases stepped
    exact .moved found (.closed running idle errands (by simp [role])) (.quiet (.inl rfl))
  case h_2 feed leaving role =>
    split at stepped
    · cases stepped
      exact .moved found (.closed running idle errands (by simp [role])) (.quiet (.inl rfl))
    case isFalse staying =>
      split at stepped
      · cases stepped
        obtain rfl : leaving = false := by simpa using staying
        exact .moved found (.looked running idle errands role) (.quiet (.inl rfl))
      · cases stepped
  case h_3 activation node role =>
    split at stepped
    case isTrue => cases stepped
    case isFalse free =>
      cases stepped
      exact .moved found (.acquired running idle errands role) (.acquire (by simpa using free))
  case h_4 activation former role =>
    split at stepped
    case isTrue => cases stepped
    case isFalse going =>
      split at stepped
      case h_1 => cases stepped
      case h_2 node rest first =>
        cases stepped
        have active : state.group.isSome = true := by
          cases group : state.group with
          | none => simp [isStopped, group] at going
          | some group => rfl
        exact .moved found (.roleBegun running idle errands (role ▸ .take activation former node))
          (.take active first)
  case h_5 activation due role =>
    split at stepped
    case isTrue => cases stepped
    case isFalse =>
      cases stepped
      exact .moved found (.roleBegun running idle errands (role ▸ .build activation due _))
        (.quiet (.inl rfl))
  case h_6 activation node due role =>
    split at stepped
    case isTrue => cases stepped
    case isFalse =>
      cases stepped
      have begins : task.role.Begins state.settings task.role .quiet (pushScript node) := by
        rw [role]
        exact .push activation node due
      exact .moved found (.roleBegun running idle errands begins) (.quiet (.inl rfl))
  case h_7 own due stopped role =>
    split at stepped
    case isTrue => cases stepped
    case isFalse =>
      cases stepped
      split
      · exact .moved found (.roleBegun running idle errands (role ▸ .monitor own due _ stopped))
          (.quiet (.inl rfl))
      · exact .moved found (.passed _ running idle errands role) (.quiet (.inl rfl))
  case h_8 node interval due stopped role =>
    split at stepped
    case isTrue => cases stepped
    case isFalse =>
      cases stepped
      exact .moved found (.roleBegun running idle errands (role ▸ .beat node interval due _ stopped))
        (.quiet (.inl rfl))

private theorem happens_of_endErrand {errand : Errand} {rest : List Errand} {outcome : Outcome}
    {started : Bool} (found : state.task? id = some task) (running : task.ended = false)
    (work : task.work = some ⟨.done outcome, started⟩) (errands : task.errands = errand :: rest) :
    Happens state (.proceed id) (state.endErrand id task outcome errand) := by
  cases errand
  case lead leader =>
    exact .moved found (.errandEnded running work errands (.lead leader outcome)) (.changeEnd leader)
  case takeOver node =>
    cases outcome
    case progress progress =>
      cases progress
      case finished report =>
        exact .moved found (.errandEnded running work errands (.takeOver node report))
          (.finish report true)
      all_goals
        exact .moved found (.errandRound running work errands fun _ => nofun) (.quiet (.inl rfl))
    all_goals
      exact .moved found (.errandEnded running work errands (.other nofun fun _ _ _ => nofun))
        (.quiet (.inl rfl))
  all_goals
    exact .moved found (.errandEnded running work errands (.other nofun nofun)) (.quiet (.inl rfl))

private theorem happens_of_endRole {outcome : Outcome} {started : Bool}
    (found : state.task? id = some task) (running : task.ended = false)
    (work : task.work = some ⟨.done outcome, started⟩) (errands : task.errands = []) :
    Happens state (.proceed id) (state.endRole id task outcome) := by
  unfold endRole
  dsimp only
  split
  case h_1 activation holds node role =>
    split
    case h_1 report =>
      exact .moved found (.workerFinished running work errands role) (.finish report false)
    case h_2 progress unfinished =>
      exact .moved found (.workerRound running work errands role unfinished) (.quiet (.inl rfl))
    case h_3 notFinished notProgress =>
      exact .moved found (.workerAstray running work errands role notProgress) (.quiet (.inl rfl))
  case h_2 activation node due role =>
    exact .moved found (.pushed running work errands role) (.quiet (.inl rfl))
  case h_3 idle once =>
    exact .moved found (.rested running work errands idle once) (.quiet (.inl rfl))

private theorem happens_of_proceed (stepped : state.proceed id = some next) :
    Happens state (.proceed id) next := by
  obtain ⟨task, found, stepped⟩ := Option.bind_eq_some_iff.1 stepped
  split at stepped
  case isTrue => cases stepped
  case isFalse running =>
    have running : task.ended = false := by simpa using running
    split at stepped
    case h_1 outcome started errand rest work errands =>
      cases stepped
      exact happens_of_endErrand found running work errands
    case h_2 outcome started work errands =>
      cases stepped
      exact happens_of_endRole found running work errands
    case h_3 => cases stepped
    case h_4 errand rest idle errands => exact happens_of_beginErrand found running idle errands stepped
    case h_5 idle errands => exact happens_of_beginRole found running idle errands stepped

private theorem happens_of_quit (stepped : state.quit id = some next) :
    Happens state (.quit id) next := by
  obtain ⟨task, found, stepped⟩ := Option.bind_eq_some_iff.1 stepped
  split at stepped
  case isTrue => cases stepped
  case isFalse free =>
    obtain ⟨running, idle, errands⟩ :
        task.ended = false ∧ task.work = none ∧ task.errands = [] := by
      simpa [Bool.or_eq_true, not_or, and_assoc] using free
    have closes (apart : ∀ activation node, task.role ≠ .worker activation true node) :
        Happens state (.quit id) (state.setTask id task.close) :=
      .moved found (.closed running idle errands apart) (.quiet (.inr rfl))
    split at stepped
    case h_1 => cases stepped
    case h_2 feed leaving role =>
      split at stepped
      case isTrue may =>
        cases stepped
        obtain rfl : leaving = false := by simp at may; exact may.1
        exact .moved found (.left running idle errands role) (.quiet (.inr rfl))
      case isFalse => cases stepped
    case h_3 activation holds node role =>
      split at stepped
      case isFalse => cases stepped
      case isTrue =>
        cases stepped
        cases holds with
        | true => exact .moved found (.released running idle errands role) .release
        | false => exact closes (by simp [role])
    all_goals
      split at stepped
      case isFalse => cases stepped
      case isTrue =>
        cases stepped
        exact closes (by simp [*])

private theorem happens_of_told {event : Event} (apart : event.mover = none)
    (stepped : state.askToStop id = some next ∨
      ∃ change, state.changeFeed id change = some next) : Happens state event next := by
  rcases stepped with stepped | ⟨change, stepped⟩
  · obtain ⟨task, found, stepped⟩ := Option.bind_eq_some_iff.1 stepped
    split at stepped
    case h_1 feed leaving role =>
      cases stepped
      exact .told apart found (role ▸ .watcher feed _ leaving)
    case h_2 own due stopped role =>
      cases stepped
      exact .told apart found (role ▸ .monitor own due stopped)
    case h_3 node interval due stopped role =>
      cases stepped
      exact .told apart found (role ▸ .beat node interval due stopped)
    case h_4 => cases stepped
  · obtain ⟨task, found, stepped⟩ := Option.bind_eq_some_iff.1 stepped
    split at stepped
    case h_1 feed leaving role =>
      cases stepped
      exact .told apart found (role ▸ .watcher feed _ leaving)
    case h_2 => cases stepped

/-- Every event is one of those that are listed. -/
theorem happens {event : Event} (stepped : state.step event = some next) :
    Happens state event next := by
  cases event
  case arrive errands =>
    cases stepped
    exact .spawned rfl (.caller errands)
  case follow leader =>
    cases stepped
    exact .spawned rfl (.watcher _)
  case publish id leader => exact happens_of_told rfl (.inr ⟨_, stepped⟩)
  case close id => exact happens_of_told rfl (.inr ⟨_, stepped⟩)
  case monitor own =>
    cases stepped
    exact .spawned rfl (.monitor own _)
  case beat interval =>
    cases stepped
    exact .spawned rfl (.beat _ interval _)
  case stop id => exact happens_of_told rfl (.inl stepped)
  case start id =>
    obtain ⟨task, found, stepped⟩ := Option.bind_eq_some_iff.1 stepped
    split at stepped
    case h_1 request next work =>
      cases stepped
      exact .moved found (.started work) (.call request)
    case h_2 => cases stepped
  case answer id shares refused =>
    obtain ⟨task, found, stepped⟩ := Option.bind_eq_some_iff.1 stepped
    split at stepped
    case h_1 request next work =>
      cases stepped
      exact .moved found (.replied work _) (.reply request shares refused)
    case h_2 => cases stepped
  case effect id wall draw =>
    obtain ⟨task, found, stepped⟩ := Option.bind_eq_some_iff.1 stepped
    split at stepped
    case h_1 deed next started work =>
      obtain ⟨⟨result, after⟩, happened, stepped⟩ := Option.bind_eq_some_iff.1 stepped
      cases stepped
      exact .moved found (.acted work result) (.deed wall draw happened)
    case h_2 => cases stepped
  case proceed id => exact happens_of_proceed stepped
  case quit id => exact happens_of_quit stepped
  case abandon id =>
    obtain ⟨task, found, stepped⟩ := Option.bind_eq_some_iff.1 stepped
    split at stepped
    case h_1 role =>
      cases stepped
      exact .moved found (.abandoned role) .abandon
    case h_2 => cases stepped
  case pass millis =>
    cases stepped
    exact .passed millis
  case write entry wall =>
    cases stepped
    exact .written entry wall

end State

end Handover.Coordinator
