import Handover.Proofs.Alternation
import Handover.Proofs.Effects

/-!
Contract: what a takeover goes by is what its task was told, when it was told.

Owns: the answers that a task gets along a run; scripts that make their calls by what they
heard before; and the law that a takeover under way has come as far as its script says, by
what its task heard since the takeover began.

Others act between the calls of a takeover, so an answer says nothing about the moment of
the next call. The transcript keeps the answers in order, the latest first, so that a call
can be led back to the answer it goes by and to the state in which that was given.
-/

set_option autoImplicit false

namespace Handover

/-- A call and its answer. -/
structure Heard where
  request : Call
  reply : request.Reply

/-! ## Scripts -/

/-- Wherever the script goes on, each of its calls is permitted by what it heard before, and
it ends with what `goal` says of the whole. -/
def Script.Recalls {α : Type} (permits : List Heard → Call → Prop) (goal : List Heard → α → Prop) :
    List Heard → Script α → Prop
  | heard, .done value => goal heard value
  | heard, .call request next => permits heard request ∧
      ∀ reply, (next reply).Recalls permits goal (⟨request, reply⟩ :: heard)
  | heard, .effect _ next => ∀ result, (next result).Recalls permits goal heard

namespace Script

variable {α β : Type} {permits : List Heard → Call → Prop} {heard : List Heard}

/-- A script of the terms, where calls of the terms are permitted and keep what is so. -/
theorem Keeps.recalls {terms : Terms} {goal : α → Prop} {kept : List Heard → Prop} {script : Script α}
    (keeps : script.Keeps terms goal) (any : ∀ request reply, terms.replies request reply)
    (may : ∀ heard request, kept heard → terms.calls request → permits heard request)
    (still : ∀ heard request reply, kept heard → terms.calls request →
      kept (⟨request, reply⟩ :: heard)) (now : kept heard) :
    script.Recalls permits (fun heard value => goal value ∧ kept heard) heard := by
  induction script generalizing heard with
  | done value => exact ⟨keeps, now⟩
  | call request next inductionHypothesis =>
      exact ⟨may _ _ now keeps.1, fun reply =>
        inductionHypothesis reply (keeps.2 reply (any _ _)) (still _ _ _ now keeps.1)⟩
  | effect deed next inductionHypothesis => exact fun result => inductionHypothesis result (keeps.2 result) now

namespace Recalls

theorem mono {script : Script α} {goal weaker : List Heard → α → Prop}
    (recalls : script.Recalls permits goal heard)
    (implies : ∀ heard value, goal heard value → weaker heard value) :
    script.Recalls permits weaker heard := by
  induction script generalizing heard with
  | done value => exact implies _ _ recalls
  | call request next inductionHypothesis =>
      exact ⟨recalls.1, fun reply => inductionHypothesis reply (recalls.2 reply)⟩
  | effect deed next inductionHypothesis => exact fun result => inductionHypothesis result (recalls result)

theorem bind {script : Script α} {later : α → Script β} {middle : List Heard → α → Prop}
    {goal : List Heard → β → Prop} (first : script.Recalls permits middle heard)
    (second : ∀ heard value, middle heard value → (later value).Recalls permits goal heard) :
    (script >>= later).Recalls permits goal heard := by
  induction script generalizing heard with
  | done value => exact second _ _ first
  | call request next inductionHypothesis =>
      exact ⟨first.1, fun reply => inductionHypothesis reply (first.2 reply)⟩
  | effect deed next inductionHypothesis => exact fun result => inductionHypothesis result (first result)

/-- An attempt goes on where its first part did not break off. -/
theorem attempt {script : Attempt α} {later : α → Attempt β}
    {middle : List Heard → Except Fault α → Prop} {goal : List Heard → Except Fault β → Prop}
    (first : script.run.Recalls permits middle heard)
    (broken : ∀ heard fault, middle heard (.error fault) → goal heard (.error fault))
    (second : ∀ heard value, middle heard (.ok value) → (later value).run.Recalls permits goal heard) :
    (script >>= later).run.Recalls permits goal heard := by
  change (script.run >>= ExceptT.bindCont later).Recalls permits goal heard
  refine bind first fun heard result reached => ?_
  cases result with
  | ok value => exact second heard value reached
  | error fault => exact broken heard fault reached

theorem attemptAsk {request : Call} {later : request.Result → Attempt β}
    {goal : List Heard → Except Fault β → Prop} (may : permits heard request)
    (broken : ∀ fault, goal (⟨request, .error fault⟩ :: heard) (.error fault))
    (second : ∀ result, (later result).run.Recalls permits goal (⟨request, .ok result⟩ :: heard)) :
    (Attempt.ask request >>= later).run.Recalls permits goal heard := by
  have asked : (Attempt.ask request).run.Recalls permits
      (fun now reply => now = ⟨request, reply⟩ :: heard) heard := ⟨may, fun _ => rfl⟩
  refine attempt asked ?_ ?_
  · rintro _ fault rfl
    exact broken fault
  · rintro _ result rfl
    exact second result

theorem attemptOf {script : Script α} {later : α → Attempt β} {middle : List Heard → α → Prop}
    {goal : List Heard → Except Fault β → Prop} (first : script.Recalls permits middle heard)
    (second : ∀ heard value, middle heard value → (later value).run.Recalls permits goal heard) :
    (Attempt.of script >>= later).run.Recalls permits goal heard := by
  have whole : (Attempt.of script).run.Recalls permits
      (fun heard result => ∃ value, result = .ok value ∧ middle heard value) heard := by
    change (script >>= fun value => Script.done (Except.ok value)).Recalls permits _ heard
    exact bind first fun _ value reached => ⟨value, rfl, reached⟩
  refine attempt whole ?_ ?_
  · rintro _ _ ⟨_, impossible, _⟩
    cases impossible
  · rintro heard _ ⟨_, same, reached⟩
    cases same
    exact second heard _ reached

end Recalls

end Script

/-- A round that breaks off counts as `broken`. -/
theorem Takeover.orElse_recalls {permits : List Heard → Call → Prop} {stands : List Heard → Progress → Prop}
    {attempt : Attempt Progress} {broken : Progress} {heard : List Heard}
    (recalls : attempt.run.Recalls permits
      (fun heard result => stands heard (result.toOption.getD broken)) heard) :
    (orElse attempt broken).Recalls permits stands heard := by
  refine recalls.bind fun heard result stood => ?_
  cases result with
  | ok progress => exact stood
  | error fault => exact stood

/-- A round whose calls are permitted by what is so, and keep it, goes the course and leaves it so. -/
theorem Takeover.round_holds {settings : Settings} {node : Address} {progress : Takeover.Progress}
    {permits : List Heard → Call → Prop} {kept : List Heard → Prop} {heard : List Heard}
    (unfinished : ∀ report, progress ≠ .finished report)
    (may : ∀ heard request, kept heard → progress.Asks node request → permits heard request)
    (still : ∀ heard request reply, kept heard → progress.Asks node request →
      kept (⟨request, reply⟩ :: heard)) (now : kept heard) :
    (round settings node progress).Recalls permits (fun heard next =>
      Turns ⟨fun _ => True, progress.Asks node, fun _ _ => True⟩ settings.pageSize node progress next ∧
        kept heard) heard :=
  (round_keeps (fun _ asks => asks) trivial (fun _ _ _ => ⟨trivial, trivial⟩) unfinished).recalls
    (fun _ _ => trivial) may still now

namespace Coordinator

open Takeover (Progress)

namespace State

/-! ## Runs -/

/-- What the task hears with an event: the answer to its call, if that is what happens. -/
def hears (id : TaskId) (state : State) : Event → List Heard
  | .answer other shares refused =>
      if other = id then
        match state.request? id with
        | some request => [⟨request, (state.world.reply (.answering shares) request refused).1⟩]
        | none => []
      else []
  | _ => []

/-- What the task hears along a run, the latest first. -/
def heard (id : TaskId) (start : State) : List Event → List Heard
  | [] => []
  | event :: rest => (match start.step event with
      | some next => next.heard id rest
      | none => []) ++ start.hears id event

section Run

variable {start state next : State} {events first rest : List Event} {event : Event} {id : TaskId}
  {newer older : List Heard} {one : Heard}

theorem heard_append (run : start.run first = some state) :
    start.heard id (first ++ rest) = state.heard id rest ++ start.heard id first := by
  induction first generalizing start with
  | nil =>
      cases run
      simp [heard]
  | cons event first inductionHypothesis =>
      obtain ⟨middle, stepped, ran⟩ := Option.bind_eq_some_iff.1 run
      simp only [List.cons_append, heard, stepped, inductionHypothesis ran, List.append_assoc]

theorem heard_snoc (run : start.run events = some state) :
    start.heard id (events ++ [event]) = state.hears id event ++ start.heard id events := by
  rw [heard_append run]
  cases stepped : state.step event <;> simp [heard, stepped]

/-- What a task hears is the answer to the call that it has under way. -/
theorem of_hears (hears : state.hears id event = [one]) :
    ∃ shares refused, event = .answer id shares refused ∧ state.request? id = some one.request ∧
    one.reply = (state.world.reply (.answering shares) one.request refused).1 := by
  unfold State.hears at hears
  split at hears
  case h_1 other shares refused =>
    split at hears
    case isFalse => cases hears
    case isTrue self =>
      subst self
      split at hears
      case h_1 request calls =>
        cases hears
        exact ⟨shares, refused, rfl, calls, rfl⟩
      case h_2 => cases hears
  case h_2 => cases hears

theorem hears_eq_nil_or (id : TaskId) (state : State) (event : Event) :
    state.hears id event = [] ∨ ∃ one, state.hears id event = [one] := by
  unfold hears
  split
  · split
    · split
      · exact .inr ⟨_, rfl⟩
      · exact .inl rfl
    · exact .inl rfl
  · exact .inl rfl

/-- What was heard in a run was heard with one of its events, and the rest before and after it. -/
theorem exists_of_heard (run : start.run events = some state)
    (heard : start.heard id events = newer ++ one :: older) :
    ∃ before event after middle next, events = before ++ event :: after ∧
      start.run before = some middle ∧ middle.step event = some next ∧ next.run after = some state ∧
      middle.hears id event = [one] ∧ start.heard id before = older ∧ next.heard id after = newer := by
  induction events using List.reverseRecOn generalizing state newer with
  | nil => simp [State.heard] at heard
  | append_singleton events event inductionHypothesis =>
      rw [run_snoc] at run
      obtain ⟨middle, ran, stepped⟩ := Option.bind_eq_some_iff.1 run
      rw [heard_snoc ran] at heard
      have apart : ∀ {newer}, start.heard id events = newer ++ one :: older →
          ∃ before former after reached next, events ++ [event] = before ++ former :: after ∧
            start.run before = some reached ∧ reached.step former = some next ∧
            next.run after = some state ∧ reached.hears id former = [one] ∧
            start.heard id before = older ∧ next.heard id after = middle.hears id event ++ newer := by
        intro newer heard
        obtain ⟨before, former, after, reached, next, rfl, ranBefore, steppedThere, ranAfter, hears, same,
          rest⟩ := inductionHypothesis ran heard
        refine ⟨before, former, after ++ [event], reached, next, by simp, ranBefore, steppedThere, ?_, hears,
          same, ?_⟩
        · rw [run_snoc, ranAfter]
          exact stepped
        · rw [heard_snoc ranAfter, rest]
      rcases hears_eq_nil_or id middle event with silent | ⟨latest, hears⟩
      · rw [silent, List.nil_append] at heard
        simpa only [silent, List.nil_append] using apart heard
      · rw [hears, List.singleton_append] at heard
        cases newer with
        | nil =>
            obtain ⟨rfl, same⟩ := List.cons.inj heard
            exact ⟨events, event, [], middle, state, rfl, ran, stepped, rfl, hears, same, rfl⟩
        | cons newest newer =>
            obtain ⟨rfl, same⟩ := List.cons.inj heard
            simpa only [hears, List.singleton_append] using apart same

end Run

/-! ## Takeovers under way -/

/-- The task is at the node since `begun`, to which the run came before `during`. -/
structure Since (start : State) (events : List Event) (id : TaskId) (node : Address) (begun : State)
    (during : List Event) : Prop where
  split : ∃ before, events = before ++ during ∧ start.run before = some begun
  stays : begun.Along (fun state _ => state.IsAt id node) during

section Since

variable {start begun state : State} {events during : List Event} {event : Event} {id : TaskId}
  {node : Address}

theorem Since.run (since : Since start events id node begun during)
    (run : start.run events = some state) : begun.run during = some state := by
  obtain ⟨before, rfl, ran⟩ := since.split
  rw [run_append, ran] at run
  exact run

theorem Since.now (run : start.run events = some state) : Since start events id node state [] :=
  ⟨⟨events, by simp, run⟩, trivial⟩

theorem Since.later (since : Since start events id node begun during)
    (run : start.run events = some state) (isAt : state.IsAt id node) :
    Since start (events ++ [event]) id node begun (during ++ [event]) where
  split := by
    obtain ⟨before, rfl, ran⟩ := since.split
    exact ⟨before, by simp, ran⟩
  stays := by
    refine along_append.2 ⟨since.stays, fun middle ran => ⟨?_, fun _ _ => trivial⟩⟩
    cases (since.run run).symm.trans ran
    exact isAt

/-- What a takeover heard it heard in the course of it, and was at it ever since. -/
theorem Since.of_heard {newer older : List Heard} {one : Heard}
    (since : Since start events id node begun during) (run : start.run events = some state)
    (heard : begun.heard id during = newer ++ one :: older) :
    ∃ before shares refused between middle next, events = before ++ .answer id shares refused :: between ∧
      start.run before = some middle ∧ middle.step (.answer id shares refused) = some next ∧
      next.run between = some state ∧
      middle.request? id = some one.request ∧
      one.reply = (middle.world.reply (.answering shares) one.request refused).1 ∧
      next.heard id between = newer ∧ next.Along (fun state _ => state.IsAt id node) between := by
  obtain ⟨first, event, between, middle, next, rfl, ranFirst, stepped, ranBetween, hears, -, rest⟩ :=
    exists_of_heard (since.run run) heard
  obtain ⟨shares, refused, rfl, calls, replied⟩ := of_hears hears
  obtain ⟨before, rfl, ran⟩ := since.split
  refine ⟨before ++ first, shares, refused, between, middle, next, by simp, ?_, stepped, ranBetween, calls,
    replied, rest, ?_⟩
  · rw [run_append, ran]
    exact ranFirst
  · have parts : first ++ .answer id shares refused :: between = (first ++ [.answer id shares refused]) ++ between := by
      simp
    refine (along_append.1 (parts ▸ since.stays)).2 next ?_
    rw [run_snoc, ranFirst]
    exact stepped

end Since

/-- The takeover that the task is at began with `begun`: it was not at the node right before. -/
structure Began (start : State) (events : List Event) (id : TaskId) (node : Address) (begun : State)
    (during : List Event) : Prop extends Since start events id node begun during where
  fresh : ∃ before event former, events = before ++ event :: during ∧ start.run before = some former ∧
    former.step event = some begun ∧ ¬ former.IsAt id node

section Began

variable {start begun state next : State} {events during : List Event} {event : Event} {id : TaskId}
  {node : Address}

theorem Began.now (run : start.run events = some state) (stepped : state.step event = some next)
    (away : ¬ state.IsAt id node) : Began start (events ++ [event]) id node next [] where
  toSince := .now (by rw [run_snoc, run]; exact stepped)
  fresh := ⟨events, event, state, rfl, run, stepped, away⟩

theorem Began.later (began : Began start events id node begun during)
    (run : start.run events = some state) (isAt : state.IsAt id node) :
    Began start (events ++ [event]) id node begun (during ++ [event]) where
  toSince := began.toSince.later run isAt
  fresh := by
    obtain ⟨before, first, former, rfl, rest⟩ := began.fresh
    exact ⟨before, first, former, by simp, rest⟩

end Began

/-- A script of a takeover ends with a progress that stands on what its task heard. -/
def ComesTo (stands : List Heard → Progress → Prop) (heard : List Heard) (outcome : Outcome) : Prop :=
  ∃ progress, outcome = .progress progress ∧ stands heard progress

end State

/-- How an act takes a script of a takeover further. -/
inductive Resumes (settings : Settings) (node : Address) : Act → Script Outcome → Script Outcome → Prop
  | called (request : Call) (script : Script Outcome) : Resumes settings node (.call request) script script
  | replied {request : Call} {next : request.Reply → Script Outcome} (reply : request.Reply) :
      Resumes settings node (.reply request reply) (.call request next) (next reply)
  | acted {deed : Effect} {next : deed.Result → Script Outcome} (result : deed.Result) :
      Resumes settings node (.deed deed result) (.effect deed next) (next result)
  | round {progress : Progress} (unfinished : ∀ report, progress ≠ .finished report) :
      Resumes settings node .quiet (.done (.progress progress)) (roundOf settings node progress)

/-- What a task has under way for a takeover it has just begun, or taken further. -/
theorem Task.Goes.begun_or_resumes {settings : Settings} {task later : Task} {act : Act}
    {script : Script Outcome} {started : Bool} {node : Address} (goes : task.Goes settings act later)
    (work : later.work = some ⟨script, started⟩) (takesOver : later.duty.node? = some node) :
    (task.work = none ∧ script = later.duty.script settings) ∨
      ∃ former was, task.work = some ⟨former, was⟩ ∧ task.duty.node? = some node ∧
        Resumes settings node act former script := by
  cases goes with
  | started busy =>
      cases work
      exact .inr ⟨_, _, busy, takesOver, .called _ _⟩
  | replied busy reply =>
      cases work
      exact .inr ⟨_, _, busy, takesOver, .replied reply⟩
  | acted busy result =>
      cases work
      exact .inr ⟨_, _, busy, takesOver, .acted result⟩
  | errandBegun running free errands begins =>
      cases work
      have duty : task.duty = _ := Task.duty_of_errands errands
      exact .inl ⟨free, begins.script.trans (congrArg (Duty.script settings) duty.symm)⟩
  | @roleBegun role _ _ running free errands begins =>
      cases work
      have duty : ({ task with role := role }.begin script).duty = role.duty := Task.duty_of_none errands
      exact .inl ⟨free, begins.script.trans (congrArg (Duty.script settings) duty.symm)⟩
  | @errandRound other progress _ _ running busy errands unfinished =>
      cases work
      obtain rfl : other = node := by
        have duty : task.duty = _ := Task.duty_of_errands errands
        exact Option.some.inj ((congrArg Duty.node? duty).symm.trans takesOver)
      exact .inr ⟨_, _, busy, takesOver, .round unfinished⟩
  | @workerRound activation holds other progress _ running busy errands role unfinished =>
      cases work
      obtain rfl : other = node := by
        have duty : task.duty = .work other := by rw [Task.duty_of_none errands, role]; rfl
        exact Option.some.inj ((congrArg Duty.node? duty).symm.trans takesOver)
      exact .inr ⟨_, _, busy, takesOver, .round unfinished⟩
  | drained workers running free => cases free.symm.trans work
  | awaited running free => cases free.symm.trans work
  | looked running free => cases free.symm.trans work
  | left running free => cases free.symm.trans work
  | acquired running free => cases free.symm.trans work
  | passed _ running free => cases free.symm.trans work
  | _ => cases work

namespace State

/-- Nobody hears anything by what someone else does. -/
theorem hears_of_away {state : State} {id : TaskId} {event : Event} (away : event.mover ≠ some id) :
    state.hears id event = [] := by
  cases event
  case answer other shares refused => exact if_neg fun self => away (congrArg some self)
  all_goals rfl

section Law

variable {settings : Settings} {world : World} {permits : List Heard → Call → Prop}
  {stands : List Heard → Progress → Prop} {start state next shared : State} {events : List Event}
  {event : Event} {id : TaskId} {task after : Task} {act : Act} {node : Address}
  {former script : Script Outcome} {heard : List Heard}

/-- A script that goes by what its task heard still does after an act, with what is heard by that. -/
theorem recalls_of_resumes (resumes : Resumes settings node act former script)
    (takes : state.Takes id event act shared) (found : state.task? id = some task)
    (goes : task.Goes settings act after)
    (round : ∀ heard progress, (∀ report, progress ≠ .finished report) → stands heard progress →
      (roundOf settings node progress).Recalls permits (ComesTo stands) heard)
    (recalls : former.Recalls permits (ComesTo stands) heard) :
    script.Recalls permits (ComesTo stands) (state.hears id event ++ heard) := by
  cases resumes with
  | called =>
      cases takes
      exact recalls
  | @replied request _ reply =>
      cases takes with
      | reply _ shares refused =>
          have calls : state.request? id = some request := request?_eq_some_iff.2 ⟨task, found, goes.call?⟩
          rw [hears, if_pos rfl, calls]
          exact recalls.2 _
  | acted result =>
      cases takes
      exact recalls result
  | round unfinished =>
      obtain ⟨_, same, stood⟩ := recalls
      cases same
      have silent : state.hears id event = [] := by
        cases takes with
        | quiet own => rcases own with rfl | rfl <;> rfl
      rw [silent]
      exact round heard _ unfinished stood

/-- What tasks have under way for takeovers of the node goes by what they heard since these began. -/
def Recalling (permits : List Heard → Call → Prop) (stands : List Heard → Progress → Prop) (node : Address)
    (start : State) (events : List Event) (state : State) : Prop :=
  ∀ id task script started, state.task? id = some task → task.work = some ⟨script, started⟩ →
    task.duty.node? = some node → ∃ begun during, Began start events id node begun during ∧
      script.Recalls permits (ComesTo stands) (begun.heard id during)

/-- A takeover that was under way before an event goes on by what its task heard then and hears now. -/
theorem Recalling.later (recalling : Recalling permits stands node start events state)
    (run : start.run events = some state) (found : state.task? id = some task) {was : Bool}
    (busy : task.work = some ⟨former, was⟩) (takesOver : task.duty.node? = some node)
    (keeps : ∀ heard, former.Recalls permits (ComesTo stands) heard →
      script.Recalls permits (ComesTo stands) (state.hears id event ++ heard)) :
    ∃ begun during, Began start (events ++ [event]) id node begun during ∧
      script.Recalls permits (ComesTo stands) (begun.heard id during) := by
  obtain ⟨begun, during, began, recalls⟩ := recalling _ _ _ _ found busy takesOver
  have isAt : state.IsAt id node := isAt_iff.2 ⟨task, found, (Task.at?_of_work busy).trans takesOver⟩
  refine ⟨begun, during ++ [event], began.later run isAt, ?_⟩
  rw [heard_snoc (began.run run)]
  exact keeps _ recalls

theorem Recalling.step (recalling : Recalling permits stands node start events state)
    (begins : ∀ duty : Duty, duty.node? = some node →
      (duty.script state.settings).Recalls permits (ComesTo stands) [])
    (round : ∀ heard progress, (∀ report, progress ≠ .finished report) → stands heard progress →
      (roundOf state.settings node progress).Recalls permits (ComesTo stands) heard)
    (run : start.run events = some state) (stepped : state.step event = some next) :
    Recalling permits stands node start (events ++ [event]) next := by
  intro id later script started found work takesOver
  rcases (State.happens stepped).of_task? found with ⟨task, act, shared, _, known, goes, takes⟩ | idle |
    ⟨task, known, away, same, errands, role⟩
  · rcases goes.begun_or_resumes work takesOver with ⟨free, rfl⟩ | ⟨former, was, busy, here, resumes⟩
    · have away : ¬ state.IsAt id node := by
        intro isAt
        cases (Task.at?_of_idle free).symm.trans ((look_of_found known).symm.trans isAt)
      exact ⟨next, [], .now run stepped away, begins _ takesOver⟩
    · exact recalling.later run known busy here fun _ =>
        recalls_of_resumes resumes takes known goes round
  · cases idle.symm.trans work
  · have duty : later.duty = task.duty := Task.duty_of_same errands role
    refine recalling.later run known (same.symm.trans work) (duty ▸ takesOver) fun heard recalls => ?_
    rwa [hears_of_away away]

/-- What a takeover has under way goes by what its task heard since the takeover began, if each
of its rounds does. -/
theorem run_recalls (opening : stands [] .opening)
    (round : ∀ heard progress, (∀ report, progress ≠ .finished report) → stands heard progress →
      (Takeover.round settings node progress).Recalls permits stands heard)
    (run : (initial settings world).run events = some state) :
    Recalling permits stands node (initial settings world) events state := by
  have round : ∀ heard progress, (∀ report, progress ≠ .finished report) → stands heard progress →
      (roundOf settings node progress).Recalls permits (ComesTo stands) heard :=
    fun heard progress unfinished stood =>
      (round heard progress unfinished stood).bind fun _ next stood => ⟨next, rfl, stood⟩
  have begins : ∀ duty : Duty, duty.node? = some node →
      (duty.script settings).Recalls permits (ComesTo stands) [] := by
    intro duty takesOver
    cases duty <;> cases takesOver
    case takeOver => exact round [] .opening nofun opening
    case work => exact fun _ => round [] .opening nofun opening
  refine (run_induction (motive := fun events state => state.settings = settings ∧
    Recalling permits stands node (initial settings world) events state)
    ⟨rfl, fun id task _ _ found => by simp [task?, initial] at found⟩ ?_
    (along_of_forall fun _ _ => trivial) run).2
  rintro events event state next - run - stepped ⟨rfl, recalling⟩
  exact ⟨(State.happens stepped).settings, recalling.step begins round run stepped⟩

/-- A call that a takeover has under way is permitted by what its task heard. -/
theorem run_permits (opening : stands [] .opening)
    (round : ∀ heard progress, (∀ report, progress ≠ .finished report) → stands heard progress →
      (Takeover.round settings node progress).Recalls permits stands heard)
    (run : (initial settings world).run events = some state) (found : state.task? id = some task)
    (takesOver : task.duty.node? = some node) {request : Call} {started : Bool}
    (calls : task.call? = some (request, started)) : ∃ begun during,
      Began (initial settings world) events id node begun during ∧
      permits (begun.heard id during) request := by
  obtain ⟨rest, work⟩ := Task.work_of_call? calls
  obtain ⟨begun, during, began, recalls⟩ := run_recalls opening round run _ _ _ _ found work takesOver
  exact ⟨begun, during, began, recalls.1⟩

/-- The progress that a takeover has come to stands on what its task heard. -/
theorem run_stands (opening : stands [] .opening)
    (round : ∀ heard progress, (∀ report, progress ≠ .finished report) → stands heard progress →
      (Takeover.round settings node progress).Recalls permits stands heard)
    (run : (initial settings world).run events = some state) (found : state.task? id = some task)
    (takesOver : task.duty.node? = some node) {progress : Progress} {started : Bool}
    (work : task.work = some ⟨.done (.progress progress), started⟩) : ∃ begun during,
      Began (initial settings world) events id node begun during ∧
      stands (begun.heard id during) progress := by
  obtain ⟨begun, during, began, _, same, stood⟩ :=
    run_recalls opening round run _ _ _ _ found work takesOver
  cases same
  exact ⟨begun, during, began, stood⟩

end Law

end State

end Coordinator

end Handover
