import Handover.Proofs.Fencing
import Handover.Proofs.Transcript

/-!
Contract: what a check of the heartbeats does from its listing to its end.

Owns: the law that a check in which nothing is refused swaps each record that was listed and
due, once and in the order of the listing, and queues what it wins before it goes on; the rule
by which facts are carried along it, whatever others do in between; and that it can always come
to its end.
-/

set_option autoImplicit false

namespace Handover

open Time (Instant)

namespace Detection

/-- The listed records that are due, in the order of the listing. -/
def dueAmong (timeoutMillis : Nat) (now : Instant) (listed : List (Address × Liveness)) :
    List (Address × Liveness) :=
  listed.filter fun entry => isDue timeoutMillis now entry.2

/-- The swap that turns a listed record dead. -/
def swapOf (entry : Address × Liveness) : Call :=
  .swap entry.1 entry.2.version entry.2.markedDead

end Detection

open Detection (dueAmong swapOf)

namespace Heard

/-- The address whose record was won, if this is a swap that was applied. -/
def won? : Heard → Option Address
  | ⟨.swap address _ _, .ok true⟩ => some address
  | _ => none

/-- What is to be queued then: the node that the address names, if it names one. -/
def reports (one : Heard) : List Address :=
  match one.won? with
  | some address => if Intake.accepts address.text then [address.trim] else []
  | none => []

end Heard

namespace Effect

/-- The effects by which a report comes into the queue. -/
def isReport : Effect → Bool
  | .countReport => true
  | .enqueue _ => true
  | _ => false

def queues : Effect → List Address
  | .enqueue node => [node]
  | _ => []

/-- The effect went as it goes while the queue is open. -/
def Took : (deed : Effect) → deed.Result → Prop
  | .enqueue _, taken => taken = true
  | _, _ => True

end Effect

/-! ## Scripts -/

/-- Wherever the script goes on while nothing is refused and the queue is open, it swaps the
records that are still due, and queues what it owes to the queue before it makes the next swap. -/
def Script.Combs {α : Type} : List (Address × Liveness) → List Address → Script α → Prop
  | due, owed, .done _ => due = [] ∧ owed = []
  | due, owed, .call request next => owed = [] ∧ ∃ entry rest, due = entry :: rest ∧
      request = swapOf entry ∧
      ∀ result, (next (.ok result)).Combs rest (Heard.mk request (.ok result)).reports
  | due, owed, .effect deed next => deed.isReport = true ∧ ∃ rest, owed = deed.queues ++ rest ∧
      ∀ result, deed.Took result → (next result).Combs due rest

namespace Script.Combs

variable {α β : Type} {due : List (Address × Liveness)} {owed : List Address}

theorem bind {script : Script α} {later : α → Script β} (first : script.Combs due owed)
    (ends : ∀ value, (later value).Combs [] []) : (script >>= later).Combs due owed := by
  induction script generalizing due owed with
  | done value =>
      obtain ⟨rfl, rfl⟩ := first
      exact ends value
  | call request next inductionHypothesis =>
      obtain ⟨rfl, entry, rest, rfl, same, combs⟩ := first
      exact ⟨rfl, entry, rest, rfl, same, fun result => inductionHypothesis _ (combs result)⟩
  | effect deed next inductionHypothesis =>
      obtain ⟨reports, rest, rfl, combs⟩ := first
      exact ⟨reports, rest, rfl, fun result took => inductionHypothesis result (combs result took)⟩

/-- An attempt that ends after its first part but for what it makes of the result. -/
theorem attempt {script : Attempt α} {later : α → β} (first : script.run.Combs due owed) :
    (script >>= fun value => (pure (later value) : Attempt β)).run.Combs due owed := by
  change (script.run >>= ExceptT.bindCont fun value => pure (later value)).Combs due owed
  refine first.bind fun result => ?_
  cases result <;> exact ⟨rfl, rfl⟩

end Script.Combs

-- To compare scripts that submit a report, Lean would trim a text that it does not know.
attribute [local irreducible] Intake.accepts

section Checks

variable {timeoutMillis : Nat} {now : Instant} {listed : List (Address × Liveness)}

/-- What was won is queued before the rest is gone through. -/
theorem submit_combs {α : Type} {due : List (Address × Liveness)} {address : Address}
    {later : Bool → Attempt α} (rest : ∀ accepted, (later accepted).run.Combs due []) :
    (Attempt.of (Intake.submit address.text) >>= later).run.Combs due
      (if Intake.accepts address.text then [address.trim] else []) := by
  unfold Intake.submit
  split
  case isTrue =>
    refine ⟨rfl, [address.trim], rfl, fun _ _ => ⟨rfl, [], rfl, ?_⟩⟩
    rintro _ rfl
    exact rest true
  case isFalse => exact rest false

theorem sweep_combs (timeoutMillis : Nat) (now : Instant) (listed : List (Address × Liveness)) :
    (Detection.sweep timeoutMillis now listed).run.Combs (dueAmong timeoutMillis now listed) [] := by
  induction listed with
  | nil => exact ⟨rfl, rfl⟩
  | cons entry rest inductionHypothesis =>
      unfold Detection.sweep dueAmong
      rw [List.filter_cons]
      split
      case isFalse => exact inductionHypothesis
      case isTrue =>
        refine ⟨rfl, entry, _, rfl, rfl, fun applied => ?_⟩
        cases applied with
        | false => exact inductionHypothesis
        | true => exact submit_combs fun accepted => inductionHypothesis.attempt

end Checks

namespace Coordinator

/-- If the call lists the records, the script goes through those of them that are due. -/
def GoesThrough : (request : Call) → (request.Reply → Script Outcome) → Prop
  | .liveness, next => ∃ timeoutMillis now, ∀ listed,
      (next (.ok listed)).Combs (dueAmong timeoutMillis now listed) []
  | _, _ => True

/-- Wherever the script lists the records, it goes through them. -/
def Opens : Script Outcome → Prop
  | .done _ => True
  | .call request next => GoesThrough request next ∧ ∀ reply, Opens (next reply)
  | .effect _ next => ∀ result, Opens (next result)

/-- A script that lists no records. -/
theorem opens_of_keeps {terms : Terms} {goal : Outcome → Prop} {script : Script Outcome}
    (keeps : script.Keeps terms goal) (any : ∀ request reply, terms.replies request reply)
    (apart : ¬ terms.calls .liveness) : Opens script := by
  induction script with
  | done value => exact trivial
  | call request next inductionHypothesis =>
      refine ⟨?_, fun reply => inductionHypothesis reply (keeps.2 reply (any _ _))⟩
      cases request
      case liveness => exact absurd keeps.1 apart
      all_goals exact trivial
  | effect deed next inductionHypothesis => exact fun result => inductionHypothesis result (keeps.2 result)

/-- Any effects, any replies, and no listing. -/
private def unlisting : Terms := ⟨fun _ => True, fun request => request ≠ .liveness, fun _ _ => True⟩

theorem checkScript_opens (timeoutMillis : Nat) (now : Instant) : Opens (checkScript timeoutMillis now) := by
  refine ⟨⟨timeoutMillis, now, fun listed => ?_⟩, fun reply => ?_⟩
  · exact (sweep_combs timeoutMillis now listed).bind fun _ => ⟨rfl, rfl⟩
  · cases reply with
    | error fault => exact trivial
    | ok listed =>
        have keeps : (Detection.sweep timeoutMillis now listed).run.Keeps unlisting fun _ => True :=
          sweep_keeps (fun _ _ => ⟨trivial, trivial, trivial⟩)
            (fun node expected record => (nofun : Call.swap node expected record ≠ .liveness))
            timeoutMillis now listed
        have whole : ((Detection.sweep timeoutMillis now listed).run >>= fun reported =>
            Script.done (Outcome.checked reported)).Keeps unlisting fun _ => True :=
          keeps.bind fun _ _ => trivial
        exact opens_of_keeps whole (fun _ _ => trivial) fun listing => listing rfl

/-- Whatever a check has under way goes through what it lists. -/
theorem Duty.Underway.opens {settings : Settings} {allowed : Act → Prop} {duty : Duty}
    {script : Script Outcome} (underway : duty.Underway settings allowed script)
    (checks : duty.timeout?.isSome = true) : Opens script := by
  induction underway with
  | begun =>
      cases duty
      case check timeoutMillis now => exact checkScript_opens timeoutMillis now
      case monitor timeoutMillis => exact fun now => checkScript_opens timeoutMillis now
      all_goals cases checks
  | replied reply _ _ inductionHypothesis => exact inductionHypothesis.2 reply
  | acted result _ _ inductionHypothesis => exact inductionHypothesis result
  | round takesOver _ _ _ => cases duty <;> cases takesOver <;> cases checks

/-! ## Runs -/

/-- The task whose call is answered with the event. -/
def Event.answered? : Event → Option TaskId
  | .answer id _ _ => some id
  | _ => none

/-- The event neither begins another script of the task nor refuses one of its calls. -/
def Event.Grants (id : TaskId) (event : Event) : Prop :=
  event ≠ .proceed id ∧ ∀ shares detail, event ≠ .answer id shares (some detail)

namespace State

/-- What an event makes of a check that has still to swap the records `due` and owes nodes to
the queue. -/
inductive Combing (id : TaskId) (state : State) : Event → List (Address × Liveness) → List Address →
    List (Address × Liveness) → List Address → Prop
  /-- It is nothing that the check waits for. -/
  | apart {event : Event} {due : List (Address × Liveness)} {owed : List Address}
      (unanswered : event.answered? ≠ some id)
      (idle : ∀ deed, state.deed? event ≠ some (id, deed)) : Combing id state event due owed due owed
  | swapped {entry : Address × Liveness} {due : List (Address × Liveness)} {shares : Option Shares}
      (calls : state.request? id = some (swapOf entry)) :
      Combing id state (.answer id shares none) (entry :: due) [] due
        (Heard.mk (swapOf entry) (state.world.reply (.answering shares) (swapOf entry) none).1).reports
  | acted {event : Event} {deed : Effect} {due : List (Address × Liveness)} {owed : List Address}
      (own : state.deed? event = some (id, deed)) (reports : deed.isReport = true) :
      Combing id state event due (deed.queues ++ owed) due owed

variable {settings : Settings} {world : World} {before events during : List Event}
  {start now listing state ended next : State} {event : Event} {id : TaskId} {task later : Task}

/-- A task that stops, or that begins to leave, has nothing under way. -/
theorem idle_of_quit (stepped : state.step (.quit id) = some next) (found : next.task? id = some later) :
    later.work = none := by
  obtain ⟨task, there, stepped⟩ := Option.bind_eq_some_iff.1 stepped
  split at stepped
  case isTrue => cases stepped
  case isFalse waits =>
    have idle : task.work = none := by
      simp only [Bool.or_eq_true, not_or, Option.isSome_iff_ne_none, ne_eq, not_not] at waits
      exact waits.1.2
    have became : ∀ {shared : State} {one : Task}, shared.task? id = some task →
        some (shared.setTask id one) = some next → one.work = none → later.work = none := by
      rintro shared one known same rest
      cases same
      cases found.symm.trans (task?_setTask_of_found known)
      exact rest
    split at stepped
    case h_1 => cases stepped
    case h_2 =>
      split at stepped
      case isTrue => exact became there stepped idle
      case isFalse => cases stepped
    case h_3 activation holds own role =>
      split at stepped
      case isTrue => exact became (by cases holds <;> exact there) stepped rfl
      case isFalse => cases stepped
    all_goals
      split at stepped
      case isTrue => exact became there stepped rfl
      case isFalse => cases stepped

/-- Only an event of such a kind begins a script. -/
theorem Takes.begins {act : Act} {shared : State} (takes : state.Takes id event act shared)
    (begins : (∃ errand script, Errand.Begins settings errand act script) ∨
      ∃ role after script, Role.Begins settings role after act script) :
    event = .proceed id ∨ event = .quit id := by
  rcases begins with ⟨_, _, begins⟩ | ⟨_, _, _, begins⟩
  all_goals cases begins <;> cases takes <;> first | assumption | exact .inl rfl

theorem Takes.took {deed : Effect} {result : deed.Result} {shared : State}
    (takes : state.Takes id event (.deed deed result) shared) (opened : state.closed = false) :
    deed.Took result := by
  cases deed
  case enqueue node => exact takes.taken.trans (congrArg Bool.not opened)
  all_goals trivial

theorem step_combing (stepped : state.step event = some next) (opened : state.closed = false)
    (grants : event.Grants id)
    (found : next.task? id = some later) {script : Script Outcome} {started : Bool}
    (work : later.work = some ⟨script, started⟩) :
    ∃ task before was, state.task? id = some task ∧ task.work = some ⟨before, was⟩ ∧
      ∀ due owed, before.Combs due owed → ∃ dueThen owedThen, script.Combs dueThen owedThen ∧
        state.Combing id event due owed dueThen owedThen := by
  have goesOn : ¬ (event = .proceed id ∨ event = .quit id) := by
    rintro (proceeds | rfl)
    · exact grants.1 proceeds
    · cases (idle_of_quit stepped found).symm.trans work
  rcases (State.happens stepped).of_task? found with ⟨task, act, shared, _, known, goes, takes⟩ | idle |
    ⟨task, known, away, same, errands, role⟩
  · cases goes with
    | started busy =>
        cases work
        cases takes
        exact ⟨task, _, _, known, busy, fun due owed combs => ⟨due, owed, combs, .apart nofun nofun⟩⟩
    | @replied request rest busy reply =>
        cases work
        cases takes with
        | reply _ shares refused =>
            cases refused with
            | some detail => exact absurd rfl (grants.2 shares detail)
            | none =>
                refine ⟨task, _, _, known, busy, ?_⟩
                rintro _ _ ⟨rfl, entry, due, rfl, rfl, combs⟩
                have calls : state.request? id = some (swapOf entry) :=
                  request?_eq_some_iff.2 ⟨task, known, by rw [Task.call?, busy]⟩
                exact ⟨due, _, combs _, .swapped calls⟩
    | @acted deed rest _ busy result =>
        cases work
        have own := takes.deed? known (.acted busy result)
        refine ⟨task, _, _, known, busy, ?_⟩
        rintro _ _ ⟨reports, owed, rfl, combs⟩
        exact ⟨_, owed, combs result (takes.took opened), .acted own reports⟩
    | errandBegun running free errands begins => exact absurd (takes.begins (.inl ⟨_, _, begins⟩)) goesOn
    | roleBegun running free errands begins => exact absurd (takes.begins (.inr ⟨_, _, _, begins⟩)) goesOn
    | errandRound =>
        cases takes with
        | quiet own => exact absurd own goesOn
    | workerRound =>
        cases takes with
        | quiet own => exact absurd own goesOn
    | drained workers running free => cases free.symm.trans work
    | awaited running free => cases free.symm.trans work
    | looked running free => cases free.symm.trans work
    | left running free => cases free.symm.trans work
    | acquired running free => cases free.symm.trans work
    | passed _ running free => cases free.symm.trans work
    | _ => cases work
  · cases idle.symm.trans work
  · refine ⟨task, script, started, known, same.symm.trans work, ?_⟩
    refine fun due owed combs => ⟨due, owed, combs, .apart ?_ ?_⟩
    · intro answered
      cases event <;> first | exact away answered | cases answered
    · intro deed own
      exact away (of_deed? own).1

/-- What a task goes on with when its call is answered. -/
theorem step_answer (found : state.task? id = some task) {request : Call}
    {rest : request.Reply → Script Outcome} (work : task.work = some ⟨.call request rest, true⟩)
    (shares : Option Shares) (refused : Option String) : state.step (.answer id shares refused) =
      some ({ state with world := (state.world.reply (.answering shares) request refused).2 }.setTask id
        (task.begin (rest (state.world.reply (.answering shares) request refused).1))) := by
  simp only [step, found, work, Option.bind_eq_bind, Option.bind_some]

/-- A check after its listing: the task gets the listing with an answer, and `during` neither
begins another script of it nor refuses one of its calls. -/
structure PassFrom (now : State) (id : TaskId) (listing : State) (during : List Event) : Prop where
  lists : now.request? id = some .liveness
  answered : ∃ shares, now.step (.answer id shares none) = some listing
  granted : ∀ event ∈ during, event.Grants id

theorem PassFrom.opened (pass : PassFrom now id listing during)
    (ran : (initial settings world).run before = some now) : listing.closed = false := by
  obtain ⟨_, answered⟩ := pass.answered
  exact (step_closed answered).trans (closed_of_run ran)

/-- After its listing the check goes through the records that were listed and are due. -/
theorem PassFrom.opening (pass : PassFrom now id listing during)
    (ran : (initial settings world).run before = some now) :
    ∃ timeoutMillis moment task script, listing.task? id = some task ∧
      task.work = some ⟨script, false⟩ ∧
      script.Combs (dueAmong timeoutMillis moment now.world.members.rows) [] := by
  obtain ⟨task, found, calls⟩ := request?_eq_some_iff.1 pass.lists
  obtain ⟨rest, work⟩ := Task.work_of_call? calls
  obtain ⟨-, sound⟩ := run_sound (along_of_forall fun _ _ => heeds_any) ran
  obtain ⟨timeoutMillis, moment, combs⟩ :=
    (((sound.tasks found).underway _ _ work).opens ((sound.tasks found).mayCall calls)).1
  obtain ⟨shares, answered⟩ := pass.answered
  cases (step_answer found work shares none).symm.trans answered
  exact ⟨timeoutMillis, moment, _, _, task?_setTask_of_found found, rfl, combs now.world.members.rows⟩

/-! ## The end of a check -/

/-- Nothing but an answer to the task writes the record of the node. -/
def LeftTo (id : TaskId) (node : Address) (state : State) (event : Event) : Prop :=
  state.stroke node event = .spares ∨ event.answered? = some id

instance (id : TaskId) (node : Address) (state : State) (event : Event) :
    Decidable (state.LeftTo id node event) := inferInstanceAs (Decidable (_ ∨ _))

/-- The script of the task has come to its end. -/
def AtEnd (id : TaskId) (state : State) : Prop :=
  ∃ task outcome started, state.task? id = some task ∧ task.work = some ⟨.done outcome, started⟩

/-- A check from its listing to its end. -/
structure Pass (now : State) (id : TaskId) (listing : State) (during : List Event) (ended : State) : Prop
    extends PassFrom now id listing during where
  run : listing.run during = some ended
  atEnd : ended.AtEnd id

/-- What every event of a check keeps is so at its end, when nothing is left to be swapped and
nothing is owed to the queue. -/
theorem Pass.induction {holds : State → Event → Prop}
    {motive : List Event → State → List (Address × Liveness) → List Address → Prop}
    (pass : Pass now id listing during ended) (ran : (initial settings world).run before = some now)
    (opening : ∀ timeoutMillis moment,
      motive [] listing (dueAmong timeoutMillis moment now.world.members.rows) [])
    (extend : ∀ {events event state next due owed dueThen owedThen}, listing.run events = some state →
      holds state event → state.step event = some next →
        state.Combing id event due owed dueThen owedThen → motive events state due owed →
          motive (events ++ [event]) next dueThen owedThen)
    (along : listing.Along holds during) : motive during ended [] [] := by
  have granted : listing.Along (fun _ event => event.Grants id) during := by
    refine along_of_split fun first event last _ same _ => pass.granted event ?_
    simp [same]
  have opened := pass.opened ran
  have carried := run_induction (motive := fun events state => ∀ task script started,
    state.task? id = some task → task.work = some ⟨script, started⟩ →
      ∃ due owed, script.Combs due owed ∧ motive events state due owed)
    ?begun ?goesOn (along.and granted) pass.run
  · obtain ⟨task, outcome, started, found, work⟩ := pass.atEnd
    obtain ⟨_, _, ⟨rfl, rfl⟩, reached⟩ := carried task _ started found work
    exact reached
  case begun =>
    intro task script started found work
    obtain ⟨timeoutMillis, moment, own, _, known, busy, combs⟩ := pass.opening ran
    cases found.symm.trans known
    cases work.symm.trans busy
    exact ⟨_, _, combs, opening timeoutMillis moment⟩
  case goesOn =>
    rintro events event state next - run ⟨held, grants⟩ stepped so later script started found work
    obtain ⟨task, former, was, known, busy, goes⟩ :=
      step_combing stepped ((closed_of_run run).trans opened) grants found work
    obtain ⟨due, owed, combs, reached⟩ := so task former was known busy
    obtain ⟨dueThen, owedThen, combsThen, combing⟩ := goes due owed combs
    exact ⟨dueThen, owedThen, combsThen, extend run held stepped combing reached⟩

/-- The task comes by itself to the end of its check. -/
private def Ends (id : TaskId) (state : State) : Prop := ∃ during ended, state.run during = some ended ∧
  (∀ event ∈ during, event.Grants id) ∧ (∀ node, state.Along (LeftTo id node) during) ∧ ended.AtEnd id

private theorem Ends.of_step (stepped : state.step event = some next) (grants : event.Grants id)
    (left : ∀ node, state.LeftTo id node event) (ends : next.Ends id) : state.Ends id := by
  obtain ⟨during, ended, run, granted, alone, atEnd⟩ := ends
  refine ⟨event :: during, ended, ?_, List.forall_mem_cons.2 ⟨grants, granted⟩,
    fun node => ⟨left node, ?_⟩, atEnd⟩
  · rw [State.run, stepped]
    exact run
  · intro other steppedTo
    cases stepped.symm.trans steppedTo
    exact alone node

private theorem ends_of_combs (script : Script Outcome) : ∀ {state : State} {task : Task}
    {due : List (Address × Liveness)} {owed : List Address}, script.Combs due owed →
      state.task? id = some task → task.work = some ⟨script, false⟩ → state.closed = false →
        state.Ends id := by
  induction script with
  | done outcome =>
      intro state task due owed _ found work _
      exact ⟨[], state, rfl, List.forall_mem_nil _, fun _ => trivial, task, outcome, false, found, work⟩
  | call request next inductionHypothesis =>
      rintro state task _ _ ⟨rfl, entry, due, rfl, rfl, combs⟩ found work opened
      have known : ((state.note (.called id (swapOf entry))).setTask id
          { task with work := some ⟨.call (swapOf entry) next, true⟩ }).task? id =
            some { task with work := some ⟨.call (swapOf entry) next, true⟩ } :=
        task?_setTask_of_found found
      have starts : state.step (.start id) = some ((state.note (.called id (swapOf entry))).setTask id
          { task with work := some ⟨.call (swapOf entry) next, true⟩ }) := by
        simp only [step, found, work, Option.bind_eq_bind, Option.bind_some]
      refine .of_step starts (by simp [Event.Grants]) (fun _ => .inl rfl)
        (.of_step (step_answer known rfl none none) (by simp [Event.Grants]) (fun _ => .inr rfl) ?_)
      exact inductionHypothesis _ (combs _) (task?_setTask_of_found known) rfl opened
  | effect deed next inductionHypothesis =>
      rintro state task due _ ⟨reports, owed, rfl, combs⟩ found work opened
      obtain ⟨result, after, happened, took, same, still⟩ : ∃ result after,
          state.afterEffect ⟨0, 0⟩ 0 deed = some (result, after) ∧ deed.Took result ∧
            after.tasks = state.tasks ∧ after.closed = false := by
        cases deed
        case countReport => exact ⟨_, _, rfl, trivial, rfl, opened⟩
        case enqueue node => exact ⟨true, _, if_neg (by simp [opened]), rfl, rfl, opened⟩
        all_goals cases reports
      have known : after.task? id = some task := by
        rw [task?, same]
        exact found
      have acts : state.step (.effect id ⟨0, 0⟩ 0) = some (after.setTask id (task.begin (next result))) := by
        simp only [step, found, work, Option.bind_eq_bind, Option.bind_some, happened]
      have quiet : ∀ node, state.stroke node (.effect id ⟨0, 0⟩ 0) = .spares := by
        intro node
        have own : state.deed? (.effect id ⟨0, 0⟩ 0) = some (id, deed) := by
          rw [deed?, found, Option.bind_some, Task.effect?, work]
          rfl
        have apart : deed ≠ .heartbeat node := by
          rintro rfl
          cases reports
        simp [stroke, own, apart]
      exact .of_step acts (by simp [Event.Grants]) (fun node => .inl (quiet node))
        (inductionHypothesis _ (combs result took) (task?_setTask_of_found known) rfl still)

/-- A check that has got its listing can come to its end, and writes no record but by its swaps. -/
theorem exists_pass (lists : now.request? id = some .liveness) {shares : Option Shares}
    (answered : now.step (.answer id shares none) = some listing)
    (ran : (initial settings world).run before = some now) :
    ∃ during ended, Pass now id listing during ended ∧ ∀ node, listing.Along (LeftTo id node) during := by
  have pass : PassFrom now id listing [] := ⟨lists, ⟨shares, answered⟩, nofun⟩
  have opened := pass.opened ran
  obtain ⟨timeoutMillis, moment, task, script, found, work, combs⟩ := pass.opening ran
  obtain ⟨during, ended, run, granted, alone, atEnd⟩ := ends_of_combs script combs found work opened
  exact ⟨during, ended, ⟨⟨lists, ⟨shares, answered⟩, granted⟩, run, atEnd⟩, alone⟩

end State

end Coordinator

end Handover
