import Handover.Proofs.Alternation
import Handover.Proofs.Settling

/-!
Contract: what each event does to the account of a node that is taken over again and again.

Owns: the account, which counts the takeovers that began, those that are to begin, those
that have yet to settle the budget of retries, and what is used up of the budget; how many
more takeovers an account is good for; and the law that an event raises this together with
the number of takeovers that began only where it is an external start.
-/

set_option autoImplicit false

namespace Handover.Coordinator

/-! ## Accounts -/

/-- What there is of takeovers of a node. -/
structure Account where
  begun : Nat
  /-- Reports that are queued, and retries that are not queued yet. -/
  waiting : Nat
  /-- Takeovers that have yet to settle the budget of retries. -/
  unsettled : Nat
  /-- How much of the budget is used up. -/
  retries : Nat

namespace Account

/-- How many more takeovers can begin without an external start. One that waits is good for
itself and a whole budget of retries, and one that has yet to settle the budget for the
budget. What is used up counts once for all of them. -/
def prospect (limit : Nat) (account : Account) : Nat :=
  if account.waiting + account.unsettled = 0 then 0
  else (limit + 1) * account.waiting + limit * account.unsettled - min account.retries limit

/-- How an account moves; the number tells how many external starts pay for it. -/
inductive Moves (limit : Nat) (before after : Account) : Nat → Prop
  | rests {external : Nat} (begun : after.begun = before.begun)
      (waiting : after.waiting ≤ before.waiting) (unsettled : after.unsettled ≤ before.unsettled)
      (retries : after.retries = before.retries) : Moves limit before after external
  | reported (begun : after.begun = before.begun) (waiting : after.waiting ≤ before.waiting + 1)
      (unsettled : after.unsettled ≤ before.unsettled) (retries : after.retries = before.retries) :
      Moves limit before after 1
  | asked (begun : after.begun = before.begun + 1) (waiting : after.waiting ≤ before.waiting)
      (unsettled : after.unsettled ≤ before.unsettled + 1) (retries : after.retries = before.retries) :
      Moves limit before after 1
  | taken {external : Nat} (begun : after.begun = before.begun + 1)
      (waiting : after.waiting + 1 ≤ before.waiting)
      (unsettled : after.unsettled ≤ before.unsettled + 1) (retries : after.retries = before.retries) :
      Moves limit before after external
  /-- The budget is settled, and no retry is scheduled. -/
  | settled {external : Nat} (begun : after.begun = before.begun)
      (waiting : after.waiting ≤ before.waiting)
      (unsettled : after.unsettled + 1 ≤ before.unsettled) : Moves limit before after external
  | retried {external : Nat} (begun : after.begun = before.begun)
      (waiting : after.waiting ≤ before.waiting + 1)
      (unsettled : after.unsettled + 1 ≤ before.unsettled)
      (retries : after.retries = before.retries + 1) (within : before.retries < limit) :
      Moves limit before after external

/-- What is used up never counts for more than the takeovers that are to come. -/
private theorem limit_le {limit : Nat} {account : Account}
    (some : account.waiting + account.unsettled ≠ 0) :
    limit ≤ (limit + 1) * account.waiting + limit * account.unsettled := by
  by_cases none : account.waiting = 0
  · have there : 1 ≤ account.unsettled := by omega
    have enough := Nat.mul_le_mul_left limit there
    omega
  · have there : 1 ≤ account.waiting := by omega
    have enough := Nat.mul_le_mul_left (limit + 1) there
    omega

/-- Each move is paid for by its external starts, each with a whole budget of retries. -/
theorem Moves.pays {limit external : Nat} {before after : Account}
    (moves : Moves limit before after external) :
    after.begun + after.prospect limit ≤
      before.begun + before.prospect limit + external * (1 + limit) := by
  have enough : before.waiting + before.unsettled ≠ 0 →
      limit ≤ (limit + 1) * before.waiting + limit * before.unsettled := limit_le
  have nothing : before.waiting + before.unsettled = 0 →
      (limit + 1) * before.waiting + limit * before.unsettled = 0 := by
    intro none
    obtain ⟨waiting, unsettled⟩ := Nat.add_eq_zero_iff.1 none
    rw [waiting, unsettled]
    rfl
  unfold prospect
  cases moves with
  | rests begun waiting unsettled retries =>
      have waits := Nat.mul_le_mul_left (limit + 1) waiting
      have settles := Nat.mul_le_mul_left limit unsettled
      split <;> split <;> omega
  | reported begun waiting unsettled retries =>
      have waits := Nat.mul_le_mul_left (limit + 1) waiting
      have settles := Nat.mul_le_mul_left limit unsettled
      simp only [Nat.mul_add, Nat.mul_one] at waits
      split <;> split <;> omega
  | asked begun waiting unsettled retries =>
      have waits := Nat.mul_le_mul_left (limit + 1) waiting
      have settles := Nat.mul_le_mul_left limit unsettled
      simp only [Nat.mul_add, Nat.mul_one] at settles
      split <;> split <;> omega
  | taken begun waiting unsettled retries =>
      have waits := Nat.mul_le_mul_left (limit + 1) waiting
      have settles := Nat.mul_le_mul_left limit unsettled
      simp only [Nat.mul_add, Nat.mul_one] at waits settles
      split <;> split <;> omega
  | settled begun waiting unsettled =>
      have waits := Nat.mul_le_mul_left (limit + 1) waiting
      have settles := Nat.mul_le_mul_left limit unsettled
      simp only [Nat.mul_add, Nat.mul_one] at settles
      split <;> split <;> omega
  | retried begun waiting unsettled retries within =>
      have waits := Nat.mul_le_mul_left (limit + 1) waiting
      have settles := Nat.mul_le_mul_left limit unsettled
      simp only [Nat.mul_add, Nat.mul_one] at waits settles
      split <;> split <;> omega

end Account

/-! ## Retries that are to be queued -/

/-- What a retry has under way. -/
inductive Pushing (node : Address) : Script Outcome → Prop
  | counting {rest : Bool → Script Outcome} (queued : rest true = .done .nothing)
      (refused : rest false = .effect .discountReport fun _ => .done .nothing) :
      Pushing node (.effect .countReport fun _ => .effect (.enqueue node) rest)
  | queueing {rest : Bool → Script Outcome} (queued : rest true = .done .nothing)
      (refused : rest false = .effect .discountReport fun _ => .done .nothing) :
      Pushing node (.effect (.enqueue node) rest)
  | refused : Pushing node (.effect .discountReport fun _ => .done .nothing)
  | ended : Pushing node (.done .nothing)

theorem Duty.Underway.pushing {settings : Settings} {allowed : Act → Prop} {script : Script Outcome}
    {node : Address} (underway : (Duty.push node).Underway settings allowed script) :
    Pushing node script := by
  induction underway with
  | begun => exact .counting rfl rfl
  | replied _ _ _ inductionHypothesis => cases inductionHypothesis
  | acted result _ _ inductionHypothesis =>
      cases inductionHypothesis with
      | counting queued refused => exact .queueing queued refused
      | queueing queued refused =>
          cases result with
          | true => exact queued ▸ .ended
          | false => exact refused ▸ .refused
      | refused => exact .ended
  | round takesOver => cases takesOver

/-- The node that a retry is for. -/
def Role.retries? : Role → Option Address
  | .retry _ node _ => some node
  | _ => none

/-- The script has come to its end. -/
def Task.isDone (task : Task) : Bool :=
  match task.work with
  | some ⟨.done _, _⟩ => true
  | _ => false

/-- 1 for a retry of the node that has not queued it. -/
def Task.waits (node : Address) (task : Task) : Nat :=
  if task.role.retries? = some node ∧ task.ended = false ∧ task.isDone = false then 1 else 0

section Waits

variable {settings : Settings} {allowed : Act → Prop} {node : Address} {task later : Task} {act : Act}

theorem Role.eq_of_retries? {role : Role} (retries : role.retries? = some node) :
    ∃ activation due, role = .retry activation node due := by
  cases role <;> cases retries
  exact ⟨_, _, rfl⟩

theorem Task.waits_of_not (apart : task.role.retries? ≠ some node) : task.waits node = 0 :=
  if_neg fun waits => apart waits.1

theorem Task.waits_le_one (task : Task) : task.waits node ≤ 1 := by
  unfold Task.waits
  split <;> omega

theorem Task.waits_pos : 0 < task.waits node ↔
    task.role.retries? = some node ∧ task.ended = false ∧ task.isDone = false := by
  unfold Task.waits
  split <;> simp [*]

theorem Task.not_isDone (idle : task.work = none) : task.isDone = false := by
  rw [Task.isDone, idle]

/-- A retry waits until it is over, or has queued its node. -/
theorem Task.Goes.waits (goes : task.Goes settings act later) (sound : task.Sound settings allowed) :
    later.waits node ≤ task.waits node := by
  by_contra more
  have atMost : later.waits node ≤ 1 := Task.waits_le_one later
  obtain ⟨retries, lasts, unfinished⟩ := Task.waits_pos.1 (by omega : 0 < later.waits node)
  have before : ¬ (task.role.retries? = some node ∧ task.ended = false ∧ task.isDone = false) := by
    rw [← Task.waits_pos]
    omega
  have unasked (same : later.role = task.role) : task.errands = [] := by
    obtain ⟨_, _, role⟩ := Role.eq_of_retries? (same ▸ retries)
    exact sound.unasked (by rw [role]; rfl)
  have asked {errand : Errand} {rest : List Errand} (errands : task.errands = errand :: rest)
      (same : later.role = task.role) : False := by
    cases errands.symm.trans (unasked same)
  cases goes with
  | started work => exact before ⟨retries, lasts, by rw [Task.isDone, work]⟩
  | replied work reply => exact before ⟨retries, lasts, by rw [Task.isDone, work]⟩
  | acted work result => exact before ⟨retries, lasts, by rw [Task.isDone, work]⟩
  | errandBegun _ _ errands => exact asked errands rfl
  | errandEnded _ _ errands => exact asked errands rfl
  | leadSkipped _ _ errands => exact asked errands rfl
  | drained _ _ _ errands => exact asked errands rfl
  | awaited _ _ errands => exact asked errands rfl
  | awaitedAll _ _ errands => exact asked errands rfl
  | errandRound _ _ errands => exact asked errands rfl
  | roleBegun running idle errands begins =>
      refine before ⟨?_, running, Task.not_isDone idle⟩
      generalize task.role = role at begins
      cases begins <;> exact retries
  | workerRound _ _ _ role => cases (role ▸ retries : (Role.worker _ _ _).retries? = some node)
  | rested _ work _ _ once =>
      obtain ⟨_, _, role⟩ := Role.eq_of_retries? retries
      exact once _ _ _ role
  | pushed => cases lasts
  | closed => cases lasts
  | released => cases lasts
  | abandoned => cases lasts
  | _ => cases retries

/-- A retry that queues a node queues its own, and waits no longer. -/
theorem Task.Goes.pushes {own : Address}
    (goes : task.Goes settings (.deed (.enqueue own) true) later) (sound : task.Sound settings allowed)
    (retries : task.role.retries? = some node) :
    own = node ∧ task.waits node = 1 ∧ later.waits node = 0 := by
  obtain ⟨activation, due, role⟩ := Role.eq_of_retries? retries
  have duty : task.duty = .push node := by
    rw [Task.duty_of_none (sound.unasked (by rw [role]; rfl)), role]
    rfl
  cases goes with
  | acted work result =>
      have running := sound.running work
      have pushing : Pushing node _ := Duty.Underway.pushing (duty ▸ sound.underway _ _ work)
      have waits : task.waits node = 1 := if_pos ⟨retries, running, by rw [Task.isDone, work]⟩
      cases pushing with
      | queueing queued refused =>
          refine ⟨rfl, waits, if_neg fun waits => ?_⟩
          have unfinished := waits.2.2
          rw [queued] at unfinished
          cases unfinished
  | errandBegun _ _ _ begins => cases begins
  | errandEnded _ _ _ ends => cases ends
  | roleBegun _ _ _ begins =>
      generalize task.role = role at begins
      cases begins

end Waits

/-! ## Takeovers that have yet to settle the budget -/

open Classical in
/-- 1 for a takeover of the node that has not settled the budget. -/
noncomputable def Task.unsettled (node : Address) (task : Task) : Nat :=
  if task.at? = some node ∧ ∀ left, ¬ task.Settling node (some left) then 1 else 0

section Unsettled

variable {settings : Settings} {allowed : Act → Prop} {node : Address} {task later : Task} {act : Act}

theorem Task.unsettled_of_away (away : task.at? ≠ some node) : task.unsettled node = 0 :=
  if_neg fun here => away here.1

theorem Task.unsettled_le_one (task : Task) : task.unsettled node ≤ 1 := by
  unfold Task.unsettled
  split <;> omega

theorem Task.unsettled_of_settling {left : Bool} (settling : task.Settling node (some left)) :
    task.unsettled node = 0 :=
  if_neg fun here => here.2 left settling

theorem Act.phase_some (act : Act) (left : Bool) : ∃ other, act.phase (some left) = some other := by
  cases act
  case deed deed result => cases deed <;> exact ⟨_, rfl⟩
  all_goals exact ⟨_, rfl⟩

/-- A takeover stays settled. -/
theorem Task.Goes.unsettled_le (goes : task.Goes settings act later) (spares : act.Spares node)
    (same : later.at? = some node → task.at? = some node) : later.unsettled node ≤ task.unsettled node := by
  by_cases settled : ∃ left, task.Settling node (some left)
  · have none : later.unsettled node = 0 := by
      refine if_neg fun unsettled => ?_
      obtain ⟨left, settling⟩ := settled
      obtain ⟨other, phase⟩ := act.phase_some left
      exact unsettled.2 other (phase ▸ goes.settling spares settling unsettled.1)
    omega
  · by_cases here : later.at? = some node
    · have one : task.unsettled node = 1 := if_pos ⟨same here, not_exists.1 settled⟩
      have atMost : later.unsettled node ≤ 1 := Task.unsettled_le_one later
      omega
    · rw [Task.unsettled_of_away here]
      exact Nat.zero_le _

/-- A takeover that settles the budget had not done so before, and has then. -/
theorem Task.Goes.settles {deed : Effect} {result : deed.Result}
    (goes : task.Goes settings (.deed deed result) later) (sound : task.Sound settings allowed)
    (settles : deed = .forgetRetries node ∨ deed = .scheduleRetry node)
    (law : task.at? = some node → ∃ phase, task.Settling node phase) :
    task.unsettled node = 1 ∧ later.unsettled node = 0 := by
  have settling : deed.settles = true := by rcases settles with rfl | rfl <;> rfl
  have takesOver : task.duty.node? = some node := by
    have may := sound.may goes.effect?
    rcases settles with rfl | rfl <;> exact may
  have unsettled : ∀ left, ¬ task.Settling node (some left) := by
    intro left settled
    cases settling.symm.trans (settled.not_settles goes.effect?)
  obtain ⟨next, _, work⟩ := Task.work_of_effect? goes.effect?
  have here : task.at? = some node := (Task.at?_of_work work).trans takesOver
  refine ⟨if_pos ⟨here, unsettled⟩, ?_⟩
  by_cases still : later.at? = some node
  · obtain ⟨phase, before⟩ := law here
    have after := goes.settling (fun same => nomatch same) before still
    cases phase with
    | some left => exact absurd before (unsettled left)
    | none =>
        rcases settles with rfl | rfl
        · exact Task.unsettled_of_settling after
        · exact Task.unsettled_of_settling after
  · exact Task.unsettled_of_away still

end Unsettled

/-! ## The budget -/

namespace State

variable {state next shared : State} {event : Event} {id : TaskId} {node : Address} {task later : Task}
  {act : Act} {draw : Nat}

theorem retriesOf_congr {other : State} (same : other.retries.find? node = state.retries.find? node) :
    other.retriesOf node = state.retriesOf node := by
  rw [retriesOf, retriesOf, same]

/-- The budget of a node is touched only by an effect that settles it. -/
theorem Takes.budget (takes : state.Takes id event act shared)
    (apart : ∀ deed, act.deed? = some deed → deed ≠ .forgetRetries node ∧ deed ≠ .scheduleRetry node) :
    shared.retries.find? node = state.retries.find? node := by
  cases takes with
  | @deed deed result after wall draw happened =>
      obtain ⟨notForgets, notSchedules⟩ := apart deed rfl
      cases deed
      case forgetRetries own =>
        have other : own ≠ node := fun same => notForgets (congrArg Effect.forgetRetries same)
        cases happened
        exact (Table.find?_erase _ _ _).trans (if_neg other)
      case scheduleRetry own =>
        have other : own ≠ node := fun same => notSchedules (congrArg Effect.scheduleRetry same)
        have inserted : ∀ count, (state.retries.insert (own, count)).find? node = state.retries.find? node :=
          fun count => (Table.find?_insert _ _ _).trans (if_neg other)
        obtain ⟨_, rfl⟩ := afterEffect_scheduleRetry happened
        cases active : state.group with
        | none => rw [scheduleRetry_of_standby active]
        | some group =>
            by_cases exceeded : state.retriesOf own + 1 > state.settings.retryLimit
            · rw [scheduleRetry_of_exceeded active exceeded]
              exact inserted _
            · rw [scheduleRetry_of_within active exceeded]
              exact inserted _
      case enqueue own =>
        obtain ⟨_, rfl, _⟩ | ⟨_, rfl, _⟩ := afterEffect_enqueue happened <;> rfl
      all_goals
        cases happened
        rfl
  | changeEnd leader =>
      obtain ⟨_, _, _, _, _, _, same⟩ := changeMode_eq state leader
      rw [same]
  | _ => rfl

/-- How the budget of a node is used up, where a retry is to be scheduled. -/
inductive Schedules (state : State) (node : Address) : State → Prop
  | standby (standby : state.group = none) : Schedules state node state
  | exceeded {after : State} (tasks : after.tasks = state.tasks) : Schedules state node after
  | within {after : State} (activation due : Nat) (within : state.retriesOf node < state.settings.retryLimit)
      (counted : after.retriesOf node = state.retriesOf node + 1)
      (tasks : after.tasks = state.tasks ++ [.fresh (.retry activation node due) []]) :
      Schedules state node after

theorem schedules (state : State) (node : Address) (draw : Nat) :
    state.Schedules node (state.scheduleRetry node draw) := by
  cases active : state.group with
  | none =>
      rw [scheduleRetry_of_standby active]
      exact .standby active
  | some group =>
      by_cases exceeded : state.retriesOf node + 1 > state.settings.retryLimit
      · rw [scheduleRetry_of_exceeded active exceeded]
        exact .exceeded rfl
      · rw [scheduleRetry_of_within active exceeded]
        refine .within group.activation _ (by omega) ?_ rfl
        rw [retriesOf, spawn, Table.find?_insert, if_pos (by rfl)]
        rfl

/-- On standby a retry that is to be scheduled changes nothing. -/
theorem Takes.eq_of_standby {result : (Effect.scheduleRetry node).Result}
    (takes : state.Takes id event (.deed (.scheduleRetry node) result) shared) (standby : state.group = none) :
    shared = state := by
  cases takes with
  | deed wall draw happened =>
      obtain ⟨_, rfl⟩ := afterEffect_scheduleRetry happened
      exact scheduleRetry_of_standby standby

theorem Takes.schedules {result : (Effect.scheduleRetry node).Result}
    (takes : state.Takes id event (.deed (.scheduleRetry node) result) shared) :
    state.Schedules node shared := by
  cases takes with
  | deed wall draw happened =>
      obtain ⟨_, rfl⟩ := afterEffect_scheduleRetry happened
      exact state.schedules node draw

end State

/-! ## The account of a node -/

def Occurrence.begins (node : Address) : Occurrence → Bool
  | .began _ other => other == node
  | _ => false

namespace State

/-- How many takeovers of the node began. -/
def begun (node : Address) (state : State) : Nat := state.log.countP (Occurrence.begins node)

/-- How often the node is in the queue, and how many of its retries are to queue it. -/
def waiting (node : Address) (state : State) : Nat :=
  state.queue.count node + state.total (Task.waits node)

/-- The account of a node. -/
noncomputable def account (node : Address) (state : State) : Account where
  begun := state.begun node
  waiting := state.waiting node
  unsettled := state.total (Task.unsettled node)
  retries := state.retriesOf node

/-- 1 for an event that is an external start of takeovers of the node: it queues the node for a
report that is no retry, or begins a takeover that was asked for. -/
def externals (node : Address) (state : State) : Event → Nat
  | .effect id _ _ => match state.task? id with
      | some task =>
          if task.effect? = some (.enqueue node) ∧ task.role.retries? ≠ some node then 1 else 0
      | none => 0
  | .proceed id => match state.task? id with
      | some task =>
          if task.ended = false ∧ task.work.isNone = true ∧ task.errands.head? = some (.takeOver node) ∧
            state.holder = none then 1 else 0
      | none => 0
  | _ => 0

/-- Every takeover of the node is before or after settling the budget. -/
def Settles (node : Address) (state : State) : Prop :=
  ∀ {id task}, state.task? id = some task → task.at? = some node → ∃ phase, task.Settling node phase

end State

/-! ## Steps -/

section Steps

variable {settings : Settings} {allowed : Act → Prop} {node : Address} {act : Act} {task later : Task}

/-- Only a takeover that begins brings a task to a node where it was not. -/
theorem Act.Brings.same {before after : Option Address} (brings : act.Brings before after)
    (here : after = some node) (notTake : act ≠ .take node) (notBegin : act ≠ .begin node) :
    before = some node := by
  subst here
  cases act
  case take own =>
    cases brings.2
    exact absurd rfl notTake
  case begin own =>
    cases brings.2
    exact absurd rfl notBegin
  case finish => cases brings.2
  case abandon => cases brings
  all_goals exact brings.symm

/-- A takeover that was asked for is the first errand of its task. -/
theorem Task.Goes.asked (goes : task.Goes settings (.begin node) later) :
    task.ended = false ∧ task.work = none ∧ ∃ rest, task.errands = .takeOver node :: rest := by
  cases goes with
  | errandBegun running idle errands begins =>
      cases begins
      exact ⟨running, idle, _, errands⟩
  | errandEnded _ _ _ ends => cases ends
  | roleBegun _ _ _ begins =>
      generalize task.role = role at begins
      cases begins

theorem Task.waits_told {role : Role} (told : task.role.Told role) :
    Task.waits node { task with role := role } = task.waits node := by
  have retries : role.retries? = task.role.retries? := by
    generalize task.role = before at told
    cases told <;> rfl
  unfold Task.waits
  rw [retries]
  rfl

open Classical in
theorem Task.unsettled_told {role : Role} (told : task.role.Told role) :
    Task.unsettled node { task with role := role } = task.unsettled node := by
  have settling : ∀ left, Task.Settling node (some left) { task with role := role } ↔
      task.Settling node (some left) := by
    intro left
    unfold Task.Settling
    rw [Task.duty_told told]
  exact if_congr (and_congr (by rw [Task.at?_told told]) (forall_congr' fun left => not_congr (settling left)))
    rfl rfl

theorem Task.unsettled_fresh (role : Role) (errands : List Errand) :
    (Task.fresh role errands).unsettled node = 0 := Task.unsettled_of_away nofun

end Steps

theorem Task.Settling.of_same {node : Address} {phase : Option Bool} {task later : Task}
    (settling : task.Settling node phase) (work : later.work = task.work)
    (errands : later.errands = task.errands) (role : later.role = task.role ∨ task.role.Told later.role) :
    later.Settling node phase := by
  unfold Task.Settling at settling ⊢
  rwa [work, Task.duty_of_same errands role]

open State in
theorem Happens.settles {state next : State} {event : Event} {node : Address}
    (happens : Happens state event next) (heeds : state.Heeds (Act.Spares node) event)
    (settles : state.Settles node) : next.Settles node := by
  intro id later found here
  rcases happens.of_task? found with ⟨task, act, shared, _, before, goes, takes⟩ | idle |
    ⟨task, before, _, work, errands, role⟩
  · by_cases was : task.at? = some node
    · obtain ⟨phase, settling⟩ := settles before was
      exact ⟨_, goes.settling (heeds _ _ _ _ _ before goes takes) settling here⟩
    · exact ⟨none, goes.unsettled was here⟩
  · cases (Task.at?_of_idle idle).symm.trans here
  · have was : task.at? = some node := by
      rw [← here, Task.at?, Task.at?, work, Task.duty_of_same errands role]
    obtain ⟨phase, settling⟩ := settles before was
    exact ⟨phase, settling.of_same work errands role⟩

namespace State

section Moved

variable {state shared : State} {event : Event} {allowed : Act → Prop} {id : TaskId} {node : Address}
  {task later : Task} {act : Act}

/-- A checker that is cut off weighs nothing. -/
theorem Sound.light (sound : state.Sound allowed) (group : Group) (checker : Task)
    (active : state.group = some group) (found : state.task? group.checker = some checker) :
    checker.waits node = checker.close.waits node ∧ checker.unsettled node = checker.close.unsettled node := by
  have checks := sound.checks active found
  have away : checker.at? ≠ some node := by
    rw [((sound.tasks found).of_checks checks).1]
    nofun
  obtain ⟨_, _, role⟩ := checks
  constructor
  · have apart : checker.role.retries? ≠ some node := by
      rw [role]
      nofun
    exact (Task.waits_of_not apart).trans (if_neg fun waits => apart waits.1).symm
  · have closed : checker.close.at? = none := rfl
    exact (Task.unsettled_of_away away).trans (Task.unsettled_of_away (by rw [closed]; nofun)).symm

/-- What a task that moves leaves for the account of a node. -/
structure Leaves (state : State) (node : Address) (act : Act) (id : TaskId) (task later : Task)
    (shared : State) : Prop where
  begun : (shared.setTask id later).begun node =
    (act.notes id).countP (Occurrence.begins node) + state.begun node
  queue : (shared.setTask id later).queue = act.queue state.queue
  waits : (shared.setTask id later).total (Task.waits node) + task.waits node =
    shared.total (Task.waits node) + later.waits node
  /-- Nothing comes up that waits, but a retry. -/
  raised : act.deed? ≠ some (.scheduleRetry node) →
    shared.total (Task.waits node) = state.total (Task.waits node)
  unsettled : (shared.setTask id later).total (Task.unsettled node) + task.unsettled node =
    state.total (Task.unsettled node) + later.unsettled node
  retries : (∀ deed, act.deed? = some deed → deed ≠ .forgetRetries node ∧ deed ≠ .scheduleRetry node) →
    (shared.setTask id later).retriesOf node = state.retriesOf node

theorem Takes.leaves (takes : state.Takes id event act shared) (found : state.task? id = some task)
    (sound : state.Sound allowed) : state.Leaves node act id task later shared where
  begun := by
    have log : (shared.setTask id later).log = act.notes id ++ state.log := takes.log
    rw [State.begun, log, List.countP_append]
    rfl
  queue := takes.queue
  waits := takes.total_setTask found fun group checker active known =>
    (sound.light group checker active known).1
  raised := by
    intro apart
    have light : ∀ group checker, state.group = some group → state.task? group.checker = some checker →
        checker.waits node = checker.close.waits node := fun group checker active known =>
      (sound.light group checker active known).1
    obtain ⟨raised, fresh, total⟩ := takes.total light
    have none : (raised.map (Task.waits node)).sum = 0 := by
      refine List.sum_eq_zero fun weight member => ?_
      obtain ⟨one, there, rfl⟩ := List.mem_map.1 member
      obtain ⟨role, rfl, comesUp⟩ := fresh one there
      refine Task.waits_of_not ?_
      cases comesUp with
      | retry activation own due =>
          exact fun same => apart (congrArg (some ∘ Effect.scheduleRetry) (Option.some.inj same))
      | _ => nofun
    rw [total, none, Nat.add_zero]
  unsettled := by
    have light : ∀ group checker, state.group = some group → state.task? group.checker = some checker →
        checker.unsettled node = checker.close.unsettled node := fun group checker active known =>
      (sound.light group checker active known).2
    obtain ⟨raised, fresh, total⟩ := takes.total light
    have none : (raised.map (Task.unsettled node)).sum = 0 := by
      refine List.sum_eq_zero fun weight member => ?_
      obtain ⟨one, there, rfl⟩ := List.mem_map.1 member
      obtain ⟨role, rfl, _⟩ := fresh one there
      exact Task.unsettled_fresh role []
    rw [takes.total_setTask found light, total, none, Nat.add_zero]
  retries := fun apart => retriesOf_congr (takes.budget apart)

/-- A move that neither begins a takeover of the node nor touches its budget. -/
theorem Leaves.rests (leaves : state.Leaves node act id task later shared)
    (goes : task.Goes state.settings act later) (own : task.Sound state.settings allowed)
    (spares : act.Spares node) (notTake : act ≠ .take node) (notBegin : act ≠ .begin node)
    (leavesBudget : ∀ deed, act.deed? = some deed → deed ≠ .forgetRetries node ∧ deed ≠ .scheduleRetry node)
    (queue : (act.queue state.queue).count node ≤ state.queue.count node) {external : Nat} :
    (state.account node).Moves state.settings.retryLimit ((shared.setTask id later).account node)
      external := by
  have silent : (act.notes id).countP (Occurrence.begins node) = 0 := by
    cases act
    case take other => simpa [Act.notes, Occurrence.begins] using fun same => notTake (congrArg Act.take same)
    case begin other => simpa [Act.notes, Occurrence.begins] using fun same => notBegin (congrArg Act.begin same)
    case deed deed result =>
      cases deed
      case enqueue own => cases result <;> rfl
      all_goals rfl
    all_goals rfl
  refine .rests ?_ ?_ ?_ (leaves.retries leavesBudget)
  · exact leaves.begun.trans (by rw [silent, Nat.zero_add]; rfl)
  · have raised := leaves.raised fun same => (leavesBudget _ same).2 rfl
    have waits := leaves.waits
    have less : later.waits node ≤ task.waits node := goes.waits own
    simp only [account, waiting, leaves.queue]
    omega
  · have unsettled := leaves.unsettled
    have less : later.unsettled node ≤ task.unsettled node :=
      goes.unsettled_le spares fun here => (goes.at? own).same here notTake notBegin
    simp only [account]
    omega

theorem Leaves.taken (leaves : state.Leaves node (.take node) id task later shared)
    (goes : task.Goes state.settings (.take node) later) (own : task.Sound state.settings allowed)
    (first : state.queue = node :: state.queue.tail) {external : Nat} :
    (state.account node).Moves state.settings.retryLimit ((shared.setTask id later).account node)
      external := by
  refine .taken ?_ ?_ ?_ (leaves.retries nofun)
  · refine leaves.begun.trans ?_
    simp [Act.notes, Occurrence.begins, account, Nat.add_comm]
  · have raised := leaves.raised nofun
    have waits := leaves.waits
    have less : later.waits node ≤ task.waits node := goes.waits own
    have queued : state.queue.count node = state.queue.tail.count node + 1 := by
      rw [first, List.count_cons_self, List.tail_cons]
    simp only [account, waiting, leaves.queue, Act.queue]
    omega
  · have unsettled := leaves.unsettled
    have atMost : later.unsettled node ≤ 1 := Task.unsettled_le_one later
    simp only [account]
    omega

theorem Leaves.asked (leaves : state.Leaves node (.begin node) id task later shared)
    (goes : task.Goes state.settings (.begin node) later) (own : task.Sound state.settings allowed) :
    (state.account node).Moves state.settings.retryLimit ((shared.setTask id later).account node) 1 := by
  refine .asked ?_ ?_ ?_ (leaves.retries nofun)
  · refine leaves.begun.trans ?_
    simp [Act.notes, Occurrence.begins, account, Nat.add_comm]
  · have raised := leaves.raised nofun
    have waits := leaves.waits
    have less : later.waits node ≤ task.waits node := goes.waits own
    simp only [account, waiting, leaves.queue, Act.queue]
    omega
  · have unsettled := leaves.unsettled
    have atMost : later.unsettled node ≤ 1 := Task.unsettled_le_one later
    simp only [account]
    omega

/-- A retry that is queued goes on waiting, in the queue. -/
theorem Leaves.queued (leaves : state.Leaves node (.deed (.enqueue node) true) id task later shared)
    (goes : task.Goes state.settings (.deed (.enqueue node) true) later)
    (own : task.Sound state.settings allowed) :
    (state.account node).Moves state.settings.retryLimit ((shared.setTask id later).account node)
      (if task.role.retries? ≠ some node then 1 else 0) := by
  have raised := leaves.raised nofun
  have waits := leaves.waits
  have unsettled := leaves.unsettled
  have kept : later.unsettled node ≤ task.unsettled node :=
    goes.unsettled_le nofun fun here => (goes.at? own).same here nofun nofun
  have retries := leaves.retries (by rintro _ ⟨⟩; exact ⟨nofun, nofun⟩)
  by_cases isRetry : task.role.retries? = some node
  · obtain ⟨_, before, after⟩ := goes.pushes own isRetry
    rw [if_neg (not_not.2 isRetry)]
    refine .rests (leaves.begun.trans (Nat.zero_add _)) ?_ ?_ retries
    · simp only [account, waiting, leaves.queue, Act.queue, List.count_append, List.count_singleton_self]
      omega
    · simp only [account]
      omega
  · rw [if_pos isRetry]
    have less : later.waits node ≤ task.waits node := goes.waits own
    refine .reported (leaves.begun.trans (Nat.zero_add _)) ?_ ?_ retries
    · simp only [account, waiting, leaves.queue, Act.queue, List.count_append, List.count_singleton_self]
      omega
    · simp only [account]
      omega

/-- An effect that settles the budget, with how much waits afterwards. -/
theorem Leaves.settled {deed : Effect} {result : deed.Result}
    (leaves : state.Leaves node (.deed deed result) id task later shared)
    (goes : task.Goes state.settings (.deed deed result) later) (own : task.Sound state.settings allowed)
    (settles : deed = .forgetRetries node ∨ deed = .scheduleRetry node)
    (law : task.at? = some node → ∃ phase, task.Settling node phase) :
    ((shared.setTask id later).account node).begun = (state.account node).begun ∧
      ((shared.setTask id later).account node).waiting ≤
        state.queue.count node + shared.total (Task.waits node) ∧
      ((shared.setTask id later).account node).unsettled + 1 ≤ (state.account node).unsettled := by
  obtain ⟨before, after⟩ := goes.settles own settles law
  have waits := leaves.waits
  have less : later.waits node ≤ task.waits node := goes.waits own
  have unsettled := leaves.unsettled
  have kinds : ((Act.deed deed result).notes id).countP (Occurrence.begins node) = 0 ∧
      (Act.deed deed result).queue state.queue = state.queue := by
    rcases settles with rfl | rfl <;> exact ⟨rfl, rfl⟩
  refine ⟨leaves.begun.trans (by rw [kinds.1, Nat.zero_add]; rfl), ?_, ?_⟩
  · simp only [account, waiting, leaves.queue, kinds.2]
    omega
  · simp only [account]
    omega

theorem Leaves.forgot {result : (Effect.forgetRetries node).Result}
    (leaves : state.Leaves node (.deed (.forgetRetries node) result) id task later shared)
    (goes : task.Goes state.settings (.deed (.forgetRetries node) result) later)
    (own : task.Sound state.settings allowed)
    (law : task.at? = some node → ∃ phase, task.Settling node phase) {external : Nat} :
    (state.account node).Moves state.settings.retryLimit ((shared.setTask id later).account node)
      external := by
  obtain ⟨begun, waiting, unsettled⟩ := leaves.settled goes own (.inl rfl) law
  rw [leaves.raised nofun] at waiting
  exact .settled begun waiting unsettled

theorem Leaves.scheduled {result : (Effect.scheduleRetry node).Result}
    (leaves : state.Leaves node (.deed (.scheduleRetry node) result) id task later shared)
    (goes : task.Goes state.settings (.deed (.scheduleRetry node) result) later)
    (own : task.Sound state.settings allowed)
    (law : task.at? = some node → ∃ phase, task.Settling node phase)
    (schedules : state.Schedules node shared) {external : Nat} :
    (state.account node).Moves state.settings.retryLimit ((shared.setTask id later).account node)
      external := by
  obtain ⟨begun, waiting, unsettled⟩ := leaves.settled goes own (.inr rfl) law
  cases schedules with
  | standby _ => exact .settled begun waiting unsettled
  | exceeded tasks =>
      have same : shared.total (Task.waits node) = state.total (Task.waits node) := by
        rw [State.total, tasks, State.total]
      rw [same] at waiting
      exact .settled begun waiting unsettled
  | within activation due within counted tasks =>
      have one : (Task.fresh (.retry activation node due) []).waits node = 1 := if_pos ⟨rfl, rfl, rfl⟩
      have more : shared.total (Task.waits node) = state.total (Task.waits node) + 1 := by
        rw [State.total, tasks, List.map_append, List.sum_append, List.map_singleton,
          List.sum_singleton, one, State.total]
      rw [more, ← Nat.add_assoc] at waiting
      exact .retried begun waiting unsettled counted within

end Moved

end State

open State in
/-- Every event moves the account of a node, with as many external starts as it is. -/
theorem Happens.account {state next : State} {event : Event} {allowed : Act → Prop} {node : Address}
    (happens : Happens state event next) (sound : state.Sound allowed)
    (heeds : state.Heeds (Act.Spares node) event) (settles : state.Settles node) :
    (state.account node).Moves state.settings.retryLimit (next.account node)
      (state.externals node event) := by
  cases happens with
  | @spawned _ role errands _ outside =>
      have waits : (state.spawn (.fresh role errands)).total (Task.waits node) =
          state.total (Task.waits node) := by
        rw [total_spawn, Task.waits_of_not (by cases outside <;> nofun), Nat.add_zero]
      have unsettled : (state.spawn (.fresh role errands)).total (Task.unsettled node) =
          state.total (Task.unsettled node) := by
        rw [total_spawn, Task.unsettled_fresh, Nat.add_zero]
      exact .rests rfl (congrArg (state.queue.count node + ·) waits).le unsettled.le rfl
  | @told _ id task role _ found told =>
      have waits : (state.setTask id { task with role := role }).total (Task.waits node) =
          state.total (Task.waits node) := total_setTask_of_eq found (Task.waits_told told)
      have unsettled : (state.setTask id { task with role := role }).total (Task.unsettled node) =
          state.total (Task.unsettled node) := total_setTask_of_eq found (Task.unsettled_told told)
      exact .rests rfl (congrArg (state.queue.count node + ·) waits).le unsettled.le rfl
  | @moved _ id task later act shared found goes takes =>
      have own := sound.tasks found
      have spares := heeds _ _ _ _ _ found goes takes
      have law := settles found
      have leaves : state.Leaves node act id task later shared := takes.leaves found sound
      cases act
      case deed deed result =>
        cases deed
        case enqueue other =>
          by_cases same : result = true ∧ other = node
          · obtain ⟨rfl, rfl⟩ := same
            have external : state.externals other event = if task.role.retries? ≠ some other then 1 else 0 := by
              cases takes
              simp [externals, found, goes.effect?]
            exact external ▸ leaves.queued goes own
          · refine leaves.rests goes own spares (by simp) (by simp) (by simp [Act.deed?]) ?_
            cases result with
            | true => simp [Act.queue, show other ≠ node from fun here => same ⟨rfl, here⟩]
            | false => exact Nat.le_refl _
        case forgetRetries other =>
          by_cases same : other = node
          · subst same
            exact leaves.forgot goes own law
          · exact leaves.rests goes own spares (by simp) (by simp) (by simp [Act.deed?, same]) (Nat.le_refl _)
        case scheduleRetry other =>
          by_cases same : other = node
          · subst same
            exact leaves.scheduled goes own law takes.schedules
          · exact leaves.rests goes own spares (by simp) (by simp) (by simp [Act.deed?, same]) (Nat.le_refl _)
        all_goals
          exact leaves.rests goes own spares (by simp) (by simp) (by simp [Act.deed?]) (Nat.le_refl _)
      case take other =>
        by_cases same : other = node
        · subst same
          refine leaves.taken goes own ?_
          cases takes with
          | take active first => rw [first, List.tail_cons]
        · exact leaves.rests goes own spares (by simp [same]) (by simp) (by simp [Act.deed?])
            (List.Sublist.count_le _ (List.tail_sublist _))
      case begin other =>
        by_cases same : other = node
        · subst same
          have external : state.externals other event = 1 := by
            obtain ⟨running, idle, rest, errands⟩ := goes.asked
            cases takes with
            | begin _ free => simp [externals, found, running, idle, errands, free]
          exact external ▸ leaves.asked goes own
        · exact leaves.rests goes own spares (by simp) (by simp [same]) (by simp [Act.deed?])
            (Nat.le_refl _)
      all_goals exact leaves.rests goes own spares (by simp) (by simp) (by simp [Act.deed?]) (Nat.le_refl _)
  | passed millis => exact .rests rfl (Nat.le_refl _) (Nat.le_refl _) rfl
  | written entry wall => exact .rests rfl (Nat.le_refl _) (Nat.le_refl _) rfl

end Handover.Coordinator
