import Handover.Coordinator.Step

/-!
Contract: a script that is played on its own, with nothing between its calls.

What comes from outside with a call or an effect is a chance: who weighs, which
calls are refused and how they are told so, what the clock shows, what is drawn.
A law about all chances is a law about every pattern of refusals.

Owns: chances, sessions, playing a script; the record of the calls that were made,
which tells what the collaborators hold afterwards; and the rules by which a law
about a script is put together from laws about its parts.

Does not own: what other tasks do meanwhile. `Coordinator.State.step` leaves the
order of events open; `Handover.Proofs.Alone` says that a played script is one of
its runs.
-/

set_option autoImplicit false

namespace Handover

open Coordinator (TaskId State)

/-- What comes from outside with one call or effect. -/
structure Chance where
  weigher : Weigher
  /-- The text with which a call is refused, if it is. -/
  refused : Call → Option String
  wall : Time.Instant
  draw : Nat

namespace Chance

/-- The refusal of a call; some calls cannot be refused. -/
def refusal (chance : Chance) (request : Call) : Option String :=
  if request.refusable then chance.refused request else none

/-- The shares that a call is answered with, if it is a demand. -/
def shares (chance : Chance) : Call → Option Shares
  | .weigh demand => chance.weigher demand
  | _ => none

end Chance

/-- The chances in the order in which they are met. -/
abbrev Chances := Nat → Chance

/-- Nothing is refused, and nobody weighs. -/
def Chances.calm : Chances := fun _ => ⟨.none, fun _ => none, ⟨0, 0⟩, 0⟩

/-- A call that was made, and the text with which it was refused, if it was. -/
abbrev Made := Call × Option String

structure Session where
  state : State
  /-- How many chances were met. -/
  turn : Nat
  /-- The calls that were made, in order. -/
  calls : List Made

namespace Session

def opening (state : State) : Session := ⟨state, 0, []⟩

@[reducible] def world (session : Session) : World := session.state.world

/-- The session after a call that leaves the collaborators with `world`. -/
def afterCall (session : Session) (id : TaskId) (request : Call) (refused : Option String)
    (world : World) : Session where
  state := { session.state.note (.called id request) with world := world }
  turn := session.turn + 1
  calls := session.calls ++ [(request, refused)]

/-- The reply to a call by the next chance, and the session after it. -/
def answer (session : Session) (id : TaskId) (chances : Chances) (request : Call) :
    request.Reply × Session :=
  let chance := chances session.turn
  match session.world.reply chance.weigher request (chance.refused request) with
  | (reply, world) => (reply, session.afterCall id request (chance.refusal request) world)

end Session

/-- Plays a script to its end. An effect that cannot happen now keeps it from ending. -/
def Script.play (id : TaskId) (chances : Chances) {α : Type} :
    Script α → Session → Option (α × Session)
  | .done value, session => some (value, session)
  | .call request next, session =>
      let answered := session.answer id chances request
      (next answered.1).play id chances answered.2
  | .effect deed next, session =>
      let chance := chances session.turn
      (session.state.afterEffect chance.wall chance.draw deed).bind fun (result, state) =>
        (next result).play id chances { session with state := state, turn := session.turn + 1 }

/-! ## What the calls tell -/

namespace World

/-- What the collaborators hold after a call. -/
def afterMade (world : World) : Made → World
  | (request, none) => (world.carryOut .none request).2
  | (_, some _) => world

/-- What the collaborators hold after calls. -/
def replay (world : World) (made : List Made) : World := made.foldl afterMade world

@[simp] theorem replay_nil (world : World) : world.replay [] = world := rfl

theorem replay_append (world : World) (first second : List Made) :
    world.replay (first ++ second) = (world.replay first).replay second := by
  simp [replay]

@[simp] theorem replay_singleton (world : World) (one : Made) :
    world.replay [one] = world.afterMade one := rfl

/-- What every call keeps is kept by all of them. -/
theorem replay_keeps (holds : World → Prop) {made : List Made}
    (keeps : ∀ one ∈ made, ∀ world, holds world → holds (afterMade world one)) {world : World}
    (start : holds world) : holds (world.replay made) := by
  induction made generalizing world with
  | nil => exact start
  | cons one rest inductionHypothesis =>
      exact inductionHypothesis (fun other member => keeps other (List.mem_cons_of_mem _ member))
        (keeps one List.mem_cons_self world start)

/-- Who weighs plays no part in what the collaborators hold. -/
theorem carryOut_snd_weigher (world : World) (left right : Weigher) (request : Call) :
    (world.carryOut left request).2 = (world.carryOut right request).2 := by
  cases request <;> rfl

/-- Of who weighs a call learns no more than the shares that it is answered with. -/
theorem reply_answering (world : World) (chance : Chance) (request : Call) (refused : Option String) :
    world.reply (.answering (chance.shares request)) request refused =
      world.reply chance.weigher request refused := by
  cases request <;> rfl

theorem reply_refused (world : World) (weigher : Weigher) {request : Call}
    (refusable : request.refusable = true) (text : String) :
    world.reply weigher request (some text) = (.error (request.refusal text), world) := by
  simp [reply, refusable]

theorem reply_accepted (world : World) (weigher : Weigher) (request : Call) :
    world.reply weigher request none =
      (.ok (world.carryOut weigher request).1, (world.carryOut weigher request).2) := rfl

theorem reply_snd (world : World) (chance : Chance) (request : Call) :
    (world.reply chance.weigher request (chance.refused request)).2 =
      world.afterMade (request, chance.refusal request) := by
  have carried := carryOut_snd_weigher world chance.weigher .none request
  cases refusable : request.refusable <;> cases refused : chance.refused request <;>
    simp [reply, Chance.refusal, afterMade, refusable, refused, carried]

end World

/-- From `before` to `after` the task made just these calls, and did nothing else
within the coordinator. -/
structure Continues (chances : Chances) (before after : Session) (made : List Made) : Prop where
  calls : after.calls = before.calls ++ made
  world : after.world = before.world.replay made
  /-- Apart from the collaborators and the log the coordinator is as it was. -/
  rest : { after.state with world := before.world, log := before.state.log } = before.state
  /-- A call was refused only where a chance refuses it. -/
  refused : ∀ request text, (request, some text) ∈ made →
    ∃ turn, (chances turn).refused request = some text

namespace Continues

variable {chances : Chances} {before middle after : Session} {first second : List Made}

theorem refl (chances : Chances) (session : Session) : Continues chances session session [] where
  calls := by simp
  world := rfl
  rest := rfl
  refused := by simp

theorem trans (left : Continues chances before middle first)
    (right : Continues chances middle after second) :
    Continues chances before after (first ++ second) where
  calls := by rw [right.calls, left.calls, List.append_assoc]
  world := by rw [right.world, left.world, World.replay_append]
  rest := by
    rw [← left.rest, ← right.rest]
  refused := by
    intro request text member
    rcases List.mem_append.1 member with inFirst | inSecond
    · exact left.refused request text inFirst
    · exact right.refused request text inSecond

/-- A call that no chance refuses was not refused. -/
theorem accepted (continues : Continues chances before after first) {request : Call}
    (unrefused : ∀ turn, (chances turn).refused request = none) (text : String) :
    (request, some text) ∉ first := by
  intro member
  obtain ⟨turn, refused⟩ := continues.refused request text member
  rw [unrefused turn] at refused
  cases refused

section Rest

variable {made : List Made} (continues : Continues chances before after made)

include continues

theorem retries : after.state.retries = before.state.retries := by
  have same := congrArg State.retries continues.rest
  exact same

theorem tasks : after.state.tasks = before.state.tasks := by
  have same := congrArg State.tasks continues.rest
  exact same

theorem group : after.state.group = before.state.group := by
  have same := congrArg State.group continues.rest
  exact same

theorem changing : after.state.changing = before.state.changing := by
  have same := congrArg State.changing continues.rest
  exact same

theorem settings : after.state.settings = before.state.settings := by
  have same := congrArg State.settings continues.rest
  exact same

end Rest

/-- A call extends a session by itself. -/
theorem answer (id : TaskId) (chances : Chances) (session : Session) (request : Call) :
    Continues chances session (session.answer id chances request).2
      [(request, (chances session.turn).refusal request)] where
  calls := rfl
  world := World.reply_snd _ _ _
  rest := rfl
  refused := by
    intro wanted text member
    obtain ⟨rfl, told⟩ := Prod.mk.inj (List.mem_singleton.1 member)
    refine ⟨session.turn, ?_⟩
    unfold Chance.refusal at told
    split at told
    · exact told.symm
    · cases told

end Continues

/-! ## Laws about scripts -/

section Leads

variable (id : TaskId) (chances : Chances)

/-- Played from `session` on, the script comes to its end, and what it ends with,
the calls it made and the session at its end are as `goal` says. -/
def Script.Leads {α : Type} (script : Script α) (session : Session)
    (goal : α → List Made → Session → Prop) : Prop :=
  ∃ value made after, script.play id chances session = some (value, after) ∧
    Continues chances session after made ∧ goal value made after

variable {id chances} {α β : Type}

namespace Script.Leads

theorem mono {script : Script α} {session : Session} {goal weaker : α → List Made → Session → Prop}
    (leads : script.Leads id chances session goal)
    (implies : ∀ value made after, Continues chances session after made →
      goal value made after → weaker value made after) :
    script.Leads id chances session weaker := by
  obtain ⟨value, made, after, played, continues, reached⟩ := leads
  exact ⟨value, made, after, played, continues, implies value made after continues reached⟩

/-- What a law says of a script holds where the script was played. -/
theorem of_play {script : Script α} {session after : Session} {value : α}
    {goal : α → List Made → Session → Prop} (leads : script.Leads id chances session goal)
    (played : script.play id chances session = some (value, after)) :
    ∃ made, Continues chances session after made ∧ goal value made after := by
  obtain ⟨_, made, _, other, continues, reached⟩ := leads
  obtain ⟨rfl, rfl⟩ := Prod.mk.inj (Option.some.inj (other.symm.trans played))
  exact ⟨made, continues, reached⟩

theorem done (value : α) (session : Session) {goal : α → List Made → Session → Prop}
    (reached : goal value [] session) : (Script.done value).Leads id chances session goal :=
  ⟨value, [], session, rfl, .refl chances session, reached⟩

end Script.Leads

theorem Script.play_bind (script : Script α) (later : α → Script β) (session : Session) :
    (script >>= later).play id chances session =
      (script.play id chances session).bind fun (value, after) =>
        (later value).play id chances after := by
  induction script generalizing session with
  | done value => rfl
  | call request next inductionHypothesis => exact inductionHypothesis _ _
  | effect deed next inductionHypothesis =>
      simp only [effect_bind, play]
      cases session.state.afterEffect (chances session.turn).wall (chances session.turn).draw deed with
      | none => rfl
      | some happened => exact inductionHypothesis _ _

namespace Script.Leads

theorem bind {script : Script α} {later : α → Script β} {session : Session}
    {middle : α → List Made → Session → Prop} {goal : β → List Made → Session → Prop}
    (first : script.Leads id chances session middle)
    (second : ∀ value made after, Continues chances session after made → middle value made after →
      (later value).Leads id chances after fun result more last => goal result (made ++ more) last) :
    (script >>= later).Leads id chances session goal := by
  obtain ⟨value, made, after, played, continues, reached⟩ := first
  obtain ⟨result, more, last, playedLater, continuesLater, ended⟩ :=
    second value made after continues reached
  refine ⟨result, made ++ more, last, ?_, continues.trans continuesLater, ended⟩
  rw [Script.play_bind, played]
  exact playedLater

/-- A call is refused or carried out. -/
theorem ask {request : Call} (refusable : request.refusable = true) {session : Session}
    {goal : request.Reply → List Made → Session → Prop}
    (refused : ∀ text after, after.world = session.world →
      goal (.error (request.refusal text)) [(request, some text)] after)
    (accepted : ∀ weigher after, after.world = (session.world.carryOut weigher request).2 →
      goal (.ok (session.world.carryOut weigher request).1) [(request, none)] after) :
    (Script.ask request).Leads id chances session goal := by
  have told : (chances session.turn).refusal request = (chances session.turn).refused request := by
    simp [Chance.refusal, refusable]
  refine ⟨_, _, _, rfl, .answer id chances session request, ?_⟩
  cases outcome : (chances session.turn).refused request with
  | some text =>
      simp only [Session.answer, told, outcome, World.reply_refused _ _ refusable]
      exact refused text _ rfl
  | none =>
      simp only [Session.answer, told, outcome, World.reply_accepted]
      exact accepted _ _ rfl

theorem readClock {session : Session} {goal : Time.Instant → List Made → Session → Prop}
    (read : ∀ moment after, after.state = session.state → goal moment [] after) :
    (Script.act .readClock).Leads id chances session goal := by
  refine ⟨(chances session.turn).wall, [], { session with turn := session.turn + 1 }, rfl, ?_,
    read _ _ rfl⟩
  exact { calls := by simp, world := rfl, rest := rfl, refused := by simp }

/-- A script that cannot break off, as an attempt. -/
theorem of {script : Script α} {session : Session}
    {goal : Except Fault α → List Made → Session → Prop}
    (leads : script.Leads id chances session fun value made after => goal (.ok value) made after) :
    (Attempt.of script).run.Leads id chances session goal := by
  change (script >>= fun value => Script.done (Except.ok value)).Leads id chances session goal
  apply bind leads
  intro value made after _ reached
  exact done _ _ (by simpa using reached)

/-- An attempt goes on where its first part did not break off. -/
theorem attempt {script : Attempt α} {later : α → Attempt β} {session : Session}
    {middle : Except Fault α → List Made → Session → Prop}
    {goal : Except Fault β → List Made → Session → Prop}
    (first : script.run.Leads id chances session middle)
    (broken : ∀ fault made after, middle (.error fault) made after → goal (.error fault) made after)
    (second : ∀ value made after, Continues chances session after made →
      middle (.ok value) made after →
      (later value).run.Leads id chances after fun result more last =>
        goal result (made ++ more) last) :
    (script >>= later).run.Leads id chances session goal := by
  change (script.run >>= ExceptT.bindCont later).Leads id chances session goal
  apply bind first
  intro result made after continues reached
  cases result with
  | ok value => exact second value made after continues reached
  | error fault => exact done _ _ (by simpa using broken fault made after reached)

/-- An attempt that begins with a call breaks off where the call is refused. -/
theorem attemptAsk {request : Call} (refusable : request.refusable = true)
    {later : request.Result → Attempt β} {session : Session}
    {goal : Except Fault β → List Made → Session → Prop}
    (refused : ∀ fault text after, goal (.error fault) [(request, some text)] after)
    (accepted : ∀ weigher after, Continues chances session after [(request, none)] →
      (later (session.world.carryOut weigher request).1).run.Leads id chances after
        fun result more last => goal result ((request, none) :: more) last) :
    (Attempt.ask request >>= later).run.Leads id chances session goal := by
  have asked : (Attempt.ask request).run.Leads id chances session fun result made _ =>
      match result with
      | .ok answer => made = [(request, none)] ∧
          ∃ weigher, answer = (session.world.carryOut weigher request).1
      | .error _ => ∃ text, made = [(request, some text)] :=
    ask refusable (fun text _ _ => ⟨text, rfl⟩) fun weigher _ _ => ⟨rfl, weigher, rfl⟩
  apply attempt asked
  · rintro fault made after ⟨text, rfl⟩
    exact refused fault text after
  · rintro answer made after continues ⟨rfl, weigher, rfl⟩
    exact accepted weigher after continues

/-- An attempt that begins with a script that cannot break off. -/
theorem attemptOf {script : Script α} {later : α → Attempt β} {session : Session}
    {middle : α → List Made → Session → Prop}
    {goal : Except Fault β → List Made → Session → Prop}
    (first : script.Leads id chances session middle)
    (second : ∀ value made after, Continues chances session after made → middle value made after →
      (later value).run.Leads id chances after fun result more last =>
        goal result (made ++ more) last) :
    (Attempt.of script >>= later).run.Leads id chances session goal := by
  have whole : (Attempt.of script).run.Leads id chances session fun result made after =>
      ∃ value, result = .ok value ∧ middle value made after :=
    of (first.mono fun value _ _ _ reached => ⟨value, rfl, reached⟩)
  apply attempt whole
  · rintro fault made after ⟨value, impossible, _⟩
    cases impossible
  · rintro value made after continues ⟨_, same, reached⟩
    cases same
    exact second value made after continues reached

end Script.Leads

end Leads

end Handover
