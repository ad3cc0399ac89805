import Handover.Proofs.Repeats

/-!
Contract: two scripts that are played side by side, each over collaborators of its own.

Owns: the sides, on which nothing is refused and the same weigher answers; what it means that
two scripts stay abreast while the collaborators stay in a relation; and the rules by which
this is put together from their parts.

The sides need not agree in anything else: not in what the clock shows or what is drawn, not in
who plays, and not in what the collaborators hold beyond the relation. So a law about scripts
that stay abreast says what their outcome goes by.
-/

set_option autoImplicit false

namespace Handover

open Coordinator (TaskId State)

/-- Who plays, and by which chances: nothing is refused, and the same weigher always answers. -/
structure Side (weigher : Weigher) where
  id : TaskId
  chances : Chances
  weighed : ∀ turn, (chances turn).weigher = weigher
  unrefused : ∀ turn request, (chances turn).refused request = none

/-- The collaborators are in the relation, and on neither side anybody changes the mode. -/
structure Session.Beside (holds : World → World → Prop) (here there : Session) : Prop where
  worlds : holds here.world there.world
  free : here.state.changing = none
  freeThere : there.state.changing = none

theorem Session.Beside.mono {holds weaker : World → World → Prop} {here there : Session}
    (beside : Session.Beside holds here there) (implies : ∀ here there, holds here there → weaker here there) :
    Session.Beside weaker here there :=
  ⟨implies _ _ beside.worlds, beside.free, beside.freeThere⟩

section Abreast

variable {weigher : Weigher} (first second : Side weigher) (holds : World → World → Prop)

/-- From sessions in the relation on, both scripts come to their end, in sessions that are in the
relation again, and with values as `goal` says. -/
def Script.Abreast {α β : Type} (left : Script α) (right : Script β) (goal : α → β → Prop) : Prop :=
  ∀ here there, Session.Beside holds here there → ∃ value after other afterThere,
    left.play first.id first.chances here = some (value, after) ∧
      right.play second.id second.chances there = some (other, afterThere) ∧
        Session.Beside holds after afterThere ∧ goal value other

/-- Neither attempt breaks off, and their values are as `goal` says. -/
def Attempt.Abreast {α β : Type} (left : Attempt α) (right : Attempt β) (goal : α → β → Prop) : Prop :=
  left.run.Abreast first second holds right.run fun result other =>
    ∃ value valueThere, result = .ok value ∧ other = .ok valueThere ∧ goal value valueThere

variable {first second holds} {α β γ δ : Type}

namespace Script.Abreast

theorem done {value : α} {other : β} {goal : α → β → Prop} (reached : goal value other) :
    (Script.done value).Abreast first second holds (Script.done other) goal :=
  fun here there beside => ⟨value, here, other, there, rfl, rfl, beside, reached⟩

theorem bind {left : Script α} {right : Script β} {later : α → Script γ} {laterThere : β → Script δ}
    {middle : α → β → Prop} {goal : γ → δ → Prop}
    (now : left.Abreast first second holds right middle)
    (then_ : ∀ value other, middle value other →
      (later value).Abreast first second holds (laterThere other) goal) :
    (left >>= later).Abreast first second holds (right >>= laterThere) goal := by
  intro here there beside
  obtain ⟨value, between, other, betweenThere, played, playedThere, besideThen, reached⟩ :=
    now here there beside
  obtain ⟨result, after, resultThere, afterThere, playedLater, playedLaterThere, besideAfter, ended⟩ :=
    then_ value other reached between betweenThere besideThen
  refine ⟨result, after, resultThere, afterThere, ?_, ?_, besideAfter, ended⟩
  · rw [Script.play_bind, played]
    exact playedLater
  · rw [Script.play_bind, playedThere]
    exact playedLaterThere

theorem play_ask (side : Side weigher) (request : Call) (session : Session) :
    ∃ after, (Script.ask request).play side.id side.chances session =
        some (.ok (session.world.carryOut weigher request).1, after) ∧
      after.world = (session.world.carryOut weigher request).2 ∧
        after.state.changing = session.state.changing := by
  have answered : session.answer side.id side.chances request =
      (.ok (session.world.carryOut weigher request).1,
        session.afterCall side.id request ((side.chances session.turn).refusal request)
          (session.world.carryOut weigher request).2) := by
    simp only [Session.answer, side.unrefused, side.weighed, World.reply_accepted]
  have played : (Script.ask request).play side.id side.chances session =
      some (session.answer side.id side.chances request) := rfl
  rw [played, answered]
  exact ⟨_, rfl, rfl, rfl⟩

/-- Two calls that keep the relation and are answered as `goal` says. -/
theorem ask {request requestThere : Call} {goal : request.Reply → requestThere.Reply → Prop}
    (told : ∀ here there, holds here there →
      holds (here.carryOut weigher request).2 (there.carryOut weigher requestThere).2 ∧
        goal (.ok (here.carryOut weigher request).1) (.ok (there.carryOut weigher requestThere).1)) :
    (Script.ask request).Abreast first second holds (Script.ask requestThere) goal := by
  intro here there beside
  obtain ⟨after, played, world, changing⟩ := play_ask first request here
  obtain ⟨afterThere, playedThere, worldThere, changingThere⟩ := play_ask second requestThere there
  obtain ⟨still, reached⟩ := told _ _ beside.worlds
  refine ⟨_, after, _, afterThere, played, playedThere, ⟨?_, ?_, ?_⟩, reached⟩
  · rwa [world, worldThere]
  · rw [changing, beside.free]
  · rw [changingThere, beside.freeThere]

/-- A call that keeps the relation and is answered alike. -/
theorem askAlike {request : Call}
    (told : ∀ here there, holds here there →
      holds (here.carryOut weigher request).2 (there.carryOut weigher request).2 ∧
        (here.carryOut weigher request).1 = (there.carryOut weigher request).1) :
    (Script.ask request).Abreast first second holds (Script.ask request) Eq :=
  ask fun here there worlds => ⟨(told here there worlds).1, congrArg Except.ok (told here there worlds).2⟩

/-- What is done within the coordinator keeps the relation, whatever comes of it. -/
theorem act (deed : Effect) (quiet : ∀ node, deed ≠ .heartbeat node) :
    (Script.act deed).Abreast first second holds (Script.act deed) fun _ _ => True := by
  have acts : ∀ (side : Side weigher) (session : Session), session.state.changing = none →
      ∃ result after, (Script.act deed).play side.id side.chances session = some (result, after) ∧
        after.world = session.world ∧ after.state.changing = none := by
    intro side session free
    obtain ⟨result, state, happened, freeAfter⟩ := State.afterEffect_ends free
      (side.chances session.turn).wall (side.chances session.turn).draw deed
    refine ⟨result, { session with state := state, turn := session.turn + 1 }, ?_, ?_, freeAfter⟩
    · rw [Script.act, Script.play, happened]
      rfl
    · change state.world = session.world
      rw [State.afterEffect_world happened]
      cases deed with
      | heartbeat node => exact absurd rfl (quiet node)
      | _ => rfl
  intro here there beside
  obtain ⟨value, after, played, world, free⟩ := acts first here beside.free
  obtain ⟨other, afterThere, playedThere, worldThere, freeThere⟩ := acts second there beside.freeThere
  refine ⟨value, after, other, afterThere, played, playedThere, ⟨?_, free, freeThere⟩, trivial⟩
  rw [world, worldThere]
  exact beside.worlds

end Script.Abreast

namespace Attempt.Abreast

theorem done {value : α} {other : β} {goal : α → β → Prop} (reached : goal value other) :
    Attempt.Abreast first second holds (pure value) (pure other) goal :=
  Script.Abreast.done ⟨value, other, rfl, rfl, reached⟩

theorem bind {left : Attempt α} {right : Attempt β} {later : α → Attempt γ} {laterThere : β → Attempt δ}
    {middle : α → β → Prop} {goal : γ → δ → Prop}
    (now : left.Abreast first second holds right middle)
    (then_ : ∀ value other, middle value other →
      (later value).Abreast first second holds (laterThere other) goal) :
    (left >>= later).Abreast first second holds (right >>= laterThere) goal := by
  change (left.run >>= ExceptT.bindCont later).Abreast first second holds
    (right.run >>= ExceptT.bindCont laterThere) _
  refine Script.Abreast.bind now ?_
  rintro _ _ ⟨value, other, rfl, rfl, reached⟩
  exact then_ value other reached

theorem ask {request requestThere : Call} {goal : request.Result → requestThere.Result → Prop}
    (told : ∀ here there, holds here there →
      holds (here.carryOut weigher request).2 (there.carryOut weigher requestThere).2 ∧
        goal (here.carryOut weigher request).1 (there.carryOut weigher requestThere).1) :
    (Attempt.ask request).Abreast first second holds (Attempt.ask requestThere) goal :=
  Script.Abreast.ask fun here there worlds =>
    ⟨(told here there worlds).1, _, _, rfl, rfl, (told here there worlds).2⟩

theorem of {left : Script α} {right : Script β} {goal : α → β → Prop}
    (abreast : left.Abreast first second holds right goal) :
    (Attempt.of left).Abreast first second holds (Attempt.of right) goal :=
  Script.Abreast.bind abreast fun _ _ reached => .done ⟨_, _, rfl, rfl, reached⟩

end Attempt.Abreast

end Abreast

end Handover
