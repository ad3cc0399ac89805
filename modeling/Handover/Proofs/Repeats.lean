import Handover.Proofs.Alternation
import Handover.Proofs.Effects
import Handover.Proofs.Spent

/-!
Contract: a takeover that is made again.

Owns: that a takeover always comes to its end while nobody changes the mode; that it leaves
its node alive or done with; and that therefore every further takeover of the node, played
alone or in the midst of a run, changes no store and reports that it did nothing.
-/

set_option autoImplicit false

namespace Handover

open Coordinator (TaskId State Event Act Task Duty Outcome roundOf)

/-! ## Coming to an end -/

section Ends

variable (id : TaskId) (chances : Chances)

/-- Only a retry waits, and only while someone changes the mode. -/
theorem Coordinator.State.afterEffect_ends {state : State} (free : state.changing = none)
    (wall : Time.Instant) (draw : Nat) (deed : Effect) :
    ∃ result after, state.afterEffect wall draw deed = some (result, after) ∧ after.changing = none := by
  cases deed
  case scheduleRetry node =>
    refine ⟨(), state.scheduleRetry node draw, by simp [State.afterEffect, free], ?_⟩
    obtain ⟨_, _, same⟩ := State.scheduleRetry_eq state node draw
    rw [same]
    exact free
  case enqueue node =>
    cases closed : state.closed with
    | true => exact ⟨false, state, by simp [State.afterEffect, closed], free⟩
    | false => exact ⟨true, _, if_neg (by simp [closed]), free⟩
  all_goals exact ⟨_, _, rfl, free⟩

theorem Script.play_ends {α : Type} (script : Script α) {session : Session}
    (free : session.state.changing = none) :
    ∃ value after, script.play id chances session = some (value, after) ∧ after.state.changing = none := by
  induction script generalizing session with
  | done value => exact ⟨value, session, rfl, free⟩
  | call request next inductionHypothesis =>
      have freeThen : (session.answer id chances request).2.state.changing = none := free
      exact inductionHypothesis _ freeThen
  | effect deed next inductionHypothesis =>
      obtain ⟨result, state, happened, freeThen⟩ := State.afterEffect_ends free
        (chances session.turn).wall (chances session.turn).draw deed
      obtain ⟨value, after, played, freeAfter⟩ :=
        @inductionHypothesis result { session with state := state, turn := session.turn + 1 } freeThen
      refine ⟨value, after, ?_, freeAfter⟩
      rw [Script.play, happened]
      exact played

end Ends

namespace Takeover

section Takeovers

variable {id : TaskId} {chances : Chances} {settings : Settings} {node : Address} {session : Session}

/-- The last round comes to its end. -/
theorem closing_ends (id : TaskId) (chances : Chances) (settings : Settings) (node : Address)
    (jobs cache : Tally) (free : session.state.changing = none) :
    ∃ report after, Reaches id chances settings node (.closing jobs cache) session (.finished report) after ∧
      after.state.changing = none ∧ ∃ made, after.world = session.world.replay made ∧
        ∀ one ∈ made, broadcasts one.1 = true := by
  obtain ⟨next, after, played, freeAfter⟩ := Script.play_ends id chances (close settings node jobs cache) free
  obtain ⟨⟨report, rfl⟩, made, _, replayed, called⟩ := close_keeps played
  exact ⟨report, after, .of_play played, freeAfter, made, replayed, called⟩

/-- A stage of a node that is alive ends with its first question. -/
private theorem skips (id : TaskId) (chances : Chances) (alive : session.world.members.isAlive node = true)
    (skipped dead broken : Progress) :
    (orElse (do let alive ← readsAlive node; return if alive then skipped else dead) broken).Leads id chances
      session fun next _ after => (next = skipped ∨ next = broken) ∧ after.world = session.world := by
  apply (opens_outcomes skipped dead broken session).mono
  rintro next _ after _ ⟨same, outcome⟩
  rw [if_pos alive] at outcome
  exact ⟨outcome, same⟩

/-- Both stages of a node that is alive are skipped. -/
theorem reaches_closing_of_alive (id : TaskId) (chances : Chances) (settings : Settings)
    (alive : session.world.members.isAlive node = true) :
    ∃ jobs cache last, Reaches id chances settings node .opening session (.closing jobs cache) last ∧
      last.state.changing = session.state.changing ∧ last.world = session.world := by
  obtain ⟨next, _, middle, playedJobs, jobsContinue, opened, sameJobs⟩ :=
    skips id chances alive (.opened { skippedAlive := true }) (.jobPage 0 {}) (.opened {})
  obtain ⟨jobs, rfl⟩ : ∃ jobs, next = .opened jobs := by
    rcases opened with rfl | rfl
    · exact ⟨_, rfl⟩
    · exact ⟨_, rfl⟩
  have aliveStill : middle.world.members.isAlive node = true := sameJobs ▸ alive
  obtain ⟨next, _, last, playedCache, cacheContinues, closing, sameCache⟩ :=
    skips id chances aliveStill (.closing jobs { skippedAlive := true }) (.cachePage jobs 0 {}) (.closing jobs {})
  obtain ⟨cache, rfl⟩ : ∃ cache, next = .closing jobs cache := by
    rcases closing with rfl | rfl
    · exact ⟨_, rfl⟩
    · exact ⟨_, rfl⟩
  have first : (round settings node .opening).play id chances session = some (.opened jobs, middle) := playedJobs
  have second : (round settings node (.opened jobs)).play id chances middle = some (.closing jobs cache, last) :=
    playedCache
  exact ⟨jobs, cache, last, (Reaches.of_play first).trans (.of_play second),
    cacheContinues.changing.trans jobsContinue.changing, sameCache.trans sameJobs⟩

/-- While nobody changes the mode a takeover comes to its end, whichever calls are refused. -/
theorem reaches_finished (id : TaskId) (chances : Chances) (settings : Settings) (node : Address)
    (positive : 0 < settings.pageSize) (jobsInRange : ∀ job ∈ session.world.jobs, job.id.Resumable)
    (rowsInRange : ∀ row ∈ session.world.cache, row.id.Resumable) (free : session.state.changing = none) :
    ∃ report after, Reaches id chances settings node .opening session (.finished report) after := by
  have finishes : ∀ {jobs cache last},
      Reaches id chances settings node .opening session (.closing jobs cache) last →
        last.state.changing = none → ∃ report after,
          Reaches id chances settings node .opening session (.finished report) after := by
    intro jobs cache last reaches still
    obtain ⟨report, after, closing, _⟩ := closing_ends id chances settings node jobs cache still
    exact ⟨report, after, reaches.trans closing⟩
  cases alive : session.world.members.isAlive node with
  | true =>
      obtain ⟨jobs, cache, last, reaches, same, _⟩ := reaches_closing_of_alive id chances settings alive
      exact finishes reaches (same.trans free)
  | false =>
      obtain ⟨jobs, _, middle, cache, _, last, reaches, jobsContinue, _, cacheContinues, _⟩ :=
        reaches_closing id chances settings alive positive jobsInRange rowsInRange
      exact finishes reaches (cacheContinues.changing.trans (jobsContinue.changing.trans free))

/-! ## What a takeover leaves -/

/-- Calls of the cache stage keep a record that tells that its node needs recovery. -/
private theorem CacheCall.keeps_record {nodes : List Address} {rows : CacheRow → Prop} {made : List Made}
    (calls : ∀ one ∈ made, CacheCall node nodes rows one.1) {world : World}
    (there : world.members.record? node = some .neverAlive) :
    (world.replay made).members.record? node = some .neverAlive := by
  refine World.replay_keeps (fun other => other.members.record? node = some .neverAlive) ?_ there
  rintro ⟨request, refused⟩ member other same
  cases refused with
  | some text => exact same
  | none =>
      have call := calls _ member
      cases call with
      | reset => exact Membership.record?_set_self
      | flaw call => cases call <;> exact same
      | _ => exact same

/-- Where nothing was refused, a takeover is done with a dead node when both stages are over. -/
theorem Spent.of_stages {middle last : Session} {jobs cache : Tally} {jobCalls cacheCalls : List Made}
    (jobsContinue : Continues chances session middle jobCalls)
    (jobStage : JobStage session.world node jobs jobCalls)
    (cacheContinues : Continues chances middle last cacheCalls)
    (cacheStage : CacheStage middle.world node cache cacheCalls)
    (deadStill : middle.world.members.isAlive node = false)
    (sameNodes : middle.world.members.others node = session.world.members.others node)
    (unrefused : ∀ turn request, (chances turn).refused request = none) : Spent last.world node := by
  have answered : Answered chances := fun turn request _ => unrefused turn request
  have sameLast : last.world.members.others node = middle.world.members.others node := by
    rw [cacheContinues.world]
    exact (CacheCall.replay_members cacheStage.calls deadStill).2
  constructor
  case handed =>
    by_cases someone : session.world.members.others node = []
    · exact .inl (sameLast.trans (sameNodes.trans someone))
    · exact .inr (.of_stages jobsContinue jobStage cacheContinues cacheStage sameNodes unrefused someone)
  case readable =>
    intro row member owned
    cases cacheStage with
    | broke broke _ => exact absurd broke (answered.not_broke cacheContinues)
    | settled _ settled =>
        by_contra unread
        rw [cacheContinues.world] at member
        refine settled.taken.hindered member owned ⟨⟨fun id => ?_, fun jobId => ?_⟩, fun reads => ?_⟩
        · exact cacheContinues.accepted fun turn => unrefused turn _
        · exact cacheContinues.accepted fun turn => unrefused turn _
        · exact absurd (CacheRow.converts_iff.2 reads) unread
  case marked =>
    have calls := cacheStage.calls
    rw [cacheContinues.world]
    rintro (⟨job, member, held⟩ | left)
    · -- a job that is left was left by the job stage, which then reset the record
      have before := CacheCall.mem_of_held calls member held
      cases jobStage with
      | broke broke _ => exact absurd broke (answered.not_broke jobsContinue)
      | settled _ _ settled =>
          rw [jobsContinue.world] at before ⊢
          exact CacheCall.keeps_record calls (settled.reset (settled.looked.2 ⟨job, before, held⟩))
    · cases cacheStage with
      | broke broke _ => exact absurd broke (answered.not_broke cacheContinues)
      | settled _ settled => exact settled.reset (settled.looked.2 left)

/-- The broadcast leaves the stores as they are. -/
private theorem alike_of_broadcasts {made : List Made} (calls : ∀ one ∈ made, broadcasts one.1 = true)
    (world : World) : world.Alike (world.replay made) := by
  refine World.replay_keeps (fun other => world.Alike other) ?_ (.refl world)
  rintro ⟨request, refused⟩ member other alike
  have call := calls _ member
  cases refused <;> cases request <;>
    first | exact ⟨alike.jobs, alike.cache, alike.members⟩ | cases call

theorem Spent.of_alike {world other : World} (spent : Spent world node) (alike : world.Alike other) :
    Spent other node := by
  obtain ⟨members, jobs, cache, _⟩ := other
  obtain ⟨rfl, rfl, rfl⟩ := alike
  refine ⟨spent.handed.imp_right fun cleared => ⟨cleared.jobs, cleared.rows⟩, spent.readable, spent.marked⟩

/-- The node is alive or a takeover is done with it, and the stores can be paged through. -/
structure DoneWith (world : World) (node : Address) : Prop where
  spent : world.members.isAlive node = false → Spent world node
  jobsInRange : ∀ job ∈ world.jobs, job.id.Resumable
  rowsInRange : ∀ row ∈ world.cache, row.id.Resumable

/-- A takeover in which nothing is refused finds its node alive, or is done with it. -/
theorem reaches_spent (id : TaskId) (chances : Chances) (settings : Settings) (node : Address)
    (positive : 0 < settings.pageSize) (jobsInRange : ∀ job ∈ session.world.jobs, job.id.Resumable)
    (rowsInRange : ∀ row ∈ session.world.cache, row.id.Resumable)
    (unrefused : ∀ turn request, (chances turn).refused request = none)
    (free : session.state.changing = none) :
    ∃ report after, Reaches id chances settings node .opening session (.finished report) after ∧
      after.state.changing = none ∧ DoneWith after.world node := by
  have finishes : ∀ {jobs cache last calls},
      Reaches id chances settings node .opening session (.closing jobs cache) last →
      last.state.changing = none → last.world = session.world.replay calls →
      (last.world.members.isAlive node = false → Spent last.world node) → ∃ report after,
        Reaches id chances settings node .opening session (.finished report) after ∧
          after.state.changing = none ∧ DoneWith after.world node := by
    intro jobs cache last calls reaches still replayed spent
    obtain ⟨report, after, closing, freeAfter, broadcast, broadcasted, called⟩ :=
      closing_ends id chances settings node jobs cache still
    have alike : last.world.Alike after.world := broadcasted ▸ alike_of_broadcasts called last.world
    refine ⟨report, after, reaches.trans closing, freeAfter, fun dead => ?_, ?_, ?_⟩
    · exact (spent (alike.members ▸ dead)).of_alike alike
    · intro job member
      rw [alike.jobs, replayed] at member
      have sameIds := session.world.replay_job_ids calls
      obtain ⟨before, inside, same⟩ := List.mem_map.1 (sameIds ▸ List.mem_map_of_mem (f := Job.id) member)
      exact same ▸ jobsInRange before inside
    · intro row member
      rw [alike.cache, replayed] at member
      obtain ⟨before, inside, fated⟩ := World.mem_replay_cache.1 member
      obtain ⟨_, rfl⟩ := CacheRow.fate_eq_some_iff.1 fated
      exact rowsInRange before inside
  cases alive : session.world.members.isAlive node with
  | true =>
      obtain ⟨jobs, cache, last, reaches, same, sameWorld⟩ := reaches_closing_of_alive id chances settings alive
      refine @finishes _ _ _ [] reaches (same.trans free) sameWorld fun dead => ?_
      rw [sameWorld, alive] at dead
      cases dead
  | false =>
      obtain ⟨jobs, _, middle, cache, _, last, reaches, jobsContinue, jobStage, cacheContinues, cacheStage,
        deadStill, sameNodes⟩ := reaches_closing id chances settings alive positive jobsInRange rowsInRange
      refine finishes reaches (cacheContinues.changing.trans (jobsContinue.changing.trans free))
        (jobsContinue.trans cacheContinues).world fun _ => ?_
      exact .of_stages jobsContinue jobStage cacheContinues cacheStage deadStill sameNodes unrefused

/-- Another takeover of a node that is alive or done with, played where nothing is refused. -/
theorem reaches_again (id : TaskId) (chances : Chances) {world : World}
    (doneWith : DoneWith world node) (positive : 0 < settings.pageSize)
    (unrefused : ∀ turn request, (chances turn).refused request = none)
    (alike : world.Alike session.world) (free : session.state.changing = none) :
    ∃ report after, Reaches id chances settings node .opening session (.finished report) after ∧
      world.Alike after.world ∧ report.Idle := by
  obtain ⟨report, after, reaches⟩ := reaches_finished id chances settings node positive
    (alike.jobs.symm ▸ doneWith.jobsInRange) (alike.cache.symm ▸ doneWith.rowsInRange) free
  have kept := reaches.keeps (fun progress session => Quiet world node progress ∧ world.Alike session.world)
    (fun progress session next after played ⟨quiet, alike⟩ =>
      (round_still doneWith.spent quiet).of_play unrefused alike played) ⟨trivial, alike⟩
  exact ⟨report, after, reaches, kept.2, kept.1⟩

end Takeovers

end Takeover

/-! ## In the midst of a run -/

namespace Coordinator

open Takeover (DoneWith Quiet round_still)

namespace State

/-- No call is refused, and only a takeover of the node may change a store. -/
def Undisturbed (node : Address) (state : State) (event : Event) : Prop :=
  (∀ id shares text, event ≠ .answer id shares (some text)) ∧
    ((∃ id, event.mover = some id ∧ state.IsAt id node) ∨
      ∀ next, state.step event = some next → state.world.Alike next.world)

/-- From one state to a later one no takeover of the node did anything. -/
def DidNothing (node : Address) (start last : State) : Prop :=
  ∃ news, last.log = news ++ start.log ∧
    ∀ id report, .finished id report ∈ news → report.node = node → report.Idle

end State

/-- Replies say what the stores hold. -/
private def Told (world : World) : Act → Prop
  | .reply request reply => world.Answers request reply
  | _ => True

/-- A takeover ends with a progress that did nothing. -/
private def QuietOutcome (world : World) (node : Address) (outcome : Outcome) : Prop :=
  ∃ progress, outcome = .progress progress ∧ Quiet world node progress

/-- Every takeover of the node that is under way leaves the stores as they are. -/
private def State.Still (world : World) (node : Address) (state : State) : Prop :=
  ∀ id task, state.task? id = some task → ∀ script started, task.work = some ⟨script, started⟩ →
    task.duty.node? = some node → script.Keeps world.still (QuietOutcome world node)

private theorem still_lasts {world : World} {node : Address} (settings : Settings)
    (doneWith : DoneWith world node) : Task.Lasts settings (Told world) fun task =>
      ∀ script started, task.work = some ⟨script, started⟩ → task.duty.node? = some node →
        script.Keeps world.still (QuietOutcome world node) := by
  have round : ∀ {progress}, Quiet world node progress →
      (roundOf settings node progress).Keeps world.still (QuietOutcome world node) :=
    fun quiet => (round_still doneWith.spent quiet).bind fun next quiet => ⟨next, rfl, quiet⟩
  refine Task.keeps_lasts (fun _ _ told => told) (fun duty takesOver => ?begun) ?further
  case begun =>
    have opens := @round .opening trivial
    cases duty with
    | takeOver other =>
        cases takesOver
        exact opens
    | work other =>
        cases takesOver
        exact ⟨fun _ => nofun, fun _ => opens⟩
    | _ => cases takesOver
  case further =>
    rintro progress unfinished ⟨_, ⟨⟩, quiet⟩
    exact round quiet

section Event

variable {world : World} {node : Address} {state next : State} {event : Event}

/-- Where no call is refused, replies say what the stores hold. -/
private theorem told_of_alike (alike : world.Alike state.world)
    (unrefused : ∀ id shares text, event ≠ .answer id shares (some text)) : state.Heeds (Told world) event := by
  intro id task act later shared found goes takes
  cases takes with
  | reply request shares refused =>
      cases refused with
      | none => exact ⟨_, _, alike, rfl⟩
      | some text => exact absurd rfl (unrefused _ _ _)
  | _ => trivial

/-- A takeover of the node changes no store. -/
private theorem alike_of_moved {id : TaskId} (still : state.Still world node)
    (unrefused : ∀ id shares text, event ≠ .answer id shares (some text)) (mine : event.mover = some id)
    (isAt : state.IsAt id node) (alike : world.Alike state.world) (happens : Happens state event next) :
    world.Alike next.world := by
  obtain ⟨task, known, here⟩ := State.isAt_iff.1 isAt
  cases happens with
  | @moved _ mover before later act shared found goes takes =>
      obtain rfl : mover = id := Option.some.inj (takes.mover.symm.trans mine)
      cases known.symm.trans found
      have script : ∀ {script started}, task.work = some ⟨script, started⟩ →
          script.Keeps world.still (QuietOutcome world node) := fun work =>
        still _ _ found _ _ work ((Task.at?_of_work work).symm.trans here)
      cases takes with
      | reply request shares refused =>
          cases refused with
          | some text => exact absurd rfl (unrefused _ _ _)
          | none =>
              obtain ⟨rest, work⟩ := Task.work_of_call? goes.call?
              exact (script work).1.carryOut alike _
      | @deed deed result after wall draw happened =>
          obtain ⟨rest, started, work⟩ := Task.work_of_effect? goes.effect?
          have same : shared.world = state.world := by
            rw [State.afterEffect_world happened]
            cases deed with
            | heartbeat other => exact absurd rfl ((script work).1 other)
            | _ => rfl
          change world.Alike shared.world
          rwa [same]
      | changeEnd leader =>
          change world.Alike (state.changeMode leader).world
          obtain ⟨_, _, _, _, _, _, same⟩ := State.changeMode_eq state leader
          rwa [same]
      | _ => exact alike
  | spawned apart _ => cases apart.symm.trans mine
  | told apart _ _ => cases apart.symm.trans mine
  | passed millis => cases mine
  | written entry wall => cases mine

/-- A takeover of the node that is finished did nothing. -/
private theorem idle_of_finished (still : state.Still world node) (sound : state.Sound fun _ => True)
    (happens : Happens state event next) : state.DidNothing node next := by
  cases happens with
  | @moved _ mover before later act shared found goes takes =>
      refine ⟨act.notes mover, takes.log, fun id report finished isOf => ?_⟩
      cases act
      case finish own outside =>
        cases List.mem_singleton.1 finished
        obtain ⟨here, _⟩ : before.at? = some report.node ∧ later.at? = none := goes.at? (sound.tasks found)
        obtain ⟨started, work⟩ := goes.finishes
        obtain ⟨_, ⟨⟩, idle⟩ := still _ _ found _ _ work
          ((Task.at?_of_work work).symm.trans (here.trans (congrArg some isOf)))
        exact idle
      case deed deed result =>
        cases deed
        case enqueue node => cases result <;> simp [Act.notes] at finished
        all_goals simp [Act.notes] at finished
      all_goals simp [Act.notes] at finished
  | _ => exact ⟨[], rfl, nofun⟩

end Event

/-- While nothing else changes a store, takeovers of a node that is alive or done with change none. -/
theorem State.run_still {world : World} {node : Address} {start last : State} {events : List Event}
    (doneWith : DoneWith world node) (sound : start.Sound fun _ => True)
    (alike : world.Alike start.world) (nobody : ∀ id, ¬ start.IsAt id node)
    (along : start.Along (Undisturbed node) events) (run : start.run events = some last) :
    world.Alike last.world ∧ start.DidNothing node last := by
  have still : start.Still world node := by
    intro id task found script started work takesOver
    exact absurd (State.isAt_iff.2 ⟨task, found, (Task.at?_of_work work).trans takesOver⟩) (nobody id)
  refine (run_induction (motive := fun _ state => (state.Sound fun _ => True) ∧ state.Still world node ∧
    world.Alike state.world ∧ start.DidNothing node state) ⟨sound, still, alike, [], rfl, nofun⟩ ?_ along
      run).2.2
  rintro events event state next - - ⟨unrefused, own⟩ stepped ⟨sound, still, alike, news, log, idle⟩
  have happens := State.happens stepped
  refine ⟨happens.sound heeds_any sound, ?_, ?_, ?_⟩
  · exact happens.tasks (still_lasts _ doneWith) (told_of_alike alike unrefused) sound.grouped still
  · rcases own with ⟨id, mine, isAt⟩ | others
    · exact alike_of_moved still unrefused mine isAt alike happens
    · exact alike.trans (others next stepped)
  · obtain ⟨latest, grown, idleNow⟩ := idle_of_finished still sound happens
    refine ⟨latest ++ news, by rw [grown, log, List.append_assoc], fun id report finished isOf => ?_⟩
    rcases List.mem_append.1 finished with now | before
    · exact idleNow id report now isOf
    · exact idle id report before isOf

end Coordinator

/-! ## Once is enough -/

namespace Takeover

/-- Where the stores are as in `world`, another takeover of the node does nothing: neither one
that is played alone, by whichever task, nor any number of them in a run of the coordinator. -/
structure OnceIsEnough (settings : Settings) (node : Address) (world : World) : Prop where
  again : ∀ id chances session, (∀ turn request, (chances turn).refused request = none) →
    world.Alike session.world → session.state.changing = none →
      ∃ report after, Reaches id chances settings node .opening session (.finished report) after ∧
        world.Alike after.world ∧ report.Idle
  queued : ∀ opening before start events last,
    (State.initial settings opening).run before = some start → world.Alike start.world →
      (∀ id, ¬ start.IsAt id node) → start.Along (State.Undisturbed node) events →
        start.run events = some last → world.Alike last.world ∧ State.DidNothing node start last

/-- A takeover in which nothing is refused leaves the stores as every further takeover of the
node leaves them, however many there are and whoever weighs. -/
theorem takeover_once (id : TaskId) (chances : Chances) (settings : Settings) (node : Address)
    (session : Session) (positive : 0 < settings.pageSize)
    (jobsInRange : ∀ job ∈ session.world.jobs, job.id.Resumable)
    (rowsInRange : ∀ row ∈ session.world.cache, row.id.Resumable)
    (unrefused : ∀ turn request, (chances turn).refused request = none)
    (free : session.state.changing = none) :
    ∃ report first, Reaches id chances settings node .opening session (.finished report) first ∧
      first.state.changing = none ∧ OnceIsEnough settings node first.world := by
  obtain ⟨report, first, reaches, freeAfter, doneWith⟩ :=
    reaches_spent id chances settings node positive jobsInRange rowsInRange unrefused free
  refine ⟨report, first, reaches, freeAfter, ?_, ?_⟩
  · intro id chances session unrefused alike free
    exact reaches_again id chances doneWith positive unrefused alike free
  · intro opening before start events last ran alike nobody along run
    have sound := (State.run_sound (State.along_of_forall fun _ _ => State.heeds_any) ran).2
    exact State.run_still doneWith sound alike nobody along run

/-- A dead node with a job, a readable row and two rows that cannot be read, and nobody to go to. -/
private def nobodyLeft : World :=
  { World.initial with
    jobs := .ofList [⟨1, "j", ⟨"a:1"⟩, .running, .cron, none⟩]
    cache := .ofList
      [⟨1, "j", ⟨"a:1"⟩, 1, none⟩, ⟨2, "j", ⟨"a:1"⟩, 7, none⟩, ⟨3, "", ⟨"a:1"⟩, 1, none⟩] }

theorem takeover_once_with_nobody_left :
    ∃ report first, Reaches 0 .calm default ⟨"a:1"⟩ .opening
        (.opening (.initial default nobodyLeft)) (.finished report) first ∧
      first.state.changing = none ∧ OnceIsEnough default ⟨"a:1"⟩ first.world := by
  have jobsInRange : ∀ job ∈ nobodyLeft.jobs, job.id.Resumable := by
    have decided : ∀ job ∈ nobodyLeft.jobs.rows, job.id.Resumable := by decide
    exact decided
  have rowsInRange : ∀ row ∈ nobodyLeft.cache, row.id.Resumable := by
    have decided : ∀ row ∈ nobodyLeft.cache.rows, row.id.Resumable := by decide
    exact decided
  exact takeover_once 0 .calm default ⟨"a:1"⟩ (.opening (.initial default nobodyLeft)) (by decide)
    jobsInRange rowsInRange (fun _ _ => rfl) rfl

end Takeover

end Handover
