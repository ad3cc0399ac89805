import Handover.Proofs.Cleared
import Handover.Proofs.Findings
import Handover.Proofs.Grounds

/-!
Contract: work that a takeover left behind is found again.

Owns: that a takeover which reports that work was left has written the record of a node that
needs recovery; that as long as nothing else is done to the record the next check wins it, just
once, and queues the node for it; that later checks leave it alone; and that a later takeover
in which nothing is refused leaves nothing of the node's work.
-/

set_option autoImplicit false

namespace Handover

/-! ## Records -/

/-- A node that needs recovery is due, whatever the time and the timeout. -/
theorem Detection.isDue_neverAlive (timeoutMillis : Nat) (now : Time.Instant) :
    isDue timeoutMillis now .neverAlive = true := rfl

/-- A node that was found dead is not due before something is written over its record. -/
theorem Detection.isDue_markedDead (timeoutMillis : Nat) (now : Time.Instant) (record : Liveness) :
    isDue timeoutMillis now record.markedDead = false := by
  have expired : isExpired timeoutMillis now record.markedDead = false := by
    unfold isExpired
    split <;> rfl
  rw [isDue, expired, Liveness.needsRecovery_markedDead]
  rfl

namespace Coordinator

open Takeover (Report WasReset Cleared Reaches)

/-- The last reset that was carried out by a takeover, of the record of its node. `between` has
happened since. -/
structure LastReset (start : State) (events : List Event) (id : TaskId) (node : Address)
    (reset : State) (between : List Event) : Prop where
  split : ∃ before shares middle, events = before ++ .answer id shares none :: between ∧
    start.run before = some middle ∧
    middle.request? id = some (.reset node .neverAlive true) ∧
    middle.step (.answer id shares none) = some reset
  sameTakeover : reset.Along (fun state _ => state.IsAt id node) between
  last : ¬ WasReset node (reset.heard id between)

namespace State

/-- A takeover of the node from here on, in which nothing is refused and for which there is
someone to go to, leaves nothing of the node's work. -/
def Clears (settings : Settings) (node : Address) (state : State) : Prop :=
  ∀ (id : TaskId) (chances : Chances), (∀ turn request, (chances turn).refused request = none) →
    (∃ other, state.world.members.isAlive other = true ∧ other ≠ node) →
    (∀ job ∈ state.world.jobs, job.id.Resumable) → (∀ row ∈ state.world.cache, row.id.Resumable) →
      ∃ report after, Reaches id chances settings node .opening (.opening state) (.finished report) after ∧
        Cleared after.world node

/-- The node was found: no check queues it for its own record. -/
structure Found (settings : Settings) (node : Address) (state : State) : Prop where
  quiet : ∀ checker listing during ended, Pass state checker listing during ended →
    listing.tally (queuesOf checker node) during = namesakeWins node (listing.heard checker during)
  clears : state.Clears settings node

/-- The node is to be found: a check that lists the records now and comes to its end queues it
once for its own record, if nothing else is done to the record meanwhile. -/
structure Findable (settings : Settings) (node : Address) (state : State) : Prop where
  needsRecovery : state.world.members.record? node = some .neverAlive
  ends : ∀ checker shares listing, state.request? checker = some .liveness →
    state.step (.answer checker shares none) = some listing → ∃ during ended,
      Pass state checker listing during ended ∧ listing.Along (LeftTo checker node) during
  finds : ∀ checker listing during ended, Pass state checker listing during ended →
    listing.Along (LeftTo checker node) during →
      listing.tally (queuesOf checker node) during =
        1 + namesakeWins node (listing.heard checker during) ∧
      ∀ later after, ended.run later = some after →
        ended.Along (fun state event => state.stroke node event = .spares) later →
          after.Found settings node
  /-- It is queued just once where no other address of the table names it. -/
  sole : ∀ checker listing during ended, Pass state checker listing during ended →
    (∀ address seen, state.world.members.record? address = some seen → address.trim = node →
      address = node) → namesakeWins node (listing.heard checker during) = 0
  clears : state.Clears settings node

variable {settings : Settings} {world : World} {before events : List Event}
  {state now start : State} {id : TaskId} {task : Task} {node : Address}

/-- What is left of a node that is dead is taken over. -/
theorem clears_of_dead (dead : state.world.members.isAlive node = false) (positive : 0 < settings.pageSize) :
    state.Clears settings node := by
  rintro id chances unrefused ⟨other, alive, apart⟩ jobsInRange rowsInRange
  exact Takeover.reaches_cleared id chances settings node (.opening state) dead positive jobsInRange
    rowsInRange unrefused (List.ne_nil_of_mem (Membership.mem_others.2 ⟨alive, apart⟩))

/-- A run that does nothing to the record of a node leaves it as it is. -/
theorem run_record?_of_spares (ran : (initial settings world).run before = some start)
    (run : start.run events = some state)
    (spares : start.Along (fun state event => state.stroke node event = .spares) events)
    {record : Liveness} (there : start.world.members.record? node = some record) :
    state.world.members.record? node = some record := by
  refine run_induction (motive := fun _ state => state.world.members.record? node = some record)
    there ?_ spares run
  intro events event middle next _ run spares stepped there
  have whole : (initial settings world).run (before ++ events) = some middle := by
    rw [run_append, ran]
    exact run
  exact record?_of_spares whole stepped spares there

theorem found_of_markedDead (ran : (initial settings world).run before = some state)
    (positive : 0 < settings.pageSize) (trimmed : node.trim = node) (named : node.isBlank = false)
    {record : Liveness} (dead : state.world.members.record? node = some record.markedDead) :
    state.Found settings node where
  quiet := by
    intro checker listing during ended pass
    have never : ∀ timeoutMillis moment seen, state.world.members.record? node = some seen →
        Detection.isDue timeoutMillis moment seen = false := by
      intro timeoutMillis moment seen there
      cases dead.symm.trans there
      exact Detection.isDue_markedDead timeoutMillis moment record
    rw [pass.queues ran named, wonOf_naming trimmed, pass.ownWins_of_undue ran never, Nat.zero_add]
  clears := clears_of_dead (Membership.isAlive_of_record? dead) positive

theorem findable_of_neverAlive (ran : (initial settings world).run before = some state)
    (positive : 0 < settings.pageSize) (trimmed : node.trim = node) (named : node.isBlank = false)
    (needsRecovery : state.world.members.record? node = some .neverAlive) :
    state.Findable settings node where
  needsRecovery := needsRecovery
  ends := by
    intro checker shares listing lists answered
    obtain ⟨during, ended, pass, left⟩ := exists_pass lists answered ran
    exact ⟨during, ended, pass, left node⟩
  finds := by
    intro checker listing during ended pass left
    obtain ⟨dead, once⟩ :=
      pass.ownWins_of_due ran needsRecovery Detection.isDue_neverAlive left
    refine ⟨by rw [pass.queues ran named, wonOf_naming trimmed, once], ?_⟩
    intro later after run spares
    obtain ⟨shares, answered⟩ := pass.answered
    have ranEnded : (initial settings world).run (before ++ .answer checker shares none :: during) =
        some ended := by
      rw [run_append, ran, Option.bind_some, State.run, answered]
      exact pass.run
    have ranAfter : (initial settings world).run
        (before ++ .answer checker shares none :: during ++ later) = some after := by
      rw [run_append, ranEnded]
      exact run
    exact found_of_markedDead ranAfter positive trimmed named
      (run_record?_of_spares ranEnded run spares dead)
  sole := fun _ _ _ _ pass alone => pass.namesakeWins_of_sole ran alone
  clears := clears_of_dead (Membership.isAlive_of_record? needsRecovery) positive

/-- A takeover that reports that work was left has carried out a reset of the record of its
node. As long as nothing is done to the record since the last one, the work is found again. -/
theorem leftover_found_again (positive : 0 < settings.pageSize) (trimmed : node.trim = node)
    (named : node.isBlank = false) (run : (initial settings world).run events = some state)
    (found : state.task? id = some task) (takesOver : task.duty.node? = some node) {report : Report}
    {started : Bool} (work : task.work = some ⟨.done (.progress (.finished report)), started⟩)
    (left : report.leftover = true) :
    (∃ reset between, LastReset (initial settings world) events id node reset between) ∧
    ∀ reset between more now, LastReset (initial settings world) events id node reset between →
      state.run more = some now →
        reset.Along (fun state event => state.stroke node event = .spares) (between ++ more) →
          now.Findable settings node := by
  constructor
  · obtain ⟨begun, during, since, was⟩ := run_wasReset run found takesOver work left
    obtain ⟨newer, older, heard, notLater⟩ := was.last
    obtain ⟨before, shares, refused, between, middle, reset, split, ran, stepped, -, calls, replied, heardSince,
      stays⟩ := since.of_heard run heard
    have accepted : refused = none := by
      cases refused with
      | none => rfl
      | some detail => cases replied
    subst accepted
    exact ⟨reset, between, ⟨before, shares, middle, split, ran, calls, stepped⟩, stays,
      heardSince ▸ notLater⟩
  · rintro reset between more now ⟨⟨before, shares, middle, rfl, ran, calls, stepped⟩, -, -⟩ runMore spares
    have ranReset : (initial settings world).run (before ++ [.answer id shares none]) = some reset := by
      rw [run_snoc, ran]
      exact stepped
    have parts : before ++ .answer id shares none :: between =
        (before ++ [.answer id shares none]) ++ between := by simp
    have ranBetween : reset.run between = some state := by
      rw [parts, run_append, ranReset] at run
      exact run
    have runSince : reset.run (between ++ more) = some now := by
      rw [run_append, ranBetween]
      exact runMore
    have whole : (initial settings world).run ((before ++ [.answer id shares none]) ++ (between ++ more)) =
        some now := by
      rw [run_append, ranReset]
      exact runSince
    have there : reset.world.members.record? node = some .neverAlive := by
      rw [step_world stepped, worldNext, calls]
      exact Membership.record?_set_self
    exact findable_of_neverAlive whole positive trimmed named
      (run_record?_of_spares ranReset runSince spares there)

/-- A node that is not heard, a job of it, and a node that is alive. -/
private def neglected : World :=
  { World.initial with
    members := .ofList [(⟨"b"⟩, .heardAt ⟨0, 0⟩ 1)]
    jobs := .ofList [⟨1, "j", ⟨"a"⟩, .running, .cron, none⟩] }

/-- A takeover of the node whose move is refused, up to the end of the look at what is left. -/
private def neglecting : List Event :=
  [.arrive [.takeOver ⟨"a"⟩], .proceed 0, .start 0, .answer 0 none none, .proceed 0, .start 0, .answer 0 none none,
    .start 0, .answer 0 none none, .start 0, .answer 0 none none, .start 0, .answer 0 none (some "down"), .proceed 0,
    .start 0, .answer 0 none none, .start 0, .answer 0 none none, .start 0]

/-- The rest of the takeover, after its reset. -/
private def wavering : List Event :=
  [.proceed 0, .start 0, .answer 0 none none, .proceed 0, .start 0, .answer 0 none none, .start 0, .answer 0 none none,
    .proceed 0, .effect 0 ⟨0, 0⟩ 0, .start 0, .answer 0 none none, .start 0, .answer 0 none none]

/-- The takeover is finished, and a check as of a moment begins. -/
private def rechecking (moment : Time.Instant) : List Event :=
  [.proceed 0, .proceed 0, .arrive [.check 10000 moment], .proceed 1, .start 1]

/-- The check swaps a record and queues the node that it names. -/
private def finding : List Event :=
  [.start 1, .answer 1 none none, .effect 1 ⟨1, 0⟩ 0, .effect 1 ⟨1, 0⟩ 0]

theorem leftover_found_again_of_neglected : ∃ reset now listing ended report after,
    LastReset (initial default neglected) (neglecting ++ .answer 0 none none :: wavering) 0 ⟨"a"⟩ reset
      wavering ∧
    (initial default neglected).run
      (neglecting ++ .answer 0 none none :: wavering ++ rechecking ⟨1, 0⟩) = some now ∧
    now.Findable default ⟨"a"⟩ ∧ Pass now 1 listing finding ended ∧
    listing.tally (queuesOf 1 ⟨"a"⟩) finding = 1 ∧ ended.Found default ⟨"a"⟩ ∧
    Reaches 0 .calm default ⟨"a"⟩ .opening (.opening ended) (.finished report) after ∧
    Cleared after.world ⟨"a"⟩ := by
  obtain ⟨state, task, report, before, reset, now, listing, ended, run, found, takesOver, work, left, ran,
      calls, stepped, stays, later, runMore, spares, lists, answered, ranOn, atEnd, apart, alive, rows,
      jobs, cache⟩ :
      ∃ state task report before reset now listing ended,
        (initial default neglected).run (neglecting ++ .answer 0 none none :: wavering) = some state ∧
        state.task? 0 = some task ∧ task.duty.node? = some ⟨"a"⟩ ∧
        task.work = some ⟨.done (.progress (.finished report)), false⟩ ∧ report.leftover = true ∧
        (initial default neglected).run neglecting = some before ∧
        before.request? 0 = some (.reset ⟨"a"⟩ .neverAlive true) ∧
        before.step (.answer 0 none none) = some reset ∧
        reset.Along (fun state _ => state.IsAt 0 ⟨"a"⟩) wavering ∧
        Call.reset ⟨"a"⟩ .neverAlive true ∉ (reset.heard 0 wavering).map Heard.request ∧
        state.run (rechecking ⟨1, 0⟩) = some now ∧
        reset.Along (fun state event => state.stroke ⟨"a"⟩ event = .spares)
          (wavering ++ rechecking ⟨1, 0⟩) ∧
        now.request? 1 = some .liveness ∧ now.step (.answer 1 none none) = some listing ∧
        listing.run finding = some ended ∧ ended.AtEnd 1 ∧
        listing.Along (LeftTo 1 ⟨"a"⟩) finding ∧ ended.world.members.isAlive ⟨"b"⟩ = true ∧
        now.world.members.rows = [(⟨"a"⟩, .neverAlive), (⟨"b"⟩, .heardAt ⟨0, 0⟩ 1)] ∧
        ended.world.jobs.rows = neglected.jobs.rows ∧ ended.world.cache.rows = [] :=
    ⟨_, _, _, _, _, _, _, _, rfl, rfl, rfl, rfl, rfl, rfl, rfl, rfl, along_of_tally rfl, by decide, rfl,
      along_of_tally rfl, rfl, rfl, rfl, ⟨_, _, _, rfl, rfl⟩, along_of_tally rfl, rfl, rfl, rfl, rfl⟩
  have last : LastReset (initial default neglected) (neglecting ++ .answer 0 none none :: wavering) 0
      ⟨"a"⟩ reset wavering :=
    ⟨⟨neglecting, none, before, rfl, ran, calls, stepped⟩, stays, fun was => later (List.mem_map_of_mem was)⟩
  have findable := (leftover_found_again (by decide) (by decide) (by decide) run found takesOver work
    left).2 reset wavering (rechecking ⟨1, 0⟩) now last runMore spares
  have pass : Pass now 1 listing finding ended :=
    ⟨⟨lists, ⟨none, answered⟩, by simp [finding, Event.Grants]⟩, ranOn, atEnd⟩
  obtain ⟨queued, foundThen⟩ := findable.finds 1 listing finding ended pass apart
  have sole := findable.sole 1 listing finding ended pass fun address seen there names => by
    have listed := Membership.record?_eq_some_iff.1 there
    rw [rows] at listed
    rcases List.mem_cons.1 listed with same | same
    · exact congrArg Prod.fst same
    · obtain ⟨rfl, -⟩ := Prod.mk.inj (List.mem_singleton.1 same)
      exact absurd names (by decide)
  have done := foundThen [] ended rfl trivial
  have jobsInRange : ∀ job ∈ ended.world.jobs.rows, job.id.Resumable := by
    rw [jobs]
    decide
  have rowsInRange : ∀ row ∈ ended.world.cache.rows, row.id.Resumable := by
    rw [cache]
    exact List.forall_mem_nil _
  obtain ⟨report, after, reaches, cleared⟩ := done.clears 0 .calm (fun _ _ => rfl)
    ⟨⟨"b"⟩, alive, by decide⟩ jobsInRange rowsInRange
  rw [sole] at queued
  refine ⟨reset, now, listing, ended, report, after, last, ?_, findable, pass, queued, done, reaches,
    cleared⟩
  rw [run_append, run]
  exact runMore

/-- The node and another address that names it, which was last heard at the beginning. -/
private def mistyped : World :=
  { neglected with
    members := .ofList [(⟨" a"⟩, .heardAt ⟨0, 0⟩ 1), (⟨"b"⟩, .heardAt ⟨100, 0⟩ 1)] }

/-- The node was found, and takeovers list no job at a time. -/
private def unpaged : State :=
  .initial { (default : Settings) with pageSize := 0 }
    { neglected with
      members := .ofList [(⟨"a"⟩, Liveness.neverAlive.markedDead), (⟨"b"⟩, .heardAt ⟨0, 0⟩ 1)] }

/-- A check queues the node twice, where it should once: for its own record and for that of the
other address. And a later takeover leaves the job where it is, if its pages have no room. -/
theorem found_twice_or_left :
    (∃ state task report reset now listing ended,
      (initial default mistyped).run
          (neglecting ++ .answer 0 none none :: (wavering ++ [.start 0, .answer 0 none none])) = some state ∧
        state.task? 0 = some task ∧ task.duty.node? = some ⟨"a"⟩ ∧
        task.work = some ⟨.done (.progress (.finished report)), false⟩ ∧ report.leftover = true ∧
        (initial default mistyped).run (neglecting ++ [.answer 0 none none]) = some reset ∧
        reset.Along (fun state event => state.stroke ⟨"a"⟩ event = .spares)
          (wavering ++ [.start 0, .answer 0 none none] ++ rechecking ⟨100, 0⟩) ∧
        state.run (rechecking ⟨100, 0⟩) = some now ∧ Pass now 1 listing (finding ++ finding) ended ∧
        listing.Along (LeftTo 1 ⟨"a"⟩) (finding ++ finding) ∧
        listing.tally (queuesOf 1 ⟨"a"⟩) (finding ++ finding) = 2) ∧
    ∃ report after, Reaches 0 .calm unpaged.settings ⟨"a"⟩ .opening (.opening unpaged) (.finished report)
        after ∧ ∃ job ∈ after.world.jobs, job.HeldBy ⟨"a"⟩ :=
  ⟨⟨_, _, _, _, _, _, _, rfl, rfl, rfl, rfl, rfl, rfl, along_of_tally rfl, rfl,
      ⟨⟨rfl, ⟨none, rfl⟩, by simp [finding, Event.Grants]⟩, rfl, ⟨_, _, _, rfl, rfl⟩⟩, along_of_tally rfl, rfl⟩,
    ⟨_, _, ⟨5, rfl⟩, _, List.mem_singleton.2 rfl, by decide⟩⟩

end State

end Coordinator

end Handover
