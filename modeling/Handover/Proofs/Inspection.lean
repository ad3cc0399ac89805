import Handover.Proofs.Refound
import Handover.Proofs.Reports

/-!
Contract: what a check of the heartbeats comes to when nothing else happens meanwhile.

The check rewrites the table that it goes through. It goes through a listing of the table as it
was, in which no address is listed twice. So each version that was listed is still that of the
record when its turn comes, and each swap of a due record is won.

Owns: which records are due, in words of the records alone; the records, the queue and the count
of pending reports after a check that is not disturbed; and that a record which such a check has
written is not due again, at whatever time.
-/

set_option autoImplicit false

namespace Handover

open Time (Instant)
open Coordinator (TaskId State Outcome checkScript)
open Detection (dueAmong swapOf)

/-! ## Due records -/

namespace Detection

variable {timeoutMillis : Nat} {now : Instant} {record : Liveness}

/-- The node is alive, and it was heard last longer ago than the timeout. -/
def Stale (timeoutMillis : Nat) (now : Instant) (record : Liveness) : Prop :=
  record.alive = true ∧
    ∃ heard, record.lastHeartbeat = some heard ∧ timeoutMillis * Instant.nanosPerMilli < heard.age now

theorem isExpired_iff : isExpired timeoutMillis now record = true ↔
    Stale (MonitorSettings.effectiveTimeout timeoutMillis) now record := by
  unfold isExpired Stale
  cases record.lastHeartbeat <;> simp

theorem isDue_iff : isDue timeoutMillis now record = true ↔
    Stale (MonitorSettings.effectiveTimeout timeoutMillis) now record ∨ record = .neverAlive := by
  rw [isDue, Bool.or_eq_true, isExpired_iff, Liveness.needsRecovery_iff]

/-- The addresses of the entries that name a node: for the others nothing is reported. -/
def reportable (entries : List (Address × Liveness)) : List Address :=
  (entries.filter fun entry => Intake.accepts entry.1.text).map Prod.fst

end Detection

open Detection (Stale reportable)

theorem Detection.reportable_singleton (entry : Address × Liveness) :
    reportable [entry] = if Intake.accepts entry.1.text then [entry.1] else [] := by
  rw [reportable, List.filter_cons, List.filter_nil]
  split <;> rfl

theorem Detection.reportable_cons (entry : Address × Liveness) (rest : List (Address × Liveness)) :
    reportable (entry :: rest) = reportable [entry] ++ reportable rest := by
  rw [← List.singleton_append, reportable, List.filter_append, List.map_append]
  rfl

/-! ## Records that are flipped -/

namespace Membership

/-- The entries are flipped to dead, one after the other. -/
def flipped (members : Membership) (entries : List (Address × Liveness)) : Membership :=
  entries.foldl (fun members entry => members.set entry.1 entry.2.markedDead) members

variable {members : Membership} {entries : List (Address × Liveness)} {node : Address} {record : Liveness}

theorem record?_flipped_of_apart (apart : ∀ entry ∈ entries, entry.1 ≠ node) :
    (members.flipped entries).record? node = members.record? node := by
  induction entries generalizing members with
  | nil => rfl
  | cons entry rest inductionHypothesis =>
      obtain ⟨other, others⟩ := List.forall_mem_cons.1 apart
      exact (inductionHypothesis others).trans (record?_set.trans (if_neg other))

theorem record?_flipped_of_mem (distinct : (entries.map Prod.fst).Nodup)
    (member : (node, record) ∈ entries) :
    (members.flipped entries).record? node = some record.markedDead := by
  induction entries generalizing members with
  | nil => cases member
  | cons entry rest inductionHypothesis =>
      obtain ⟨apart, distinctRest⟩ := List.nodup_cons.1 distinct
      rcases List.mem_cons.1 member with rfl | inRest
      · have once : ∀ other ∈ rest, other.1 ≠ node := fun other inside same =>
          apart (List.mem_map.2 ⟨other, inside, same⟩)
        exact (record?_flipped_of_apart once).trans record?_set_self
      · exact inductionHypothesis distinctRest inRest

end Membership

/-! ## Playing a check -/

/-- No call of a check is refused. -/
structure Heeded (chances : Chances) : Prop where
  lists : ∀ turn, (chances turn).refused .liveness = none
  swaps : ∀ turn entry, (chances turn).refused (swapOf entry) = none

section Parts

variable {id : TaskId} {chances : Chances} {session : Session} {α β : Type}

/-- A call that is not refused is carried out. -/
theorem Script.play_attemptAsk {request : Call} {later : request.Result → Attempt β}
    (unrefused : (chances session.turn).refused request = none) :
    (Attempt.ask request >>= later).run.play id chances session =
      (later (session.world.carryOut (chances session.turn).weigher request).1).run.play id chances
        (session.afterCall id request none
          (session.world.carryOut (chances session.turn).weigher request).2) := by
  change (ExceptT.bindCont later (session.answer id chances request).1).play id chances
    (session.answer id chances request).2 = _
  simp only [Session.answer, unrefused, World.reply_accepted, Chance.refusal, ite_self]
  rfl

theorem Script.play_attempt {attempt : Attempt α} {later : α → Attempt β} {value : α} {after : Session}
    (played : attempt.run.play id chances session = some (.ok value, after)) :
    (attempt >>= later).run.play id chances session = (later value).run.play id chances after := by
  change (attempt.run >>= ExceptT.bindCont later).play id chances session = _
  rw [Script.play_bind, played]
  rfl

theorem Script.play_attemptOf {script : Script α} {later : α → Attempt β} {value : α} {after : Session}
    (played : script.play id chances session = some (value, after)) :
    (Attempt.of script >>= later).run.play id chances session = (later value).run.play id chances after := by
  refine Script.play_attempt ?_
  change (script >>= fun value => Script.done (Except.ok value)).play id chances session = _
  rw [Script.play_bind, played]
  rfl

end Parts

namespace Coordinator.State

theorem afterEffect_of_open {state : State} (opened : state.closed = false) {wall : Instant} {draw : Nat}
    {node : Address} : state.afterEffect wall draw (.enqueue node) =
      some (true, { state with queue := state.queue ++ [node] }.note (.queued node)) :=
  if_neg (by simp [opened])

/-- The addresses of the entries of which a report comes into the queue. -/
def takesIn (state : State) (entries : List (Address × Liveness)) : List Address :=
  if state.closed then [] else reportable entries

theorem takesIn_of_open {state : State} (opened : state.closed = false)
    (entries : List (Address × Liveness)) : state.takesIn entries = reportable entries :=
  if_neg (by simp [opened])

theorem takesIn_singleton (state : State) (entry : Address × Liveness) : state.takesIn [entry] =
    if Intake.accepts entry.1.text && !state.closed then [entry.1] else [] := by
  rw [takesIn, Detection.reportable_singleton]
  cases state.closed <;> simp

theorem takesIn_cons (state : State) (entry : Address × Liveness) (rest : List (Address × Liveness)) :
    state.takesIn (entry :: rest) = state.takesIn [entry] ++ state.takesIn rest := by
  unfold takesIn
  split
  · rfl
  · exact Detection.reportable_cons entry rest

/-- A report of the node has come into the queue. -/
def reported (state : State) (node : Address) : State :=
  { state with pending := state.pending + 1, queue := state.queue ++ [node] }.note (.queued node)

/-- The records of the entries are flipped to dead and the nodes they name are queued, if the queue
is open, with what the log says of that. -/
def swept (state : State) (entries : List (Address × Liveness)) (log : List Occurrence) : State :=
  { state with
    world := { state.world with members := state.world.members.flipped entries }
    queue := state.queue ++ (state.takesIn entries).map Address.trim
    pending := state.pending + (state.takesIn entries).length
    log := log }

theorem swept_cons (state : State) (entry : Address × Liveness) (rest : List (Address × Liveness))
    (log last : List Occurrence) :
    (state.swept [entry] log).swept rest last = state.swept (entry :: rest) last := by
  have same : (state.swept [entry] log).takesIn rest = state.takesIn rest := rfl
  simp only [swept] at same ⊢
  simp only [same, takesIn_cons state entry rest, List.map_append, List.append_assoc,
    List.length_append, Nat.add_assoc]
  rfl

end Coordinator.State

section Plays

variable (id : TaskId) {chances : Chances} {timeoutMillis : Nat} {now : Instant}

-- To compare scripts that submit a report, Lean would trim a text that it does not know.
attribute [local irreducible] Intake.accepts

/-- The session after the swap of the entry was won. -/
private def flipping (session : Session) (entry : Address × Liveness) : Session :=
  session.afterCall id (swapOf entry) none
    { session.world with members := session.world.members.set entry.1 entry.2.markedDead }

/-- The session after a report of the address was submitted, with the number of chances met. -/
private def submitted (session : Session) (address : Address) (turn : Nat) : Session :=
  { session with
    state := if Intake.accepts address.text && !session.state.closed then
      session.state.reported address.trim else session.state
    turn := turn }

/-- What a push of the node comes to. A closed queue leaves everything as it was. -/
theorem play_push (chances : Chances) (session : Session) (node : Address) :
    ∃ turn, (Intake.push node).play id chances session = some (!session.state.closed,
      { session with
        state := if session.state.closed then session.state else session.state.reported node
        turn := turn }) := by
  cases closed : session.state.closed with
  | false =>
      have queued : ∀ wall draw, State.afterEffect { session.state with pending := session.state.pending + 1 }
          wall draw (.enqueue node) = some (true, session.state.reported node) :=
        fun _ _ => State.afterEffect_of_open (by exact closed)
      exact ⟨session.turn + 2, congrArg (fun happened => Option.bind happened _) (queued _ _)⟩
  | true =>
      have refused : ∀ wall draw, State.afterEffect { session.state with pending := session.state.pending + 1 }
          wall draw (.enqueue node) =
            some (false, { session.state with pending := session.state.pending + 1 }) :=
        fun _ _ => if_pos (by exact closed)
      exact ⟨session.turn + 3, congrArg (fun happened => Option.bind happened _) (refused _ _)⟩

/-- A report comes into the queue if it names a node and the queue is open, and the check goes on
with whether it did. -/
theorem play_submit (chances : Chances) (session : Session) (address : Address) :
    ∃ turn, ∀ {β : Type} (later : Bool → Attempt β),
      (Attempt.of (Intake.submit address.text) >>= later).run.play id chances session =
        (later (Intake.accepts address.text && !session.state.closed)).run.play id chances
          (submitted session address turn) := by
  unfold Intake.submit submitted
  split
  case isTrue accepted =>
    obtain ⟨turn, pushed⟩ := play_push id chances session address.trim
    refine ⟨turn, fun later => ?_⟩
    rw [Script.play_attemptOf pushed, accepted, Bool.true_and]
    cases session.state.closed <;> rfl
  case isFalse refused => exact ⟨session.turn, fun later => by rw [Bool.eq_false_iff.2 refused]; rfl⟩

/-- A won swap is answered with yes. -/
private theorem play_swap (heeded : Heeded chances) {session : Session} {node : Address} {record : Liveness}
    (current : session.world.members.record? node = some record) {β : Type} (later : Bool → Attempt β) :
    (Attempt.ask (.swap node record.version record.markedDead) >>= later).run.play id chances session =
      (later true).run.play id chances (flipping id session (node, record)) := by
  have won : session.world.members.swap node record.version record.markedDead =
      (session.world.members.set node record.markedDead, true) :=
    if_pos (Membership.version_of_record? current)
  have unrefused : (chances session.turn).refused (.swap node record.version record.markedDead) = none :=
    heeded.swaps _ (node, record)
  rw [Script.play_attemptAsk unrefused]
  simp only [World.carryOut, won]
  rfl

/-- A due record that is still as it was listed is flipped and reported before the rest is gone
through. -/
theorem sweep_due_plays (heeded : Heeded chances) {entry : Address × Liveness}
    {rest : List (Address × Liveness)} {session : Session}
    (due : Detection.isDue timeoutMillis now entry.2 = true)
    (current : session.world.members.record? entry.1 = some entry.2) :
    ∃ between, between.state = session.state.swept [entry] between.state.log ∧
      ∀ later after, (Detection.sweep timeoutMillis now rest).run.play id chances between =
          some (.ok later, after) →
        (Detection.sweep timeoutMillis now (entry :: rest)).run.play id chances session =
          some (.ok (session.state.takesIn [entry] ++ later), after) := by
  obtain ⟨node, record⟩ := entry
  obtain ⟨turn, submits⟩ := play_submit id chances (flipping id session (node, record)) node
  have same : (flipping id session (node, record)).state.closed = session.state.closed := rfl
  rw [same] at submits
  refine ⟨submitted (flipping id session (node, record)) node turn, ?flipped,
    fun later after played => ?onward⟩
  case flipped =>
    simp only [State.swept, State.takesIn_singleton, submitted, same]
    split <;> simp [State.reported, flipping, Session.afterCall, State.note, Membership.flipped]
  case onward =>
    rw [Detection.sweep, if_pos due, play_swap id heeded current, if_pos rfl, submits,
      Script.play_attempt played, State.takesIn_singleton]
    split <;> rfl

theorem sweep_plays (heeded : Heeded chances) (timeoutMillis : Nat) (now : Instant)
    (listed : List (Address × Liveness)) : ∀ session : Session, (listed.map Prod.fst).Nodup →
      (∀ entry ∈ listed, session.world.members.record? entry.1 = some entry.2) →
      ∃ after, (Detection.sweep timeoutMillis now listed).run.play id chances session =
          some (.ok (session.state.takesIn (dueAmong timeoutMillis now listed)), after) ∧
        after.state = session.state.swept (dueAmong timeoutMillis now listed) after.state.log := by
  induction listed with
  | nil =>
      intro session _ _
      have none : session.state.takesIn [] = [] := ite_self _
      refine ⟨session, congrArg (fun told => some (Except.ok told, session)) none.symm, ?_⟩
      simp [State.swept, dueAmong, none, Membership.flipped]
  | cons entry rest inductionHypothesis =>
      intro session distinct current
      obtain ⟨apart, distinctRest⟩ := List.nodup_cons.1 distinct
      obtain ⟨currentEntry, currentRest⟩ := List.forall_mem_cons.1 current
      rw [dueAmong, List.filter_cons]
      split
      case isTrue due =>
        obtain ⟨between, flipped, onward⟩ := sweep_due_plays id heeded due currentEntry
        have currentStill : ∀ other ∈ rest, between.world.members.record? other.1 = some other.2 := by
          intro other member
          rw [Session.world, flipped]
          refine Eq.trans ?_ (currentRest other member)
          refine Membership.record?_flipped_of_apart fun one same => ?_
          rw [List.mem_singleton.1 same]
          exact fun same => apart (List.mem_map.2 ⟨other, member, same.symm⟩)
        obtain ⟨after, played, swept⟩ := inductionHypothesis between distinctRest currentStill
        refine ⟨after, ?_, ?_⟩
        · have same : between.state.takesIn = session.state.takesIn := by
            rw [flipped]
            rfl
          rw [onward _ _ played, same]
          exact congrArg (fun told => some (Except.ok told, after))
            (State.takesIn_cons _ entry (dueAmong timeoutMillis now rest)).symm
        · rw [swept, flipped, State.swept_cons]
          rfl
      case isFalse undue =>
        obtain ⟨after, played, swept⟩ := inductionHypothesis session distinctRest currentRest
        refine ⟨after, ?_, swept⟩
        rw [Detection.sweep, if_neg undue]
        exact played

/-- What a check comes to, whatever the addresses and the timeout. -/
theorem check_plays (heeded : Heeded chances) (timeoutMillis : Nat) (now : Instant) (session : Session) :
    ∃ after, (checkScript timeoutMillis now).play id chances session =
        some (.checked (.ok (session.state.takesIn
          (dueAmong timeoutMillis now session.world.members.rows))), after) ∧
      after.state = session.state.swept (dueAmong timeoutMillis now session.world.members.rows)
        after.state.log := by
  let listing : Session := session.afterCall id .liveness none session.world
  have distinct : (session.world.members.rows.map Prod.fst).Nodup := session.world.members.nodup_keys
  have current : ∀ entry ∈ session.world.members.rows,
      listing.world.members.record? entry.1 = some entry.2 :=
    fun entry member => Membership.record?_eq_some_iff.2 member
  obtain ⟨after, played, swept⟩ := sweep_plays id heeded timeoutMillis now
    session.world.members.rows listing distinct current
  refine ⟨after, ?_, swept⟩
  have passed : (Detection.pass timeoutMillis now).run.play id chances session =
      some (.ok (session.state.takesIn (dueAmong timeoutMillis now session.world.members.rows)), after) := by
    rw [Detection.pass, Script.play_attemptAsk (heeded.lists _)]
    exact played
  rw [checkScript, Script.play_bind, passed]
  rfl

end Plays

/-! ## States -/

namespace Coordinator.State

/-- The state but for what the log tells. -/
def unlogged (state : State) : State := { state with log := [] }

/-- With nothing else happening and none of its calls refused, a check of the state ends with
these reports and leaves this state, but for what the log tells of it. -/
def Checks (state : State) (timeoutMillis : Nat) (now : Instant) (reports : List Address) (after : State) :
    Prop :=
  ∀ (id : TaskId) (chances : Chances), Heeded chances → ∀ session : Session,
    session.state.unlogged = state.unlogged →
      ∃ last, (checkScript timeoutMillis now).play id chances session =
          some (.checked (.ok reports), last) ∧
        last.state.unlogged = after.unlogged

theorem unlogged_swept (state : State) (entries : List (Address × Liveness)) (log : List Occurrence) :
    (state.swept entries log).unlogged = state.unlogged.swept entries [] := rfl

theorem checks (state : State) (timeoutMillis : Nat) (now : Instant) :
    state.Checks timeoutMillis now (state.takesIn (dueAmong timeoutMillis now state.world.members.rows))
      (state.swept (dueAmong timeoutMillis now state.world.members.rows) []) := by
  intro id chances heeded session same
  have sameWorld : session.state.unlogged.world = state.unlogged.world := congrArg State.world same
  have sameTaken : session.state.unlogged.takesIn = state.unlogged.takesIn := congrArg takesIn same
  obtain ⟨last, played, swept⟩ := check_plays id heeded timeoutMillis now session
  rw [show session.world = state.world from sameWorld] at played swept
  rw [show session.state.takesIn = state.takesIn from sameTaken] at played
  refine ⟨last, played, ?_⟩
  rw [swept, unlogged_swept, unlogged_swept, same]

/-- A check that finds nothing due reports nothing and changes nothing. -/
theorem checks_of_nothing {state : State} {timeoutMillis : Nat} {now : Instant}
    (nothing : dueAmong timeoutMillis now state.world.members.rows = []) :
    state.Checks timeoutMillis now [] state := by
  intro id chances heeded session same
  obtain ⟨last, played, left⟩ := state.checks timeoutMillis now id chances heeded session same
  have none : state.takesIn [] = [] := ite_self _
  rw [nothing, none] at played
  rw [nothing] at left
  refine ⟨last, played, left.trans ?_⟩
  simp [swept, unlogged, none, Membership.flipped]

end Coordinator.State

/-! ## The records after a check -/

section Records

variable {timeoutMillis : Nat} {now : Instant} {members : Membership} {node : Address} {record : Liveness}

attribute [local irreducible] Intake.accepts

theorem Membership.mem_dueAmong : (node, record) ∈ dueAmong timeoutMillis now members.rows ↔
    members.record? node = some record ∧ Detection.isDue timeoutMillis now record = true := by
  rw [record?_eq_some_iff]
  exact List.mem_filter

/-- A check flips the due records and leaves the others as they are. -/
theorem Membership.record?_flipped_dueAmong (timeoutMillis : Nat) (now : Instant) (members : Membership)
    (node : Address) : (members.flipped (dueAmong timeoutMillis now members.rows)).record? node =
      (members.record? node).map fun record =>
        if Detection.isDue timeoutMillis now record then record.markedDead else record := by
  have distinct : ((dueAmong timeoutMillis now members.rows).map Prod.fst).Nodup :=
    members.nodup_keys.sublist (List.filter_sublist.map Prod.fst)
  by_cases flips : ∃ record, (node, record) ∈ dueAmong timeoutMillis now members.rows
  · obtain ⟨record, member⟩ := flips
    obtain ⟨there, due⟩ := mem_dueAmong.1 member
    rw [record?_flipped_of_mem distinct member, there, Option.map_some, if_pos due]
  · have apart : ∀ entry ∈ dueAmong timeoutMillis now members.rows, entry.1 ≠ node := by
      rintro ⟨_, record⟩ member rfl
      exact flips ⟨record, member⟩
    rw [record?_flipped_of_apart apart]
    cases there : members.record? node with
    | none => rfl
    | some record =>
        have undue : ¬ Detection.isDue timeoutMillis now record = true := fun due =>
          flips ⟨record, mem_dueAmong.2 ⟨there, due⟩⟩
        rw [Option.map_some, if_neg undue]

/-- A record that is due after a check, whenever that is, was left alone by the check. -/
theorem Membership.undue_of_due_flipped {later : Instant} {seen : Liveness}
    (there : (members.flipped (dueAmong timeoutMillis now members.rows)).record? node = some seen)
    (due : Detection.isDue timeoutMillis later seen = true) :
    members.record? node = some seen ∧ Detection.isDue timeoutMillis now seen = false := by
  rw [record?_flipped_dueAmong, Option.map_eq_some_iff] at there
  obtain ⟨record, known, same⟩ := there
  split at same
  case isTrue =>
    rw [← same, Detection.isDue_markedDead] at due
    cases due
  case isFalse undue =>
    subst same
    exact ⟨known, Bool.eq_false_iff.2 undue⟩

theorem Membership.mem_map_dueAmong : node ∈ (dueAmong timeoutMillis now members.rows).map Prod.fst ↔
    ∃ record, members.record? node = some record ∧ Detection.isDue timeoutMillis now record = true := by
  constructor
  · intro member
    obtain ⟨⟨_, record⟩, inside, rfl⟩ := List.mem_map.1 member
    exact ⟨record, mem_dueAmong.1 inside⟩
  · rintro ⟨record, due⟩
    exact List.mem_map.2 ⟨(node, record), mem_dueAmong.2 due, rfl⟩

/-- Addresses without white space around them, none of them blank. -/
def Membership.Proper (members : Membership) : Prop :=
  ∀ entry ∈ members.rows, entry.1.trim = entry.1 ∧ entry.1.isBlank = false

instance (members : Membership) : Decidable members.Proper :=
  inferInstanceAs (Decidable (∀ entry ∈ members.rows, _))

theorem Membership.Proper.reportable_dueAmong (proper : members.Proper) :
    reportable (dueAmong timeoutMillis now members.rows) =
      (dueAmong timeoutMillis now members.rows).map Prod.fst := by
  refine congrArg (List.map Prod.fst) (List.filter_eq_self.2 ?_)
  intro entry member
  have named : Text.isBlank entry.1.text = false := (proper entry (List.mem_of_mem_filter member)).2
  have accepted : Intake.accepts entry.1.text = true := (Intake.accepts_iff entry.1.text).2 named
  exact accepted

/-- Such addresses are queued as they are. -/
theorem Membership.Proper.trim_dueAmong (proper : members.Proper) :
    ((dueAmong timeoutMillis now members.rows).map Prod.fst).map Address.trim =
      (dueAmong timeoutMillis now members.rows).map Prod.fst := by
  rw [List.map_map]
  exact List.map_congr_left fun entry member => (proper entry (List.mem_of_mem_filter member)).1

theorem Membership.Proper.flipped (proper : members.Proper) :
    (members.flipped (dueAmong timeoutMillis now members.rows)).Proper := by
  rintro ⟨node, seen⟩ member
  have there := record?_eq_some_iff.2 member
  rw [record?_flipped_dueAmong, Option.map_eq_some_iff] at there
  obtain ⟨record, known, -⟩ := there
  exact proper (node, record) (record?_eq_some_iff.1 known)

end Records

/-! ## The law -/

namespace Coordinator.State

variable {timeoutMillis : Nat} {now : Instant}

/-- What a check makes of a state, and what the next one makes of that. -/
structure Inspected (timeoutMillis : Nat) (now : Instant) (before : State) (reports : List Address)
    (after : State) : Prop where
  /-- It reports the nodes whose heartbeats stopped and those that need recovery, in address order. -/
  ordered : reports.Pairwise (· < ·)
  due : ∀ node, node ∈ reports ↔ ∃ record, before.world.members.record? node = some record ∧
    (Stale timeoutMillis now record ∨ record = .neverAlive)
  /-- Their records are flipped to dead, under the next version and with the heartbeat they had. -/
  flips : ∀ node ∈ reports, ∀ record, before.world.members.record? node = some record →
    after.world.members.record? node = some ⟨false, record.version + 1, record.lastHeartbeat⟩
  spares : ∀ node, node ∉ reports →
    after.world.members.record? node = before.world.members.record? node
  /-- Just these nodes are queued, in this order, and nothing else changes. -/
  queues : after.unlogged = { before.unlogged with
    world := { before.world with members := after.world.members }
    queue := before.queue ++ reports
    pending := before.pending + reports.length }
  /-- Made again at the same moment, the check reports nothing and changes nothing. -/
  again : after.Checks timeoutMillis now [] after
  /-- Made at another moment, it reports only nodes that were alive, with a heartbeat that was not
  yet too old the first time. -/
  later : ∀ moment, ∃ more last, after.Checks timeoutMillis moment more last ∧ ∀ node ∈ more,
    ∃ record heard, before.world.members.record? node = some record ∧ record.alive = true ∧
      record.lastHeartbeat = some heard ∧ heard.age now ≤ timeoutMillis * Instant.nanosPerMilli

/-- Every state of a run has an open queue, and so it is for these (`closed_of_run`). -/
theorem check_exact (state : State) (now : Instant) (opened : state.closed = false)
    (bounded : timeoutMillis ≤ MonitorSettings.longestTimeout) (proper : state.world.members.Proper) :
    ∃ reports after, state.Checks timeoutMillis now reports after ∧
      Inspected timeoutMillis now state reports after := by
  have dueIff : ∀ moment record, Detection.isDue timeoutMillis moment record = true ↔
      Stale timeoutMillis moment record ∨ record = .neverAlive := by
    intro moment record
    rw [Detection.isDue_iff, MonitorSettings.effectiveTimeout, if_pos bounded]
  have told := state.checks timeoutMillis now
  have taken := takesIn_of_open opened
  rw [taken, proper.reportable_dueAmong] at told
  refine ⟨_, _, told, ?ordered, fun node => ?due, ?flips, ?spares, ?queues, ?again, fun moment => ?later⟩
  case ordered =>
    exact List.pairwise_map.2 (state.world.members.ordered.filter _)
  case due =>
    simp only [Membership.mem_map_dueAmong, dueIff]
  case flips =>
    intro node member record there
    obtain ⟨_, known, due⟩ := Membership.mem_map_dueAmong.1 member
    cases known.symm.trans there
    rw [swept, Membership.record?_flipped_dueAmong, there, Option.map_some, if_pos due]
    rfl
  case spares =>
    intro node apart
    rw [swept, Membership.record?_flipped_dueAmong]
    cases there : state.world.members.record? node with
    | none => rfl
    | some record =>
        have undue : ¬ Detection.isDue timeoutMillis now record = true := fun due =>
          apart (Membership.mem_map_dueAmong.2 ⟨record, there, due⟩)
        rw [Option.map_some, if_neg undue]
  case queues =>
    simp only [swept, unlogged, taken, proper.reportable_dueAmong, proper.trim_dueAmong]
  case again =>
    have nothing : dueAmong timeoutMillis now
        (state.world.members.flipped (dueAmong timeoutMillis now state.world.members.rows)).rows = [] := by
      refine List.filter_eq_nil_iff.2 fun entry member due => ?_
      have there := Membership.record?_eq_some_iff.2 member
      rw [(Membership.undue_of_due_flipped there due).2] at due
      cases due
    exact checks_of_nothing nothing
  case later =>
    refine ⟨_, _, checks _ timeoutMillis moment, fun node member => ?_⟩
    rw [takesIn_of_open (by exact opened), swept, proper.flipped.reportable_dueAmong] at member
    obtain ⟨record, there, due⟩ := Membership.mem_map_dueAmong.1 member
    obtain ⟨known, undue⟩ := Membership.undue_of_due_flipped there due
    rw [← Bool.not_eq_true, dueIff, not_or] at undue
    obtain ⟨alive, heard, last, -⟩ := ((dueIff _ _).1 due).resolve_right undue.2
    exact ⟨record, heard, known, alive, last, Int.not_lt.1 fun older => undue.1 ⟨alive, heard, last, older⟩⟩

/-- At 20 seconds one node is alive but was not heard since the beginning, one was heard lately, one
needs recovery, and one is known to be dead. -/
private def watched : State :=
  .initial default
    { World.initial with
      members := .ofList [(⟨"a:1"⟩, .heardAt ⟨0, 0⟩ 1), (⟨"b:1"⟩, .heardAt ⟨15, 0⟩ 3),
        (⟨"c:1"⟩, .neverAlive), (⟨"d:1"⟩, ⟨false, 2, some ⟨0, 0⟩⟩)] }

theorem check_exact_of_four :
    10000 ≤ MonitorSettings.longestTimeout ∧ watched.world.members.Proper ∧
    ∃ after, watched.Checks 10000 ⟨20, 0⟩ [⟨"a:1"⟩, ⟨"c:1"⟩] after ∧
      Inspected 10000 ⟨20, 0⟩ watched [⟨"a:1"⟩, ⟨"c:1"⟩] after := by
  have bounded : 10000 ≤ MonitorSettings.longestTimeout := by decide
  have proper : watched.world.members.Proper := by decide
  obtain ⟨reports, after, checks, inspected⟩ := check_exact watched ⟨20, 0⟩ rfl bounded proper
  obtain ⟨last, played, -⟩ := checks 0 .calm ⟨fun _ => rfl, fun _ _ => rfl⟩ (.opening watched) rfl
  have known : (checkScript 10000 ⟨20, 0⟩).play 0 .calm (.opening watched) =
      some (.checked (.ok [⟨"a:1"⟩, ⟨"c:1"⟩]), _) := rfl
  cases played.symm.trans known
  exact ⟨bounded, proper, after, checks, inspected⟩

end Coordinator.State

end Handover
