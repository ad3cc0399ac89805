import Handover.Proofs.Fencing

/-!
Contract: the version of a node's record as a token that is won at most once.

Owns: which write on the table of who is alive an event is, whoever makes it; that without a
reset the version of a node never falls, and rises with every heartbeat and every won swap; and
that from each version at most one swap is won, by a check that finds what it listed.

The stale listings of any number of checks are not followed one by one. A record that was
listed is still there as long as the version is the listed one, and this relation of an earlier
table to a later one is transitive, so it holds from any listing to any swap.
-/

set_option autoImplicit false

namespace Handover

open Time (Instant)

/-! ## The table -/

namespace Membership

variable {members before after later : Membership} {node other : Address} {record : Liveness}

/-- What holds between the table and a later one where nothing resets the node's record. -/
structure Succeeds (node : Address) (before after : Membership) : Prop where
  grows : before.version node ≤ after.version node
  /-- A record that was there is still there if the version is still its own. -/
  keeps : ∀ seen, before.record? node = some seen → after.version node = seen.version →
    after.record? node = some seen

namespace Succeeds

theorem of_record? (same : after.record? node = before.record? node) : Succeeds node before after where
  grows := by rw [version, version, liveness, liveness, same]
  keeps := fun _ there _ => same.trans there

theorem refl : Succeeds node members members := of_record? rfl

theorem of_lt (rises : before.version node < after.version node) : Succeeds node before after where
  grows := Nat.le_of_lt rises
  keeps := fun seen there same => by
    rw [version_of_record? there] at rises
    omega

theorem trans (first : Succeeds node before after) (second : Succeeds node after later) :
    Succeeds node before later where
  grows := Nat.le_trans first.grows second.grows
  keeps := fun seen there same => by
    have earlier := first.grows
    have sooner := second.grows
    rw [version_of_record? there] at earlier
    exact second.keeps seen (first.keeps seen there (by omega)) same

end Succeeds

theorem version_set_self : (members.set node record).version node = record.version :=
  version_of_record? record?_set_self

theorem version_heartbeat_self (moment : Instant) :
    (members.heartbeat node moment).version node = members.version node + 1 := by
  rw [heartbeat, version_set_self, version, liveness]
  cases members.record? node <;> rfl

theorem succeeds_heartbeat (moment : Instant) : Succeeds node members (members.heartbeat other moment) := by
  by_cases same : other = node
  · subst same
    exact .of_lt (by rw [version_heartbeat_self]; exact Nat.lt_succ_self _)
  · exact .of_record? (by rw [heartbeat, record?_set, if_neg same])

/-- A node that is first seen when it is declared dead is filed under version 0. -/
theorem succeeds_markDead : Succeeds node members (members.markDead other) := by
  by_cases same : other = node
  · subst same
    cases there : members.record? other with
    | none =>
        refine ⟨?_, fun seen listed => by rw [there] at listed; cases listed⟩
        rw [version, liveness, there]
        exact Nat.zero_le _
    | some seen =>
        refine .of_lt ?_
        rw [markDead, version_set_self, version_of_record? there, there]
        exact Nat.lt_succ_self _
  · exact .of_record? (by rw [markDead, record?_set, if_neg same])

theorem swap_won_iff {expected : Nat} :
    (members.swap node expected record).2 = true ↔ members.version node = expected := by
  unfold swap
  split <;> simp [*]

/-- A won swap to the next version raises the version. -/
theorem version_swap_won {expected : Nat} (next : record.version = expected + 1)
    (won : (members.swap node expected record).2 = true) :
    members.version node < (members.swap node expected record).1.version node := by
  have found := swap_won_iff.1 won
  rw [swap, if_pos found, version_set_self]
  omega

theorem succeeds_swap {expected : Nat} (next : other = node → record.version = expected + 1) :
    Succeeds node members (members.swap other expected record).1 := by
  by_cases same : other = node
  · subst same
    cases won : (members.swap other expected record).2 with
    | true => exact .of_lt (version_swap_won (next rfl) won)
    | false =>
        have lost : members.version other ≠ expected := fun found => by
          rw [swap_won_iff.2 found] at won
          cases won
        rw [swap, if_neg lost]
        exact .refl
  · exact .of_record? (record?_swap_ne same expected)

end Membership

namespace Coordinator.State

variable {state next : State} {event : Event} {node : Address}

/-! ## One event -/

/-- The write that the event is, whoever makes it: another actor, a call of a task that is
carried out, or this node when it is heard. -/
def written? (state : State) : Event → Option Write
  | .write entry _ => some entry
  | .answer id _ none =>
      match state.request? id with
      | some (.reset other record _) => some (.reset other record)
      | some (.swap other expected record) => some (.swap other expected record)
      | _ => none
  | .effect id wall draw =>
      match state.deed? (.effect id wall draw) with
      | some (_, .heartbeat other) => some (.heartbeat other none)
      | _ => none
  | _ => none

/-- The event does not reset the record of the node. A swap of it by another actor is one that
a check makes, to the next version. -/
def Unreset (node : Address) (state : State) (event : Event) : Prop :=
  match state.written? event with
  | some (.reset other _) => other ≠ node
  | some (.swap other expected record) =>
      event.mover = none ∧ other = node → record.version = expected + 1
  | _ => True

instance : Decidable (state.Unreset node event) := by
  unfold Unreset
  split
  case h_1 => exact inferInstanceAs (Decidable (¬ _ = _))
  case h_2 => exact instDecidableForall
  case h_3 => exact instDecidableTrue

/-- The swap of the node's record that the event is: the version it expects, and whether it is
won. -/
def swapped? (node : Address) (state : State) (event : Event) : Option (Nat × Bool) :=
  match state.written? event with
  | some (.swap other expected record) =>
      if other = node then some (expected, (state.world.members.swap other expected record).2) else none
  | _ => none

/-- The event is a heartbeat of the node or a won swap of its record. -/
def Raises (node : Address) (state : State) (event : Event) : Prop :=
  (∃ moment, state.written? event = some (.heartbeat node moment)) ∨
    ∃ expected, state.swapped? node event = some (expected, true)

theorem swapped?_eq_some_iff {expected : Nat} {won : Bool} :
    state.swapped? node event = some (expected, won) ↔
      ∃ record, state.written? event = some (.swap node expected record) ∧
        won = (state.world.members.swap node expected record).2 := by
  unfold swapped?
  constructor
  · intro swaps
    split at swaps
    case h_1 other known record writes =>
      by_cases same : other = node
      · subst same
        rw [if_pos rfl] at swaps
        cases swaps
        exact ⟨record, writes, rfl⟩
      · rw [if_neg same] at swaps
        cases swaps
    case h_2 => cases swaps
  · rintro ⟨record, writes, rfl⟩
    rw [writes]
    exact if_pos rfl

theorem step_members (stepped : state.step event = some next) :
    (state.written? event = none ∧ next.world.members = state.world.members) ∨
      ∃ entry wall, state.written? event = some entry ∧
        next.world.members = (state.world.afterWrite wall entry).members := by
  rw [step_world stepped]
  cases event with
  | write entry wall => exact .inr ⟨entry, wall, rfl, rfl⟩
  | answer id shares refused =>
      cases calls : state.request? id with
      | none => exact .inl ⟨by cases refused <;> simp [written?, calls], by rw [worldNext, calls]⟩
      | some request =>
          rw [worldNext, calls]
          cases refused with
          | some detail => exact .inl ⟨rfl, reply_refused_members _ _ _ _⟩
          | none =>
              cases request
              case reset other record synchronized =>
                exact .inr ⟨.reset other record, default, by rw [written?, calls], rfl⟩
              case swap other expected record =>
                exact .inr ⟨.swap other expected record, default, by rw [written?, calls], rfl⟩
              all_goals exact .inl ⟨by rw [written?, calls], rfl⟩
  | effect id wall draw =>
      cases own : state.deed? (.effect id wall draw) with
      | none => exact .inl ⟨by rw [written?, own], by rw [worldNext, own]⟩
      | some deed =>
          obtain ⟨other, deed⟩ := deed
          rw [worldNext, own]
          cases deed
          case heartbeat heard => exact .inr ⟨.heartbeat heard none, wall, by rw [written?, own], rfl⟩
          all_goals exact .inl ⟨by rw [written?, own], rfl⟩
  | _ => exact .inl ⟨rfl, rfl⟩

/-- Where nothing is reset, every swap of the node's record is one to the next version. -/
theorem swap_next (honest : ∀ id task expected record, state.task? id = some task →
      task.call? = some (.swap node expected record, true) → record.version = expected + 1)
    (unreset : state.Unreset node event) {expected : Nat} {record : Liveness}
    (swaps : state.written? event = some (.swap node expected record)) : record.version = expected + 1 := by
  cases event with
  | write entry wall =>
      obtain rfl : entry = .swap node expected record := Option.some.inj swaps
      exact unreset ⟨rfl, rfl⟩
  | answer id shares refused =>
      cases refused with
      | some detail => cases swaps
      | none =>
          rw [written?] at swaps
          split at swaps
          case h_1 => cases swaps
          case h_2 calls =>
            cases swaps
            obtain ⟨task, found, begun⟩ := request?_eq_some_iff.1 calls
            exact honest id task expected record found begun
          case h_3 => cases swaps
  | effect id wall draw =>
      rw [written?] at swaps
      split at swaps <;> cases swaps
  | _ => cases swaps

section Step

variable (stepped : state.step event = some next)
  (honest : ∀ id task expected record, state.task? id = some task →
    task.call? = some (.swap node expected record, true) → record.version = expected + 1)
  (unreset : state.Unreset node event)

include stepped honest unreset

theorem step_succeeds : Membership.Succeeds node state.world.members next.world.members := by
  obtain ⟨_, same⟩ | ⟨entry, wall, writes, same⟩ := step_members stepped
  · rw [same]
    exact .refl
  · rw [same]
    cases entry with
    | heartbeat other moment => exact Membership.succeeds_heartbeat _
    | markDead other => exact Membership.succeeds_markDead
    | reset other record =>
        have apart : other ≠ node := by
          unfold Unreset at unreset
          rw [writes] at unreset
          exact unreset
        exact .of_record? (by rw [World.afterWrite, Membership.record?_set, if_neg apart])
    | swap other expected record =>
        refine Membership.succeeds_swap ?_
        rintro rfl
        exact swap_next honest unreset writes
    | _ => exact .refl

theorem step_raises (raises : state.Raises node event) :
    state.world.members.version node < next.world.members.version node := by
  obtain ⟨writes, same⟩ | ⟨entry, wall, writes, same⟩ := step_members stepped
  · obtain ⟨_, heard⟩ | ⟨_, won⟩ := raises
    · rw [writes] at heard
      cases heard
    · rw [swapped?, writes] at won
      cases won
  · rw [same]
    obtain ⟨moment, heard⟩ | ⟨expected, won⟩ := raises
    · rw [writes] at heard
      cases heard
      rw [World.afterWrite, Membership.version_heartbeat_self]
      exact Nat.lt_succ_self _
    · obtain ⟨record, swaps, won⟩ := swapped?_eq_some_iff.1 won
      rw [writes] at swaps
      cases swaps
      exact Membership.version_swap_won (swap_next honest unreset writes) won.symm

end Step

/-! ## Runs -/

/-- Counts the won swaps of the node's record that expected the version. -/
def winsFrom (node : Address) (expected : Nat) (state : State) (event : Event) : Nat :=
  if state.swapped? node event = some (expected, true) then 1 else 0

/-- What holds of the version of a node's record over a part of a run that does not reset it. -/
structure Versioned (origin : State) (before : List Event) (node : Address) (start : State)
    (events : List Event) (state : State) : Prop where
  grows : start.world.members.version node ≤ state.world.members.version node
  rises : ∀ first event last middle next, events = first ++ event :: last →
    start.run first = some middle → middle.step event = some next → middle.Raises node event →
      middle.world.members.version node < next.world.members.version node
  /-- Of all swaps that expect one version, at most one is won. -/
  once : ∀ expected, start.tally (winsFrom node expected) events ≤ 1
  /-- Whoever listed a record at the start finds it by a swap that is won. -/
  finds : ∀ seen record, start.world.members.record? node = some seen →
    state.Wins node seen.version record → state.world.members.record? node = some seen
  /-- Every swap of a check goes back to its own listing, and finds that record. -/
  issued : ∀ id task expected record, state.task? id = some task →
    task.call? = some (.swap node expected record, true) →
      ∃ timeoutMillis now seen listing between, expected = seen.version ∧ record = seen.markedDead ∧
        SwapOf origin (before ++ events) id task.duty timeoutMillis now node seen listing between ∧
        (listing.Along (Unreset node) between → state.Wins node expected record →
          state.world.members.record? node = some seen)

section Run

variable {settings : Settings} {world : World} {before events : List Event}
  {start : State}

theorem run_succeeds (ran : (initial settings world).run before = some start)
    (kept : start.Along (Unreset node) events) (run : start.run events = some state) :
    Membership.Succeeds node start.world.members state.world.members := by
  refine run_induction (motive := fun _ state =>
    Membership.Succeeds node start.world.members state.world.members) .refl ?_ kept run
  rintro events event middle next - run unreset stepped succeeds
  exact succeeds.trans (step_succeeds stepped (swaps_honest (run_trans ran run)) unreset)

/-- A version that was won once is passed for good. -/
theorem run_wins_once (ran : (initial settings world).run before = some start)
    (kept : start.Along (Unreset node) events) (run : start.run events = some state) (expected : Nat) :
    start.tally (winsFrom node expected) events = 0 ∨
      (start.tally (winsFrom node expected) events = 1 ∧
        expected < state.world.members.version node) := by
  refine run_induction (motive := fun events state =>
    start.tally (winsFrom node expected) events = 0 ∨
      (start.tally (winsFrom node expected) events = 1 ∧
        expected < state.world.members.version node)) (.inl rfl) ?_ kept run
  rintro events event middle next - run unreset stepped soFar
  have whole := run_trans ran run
  have grows := (step_succeeds stepped (swaps_honest whole) unreset).grows
  rw [tally_snoc run, winsFrom]
  by_cases won : middle.swapped? node event = some (expected, true)
  · obtain ⟨record, _, applied⟩ := swapped?_eq_some_iff.1 won
    have found : middle.world.members.version node = expected :=
      Membership.swap_won_iff.1 applied.symm
    have rises := step_raises stepped (swaps_honest whole) unreset (.inr ⟨expected, won⟩)
    rw [if_pos won]
    omega
  · rw [if_neg won]
    omega

/-- The version of a node's record is won at most once, as long as nothing resets the record. -/
theorem run_versions (ran : (initial settings world).run before = some start)
    (kept : start.Along (Unreset node) events) (run : start.run events = some state) :
    Versioned (initial settings world) before node start events state where
  grows := (run_succeeds ran kept run).grows
  rises := by
    rintro first event last middle next rfl ranFirst stepped raises
    have unreset : middle.Unreset node event := ((along_append.1 kept).2 middle ranFirst).1
    exact step_raises stepped (swaps_honest (run_trans ran ranFirst)) unreset raises
  once := fun expected => by
    have counted := run_wins_once ran kept run expected
    omega
  finds := fun seen record listed wins =>
    (run_succeeds ran kept run).keeps seen listed (wins_iff.1 wins)
  issued := by
    intro id task expected record found swaps
    have whole := run_trans ran run
    obtain ⟨timeoutMillis, now, seen, listing, between, rfl, rfl, swapOf, _⟩ :=
      swap_fenced whole found swaps
    refine ⟨timeoutMillis, now, seen, listing, between, rfl, rfl, swapOf, fun unreset wins => ?_⟩
    obtain ⟨heard, shares, split, ranListing⟩ := swapOf.split
    have since : listing.run between = some state := by
      have parts : heard ++ .answer id shares none :: between =
          (heard ++ [.answer id shares none]) ++ between := by simp
      rw [split, parts, run_append, ranListing] at whole
      exact whole
    exact (run_succeeds ranListing unreset since).keeps seen swapOf.listed (wins_iff.1 wins)

end Run

/-- Two nodes that were last heard a second after the beginning. -/
private def twoSilent : World :=
  { World.initial with
    members := .ofList [(⟨"a"⟩, .heardAt ⟨1, 0⟩ 1), (⟨"b"⟩, .heardAt ⟨1, 0⟩ 1)] }

/-- Two checks list the same records, and the first of them kills one node while the other node
is heard. Then both go on: the first about the other node, the second about the dead one. -/
private def racing : List Event :=
  [.arrive [.check 10000 ⟨100, 0⟩], .proceed 0, .start 0, .answer 0 none none,
    .arrive [.check 10000 ⟨100, 0⟩], .proceed 1, .start 1, .answer 1 none none,
    .start 0, .start 1, .write (.heartbeat ⟨"b"⟩ none) ⟨100, 0⟩, .answer 0 none none]

theorem run_versions_of_racing : ∃ state task,
    (initial default twoSilent).Along (Unreset ⟨"a"⟩) racing ∧
      (initial default twoSilent).run racing = some state ∧ state.task? 1 = some task ∧
      task.call? = some (.swap ⟨"a"⟩ 1 (Liveness.heardAt ⟨1, 0⟩ 1).markedDead, true) ∧
      (initial default twoSilent).tally (winsFrom ⟨"a"⟩ 1) racing = 1 ∧
      ¬ state.Wins ⟨"a"⟩ 1 (Liveness.heardAt ⟨1, 0⟩ 1).markedDead ∧
      Versioned (initial default twoSilent) [] ⟨"a"⟩ (initial default twoSilent) racing
        state := by
  have kept : (initial default twoSilent).Along (Unreset ⟨"a"⟩) racing :=
    along_of_tally (by decide +kernel)
  obtain ⟨state, task, run, found, swaps, raised⟩ : ∃ state task,
      (initial default twoSilent).run racing = some state ∧ state.task? 1 = some task ∧
        task.call? = some (.swap ⟨"a"⟩ 1 (Liveness.heardAt ⟨1, 0⟩ 1).markedDead, true) ∧
        state.world.members.version ⟨"a"⟩ = 2 := ⟨_, _, rfl, rfl, rfl, rfl⟩
  refine ⟨state, task, kept, run, found, swaps, by decide +kernel, ?_, run_versions rfl kept run⟩
  rw [wins_iff, raised]
  decide

end Coordinator.State

end Handover
