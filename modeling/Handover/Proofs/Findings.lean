import Handover.Proofs.Passes

/-!
Contract: what a check of the heartbeats finds.

Owns: how often a check queues a node, by the swaps that it won; that it leaves alone a node
that is not due when the records are listed; and that it wins a record that is due at any time
just once, if nothing else is done to that record.

An address names the node that is left when it is trimmed, and the records of several
addresses can name one node.
-/

set_option autoImplicit false

namespace Handover

open Detection (swapOf)

/-- How many of the swaps that were won are of such an address. -/
def wonOf (holds : Address → Bool) (heard : List Heard) : Nat :=
  heard.countP fun one => one.won?.any holds

theorem wonOf_append (holds : Address → Bool) (newer older : List Heard) :
    wonOf holds (newer ++ older) = wonOf holds newer + wonOf holds older := List.countP_append

/-- How often the record of the node itself was won. -/
def ownWins (node : Address) (heard : List Heard) : Nat :=
  wonOf (fun address => decide (address = node)) heard

/-- How often the record of another address was won that names the node too. -/
def namesakeWins (node : Address) (heard : List Heard) : Nat :=
  wonOf (fun address => decide (address ≠ node ∧ address.trim = node)) heard

theorem ownWins_append (node : Address) (newer older : List Heard) :
    ownWins node (newer ++ older) = ownWins node newer + ownWins node older := wonOf_append _ _ _

/-- An address that names the node is the node itself or another one. -/
theorem wonOf_naming {node : Address} (trimmed : node.trim = node) (heard : List Heard) :
    wonOf (fun address => decide (address.trim = node)) heard =
      ownWins node heard + namesakeWins node heard := by
  rw [wonOf, List.countP_eq_countP_filter_add _ _ fun one =>
    one.won?.any fun address => decide (address = node), List.countP_filter, List.countP_filter]
  congr 1
  · refine List.countP_congr fun one _ => ?_
    cases one.won? <;> simp
    rintro rfl
    exact trimmed
  · refine List.countP_congr fun one _ => ?_
    cases one.won? <;> simp [and_comm]

/-- A swap that is carried out is won just if the version is the expected one. -/
theorem won?_swapOf (world : World) (weigher : Weigher) (entry : Address × Liveness) :
    (Heard.mk (swapOf entry) (world.reply weigher (swapOf entry) none).1).won? =
      if world.members.version entry.1 = entry.2.version then some entry.1 else none := by
  simp only [swapOf, World.reply, World.carryOut, Membership.swap]
  split <;> rfl

namespace Coordinator.State

variable {settings : Settings} {world : World} {before events during : List Event}
  {now listing state ended next : State} {event : Event} {id : TaskId} {node : Address}

/-- Counts how often the task queues the node. -/
def queuesOf (id : TaskId) (node : Address) (state : State) (event : Event) : Nat :=
  if state.deed? event = some (id, .enqueue node) ∧ state.closed = false then 1 else 0

/-- The swap of an address that names the node calls for one report of it. -/
theorem count_reports (named : node.isBlank = false) (one : Heard) :
    one.reports.count node = wonOf (fun address => decide (address.trim = node)) [one] := by
  cases won : one.won? with
  | none => simp [Heard.reports, wonOf, won]
  | some address =>
      by_cases same : address.trim = node
      · have accepted : Intake.accepts address.text = true := by
          unfold Intake.accepts
          change (!address.trim.isBlank) = true
          rw [same, named]
          rfl
        simp [Heard.reports, wonOf, won, accepted, same]
      · cases accepted : Intake.accepts address.text <;> simp [Heard.reports, wonOf, won, accepted, same]

theorem hears_of_unanswered (unanswered : event.answered? ≠ some id) : state.hears id event = [] := by
  cases event
  case answer other shares refused => exact if_neg fun self => unanswered (congrArg some self)
  all_goals rfl

theorem hears_of_deed? {other : TaskId} {deed : Effect} (own : state.deed? event = some (other, deed)) :
    state.hears id event = [] := by
  cases event <;> first | rfl | cases own

theorem hears_of_request? {request : Call} (calls : state.request? id = some request)
    (shares : Option Shares) : state.hears id (.answer id shares none) =
      [⟨request, (state.world.reply (.answering shares) request none).1⟩] := by
  rw [hears, if_pos rfl, calls]

/-- A check queues a node as often as it wins the record of an address that names the node. -/
theorem Pass.queues (pass : Pass now id listing during ended)
    (ran : (initial settings world).run before = some now) (named : node.isBlank = false) :
    listing.tally (queuesOf id node) during =
      wonOf (fun address => decide (address.trim = node)) (listing.heard id during) := by
  refine pass.induction (motive := fun events _ _ owed =>
    listing.tally (queuesOf id node) events + owed.count node =
      wonOf (fun address => decide (address.trim = node)) (listing.heard id events)) ran
    (fun _ _ => rfl) ?_ (along_of_forall fun _ _ => trivial)
  intro events event state next due owed dueThen owedThen run _ _ combing before
  have opened : state.closed = false := (closed_of_run run).trans (pass.opened ran)
  rw [tally_snoc run, heard_snoc run, wonOf_append]
  cases combing with
  | apart unanswered idle =>
      rw [hears_of_unanswered unanswered, queuesOf, if_neg fun own => idle _ own.1]
      simpa [wonOf] using before
  | swapped calls =>
      rw [hears_of_request? calls _, ← count_reports named, queuesOf, if_neg fun own => nomatch own.1]
      simp only [List.count_nil] at before
      omega
  | @acted _ deed _ owed own reports =>
      have queued : queuesOf id node state event = deed.queues.count node := by
        rw [queuesOf, own, opened]
        cases deed <;> simp [Effect.queues, List.count_singleton]
      rw [hears_of_deed? own, queued]
      simp only [List.count_append, wonOf, List.countP_nil] at before ⊢
      omega

theorem ownWins_of_apart {heard : List Heard} (apart : ∀ one ∈ heard, one.won? ≠ some node) :
    ownWins node heard = 0 := by
  refine List.countP_eq_zero.2 fun one member => ?_
  have away := apart one member
  cases won : one.won? with
  | none => simp
  | some address =>
      rw [won] at away
      simpa using away

/-- A swap of another address does not win the record of the node. -/
theorem won?_swapOf_ne {entry : Address × Liveness} (apart : entry.1 ≠ node) (world : World)
    (weigher : Weigher) :
    (Heard.mk (swapOf entry) (world.reply weigher (swapOf entry) none).1).won? ≠ some node := by
  rw [won?_swapOf]
  split
  · simpa using apart
  · nofun

/-- What a check wins was due when it was listed. -/
theorem Pass.due_of_won (pass : Pass now id listing during ended)
    (ran : (initial settings world).run before = some now) {one : Heard}
    (member : one ∈ listing.heard id during) {address : Address} (won : one.won? = some address) :
    ∃ timeoutMillis moment seen, now.world.members.record? address = some seen ∧
      Detection.isDue timeoutMillis moment seen = true := by
  have grounded := pass.induction (motive := fun events _ due _ =>
    (∀ entry ∈ due, ∃ timeoutMillis moment, entry ∈ now.world.members.rows ∧
      Detection.isDue timeoutMillis moment entry.2 = true) ∧
    ∀ one ∈ listing.heard id events, ∀ address, one.won? = some address → ∃ timeoutMillis moment seen,
      now.world.members.record? address = some seen ∧ Detection.isDue timeoutMillis moment seen = true) ran
    ?opening ?extend (along_of_forall fun _ _ => trivial)
  · exact grounded.2 one member address won
  case opening =>
    intro timeoutMillis moment
    refine ⟨fun entry among => ?_, fun one member => absurd member List.not_mem_nil⟩
    obtain ⟨inside, isDue⟩ := List.mem_filter.1 among
    exact ⟨timeoutMillis, moment, inside, isDue⟩
  case extend =>
    rintro events event state next due owed dueThen owedThen run - - combing ⟨dues, wins⟩
    rw [heard_snoc run]
    cases combing with
    | apart unanswered idle =>
        rw [hears_of_unanswered unanswered]
        exact ⟨dues, wins⟩
    | @swapped entry due _ calls =>
        rw [hears_of_request? calls _]
        refine ⟨fun later among => dues later (List.mem_cons_of_mem _ among), ?_⟩
        refine List.forall_mem_cons.2 ⟨fun address won => ?_, wins⟩
        obtain ⟨timeoutMillis, moment, inside, isDue⟩ := dues entry List.mem_cons_self
        rw [won?_swapOf] at won
        split at won
        · cases won
          exact ⟨timeoutMillis, moment, entry.2, Membership.record?_eq_some_iff.2 inside, isDue⟩
        · cases won
    | acted own reports =>
        rw [hears_of_deed? own]
        exact ⟨dues, wins⟩

/-- The record of a node that is not due when it is listed is not won. -/
theorem Pass.ownWins_of_undue (pass : Pass now id listing during ended)
    (ran : (initial settings world).run before = some now)
    (never : ∀ timeoutMillis moment seen, now.world.members.record? node = some seen →
      Detection.isDue timeoutMillis moment seen = false) :
    ownWins node (listing.heard id during) = 0 := by
  refine ownWins_of_apart fun one member won => ?_
  obtain ⟨timeoutMillis, moment, seen, there, isDue⟩ := pass.due_of_won ran member won
  exact Bool.false_ne_true ((never timeoutMillis moment seen there).symm.trans isDue)

/-- Where no other address of the table names the node, none is won. -/
theorem Pass.namesakeWins_of_sole (pass : Pass now id listing during ended)
    (ran : (initial settings world).run before = some now)
    (sole : ∀ address seen, now.world.members.record? address = some seen → address.trim = node →
      address = node) : namesakeWins node (listing.heard id during) = 0 := by
  refine List.countP_eq_zero.2 fun one member => ?_
  cases won : one.won? with
  | none => simp
  | some address =>
      obtain ⟨_, _, seen, there, -⟩ := pass.due_of_won ran member won
      have alone := sole address seen there
      simpa using fun apart names => apart (alone names)

/-- The event leaves the record of the node as it is. -/
theorem record?_of_spares (ran : (initial settings world).run events = some state)
    (stepped : state.step event = some next) (spares : state.stroke node event = .spares)
    {record : Liveness} (there : state.world.members.record? node = some record) :
    next.world.members.record? node = some record := by
  obtain ⟨after, now, leads⟩ := step_record? stepped (swaps_honest ran) there
  rw [spares] at leads
  exact leads ▸ now

theorem members_of_swapped {entry : Address × Liveness} {shares : Option Shares}
    (stepped : state.step (.answer id shares none) = some next) (calls : state.request? id = some (swapOf entry)) : next.world.members =
      (state.world.members.swap entry.1 entry.2.version entry.2.markedDead).1 := by
  rw [step_world stepped, worldNext, calls]
  rfl

/-- The record of the node is still to be swapped, or was swapped once. -/
private def SwappedOnce (node : Address) (seen : Liveness) (due : List (Address × Liveness)) (state : State)
    (heard : List Heard) : Prop :=
  (node, seen) ∈ due ∧ state.world.members.record? node = some seen ∧
      ownWins node heard = 0 ∨
    node ∉ due.map Prod.fst ∧ state.world.members.record? node = some seen.markedDead ∧
      ownWins node heard = 1

private theorem SwappedOnce.goesOn {seen : Liveness} {due dueThen : List (Address × Liveness)}
    {newer older : List Heard} (once : SwappedOnce node seen due state older)
    (same : next.world.members.record? node = state.world.members.record? node)
    (still : (node, seen) ∈ due → (node, seen) ∈ dueThen)
    (gone : node ∉ due.map Prod.fst → node ∉ dueThen.map Prod.fst)
    (apart : ∀ one ∈ newer, one.won? ≠ some node) : SwappedOnce node seen dueThen next (newer ++ older) := by
  rw [SwappedOnce, ownWins_append, ownWins_of_apart apart, Nat.zero_add, same]
  exact once.imp (.imp_left still) (.imp_left gone)

private theorem SwappedOnce.swapped {seen : Liveness} {entry : Address × Liveness}
    {due : List (Address × Liveness)} {heard : List Heard} {shares : Option Shares}
    (once : SwappedOnce node seen (entry :: due) state heard) (names : entry.1 ∉ due.map Prod.fst)
    (stepped : state.step (.answer id shares none) = some next)
    (calls : state.request? id = some (swapOf entry)) :
    SwappedOnce node seen due next
      ([⟨swapOf entry, (state.world.reply (.answering shares) (swapOf entry) none).1⟩] ++ heard) := by
  have members := members_of_swapped stepped calls
  by_cases self : entry.1 = node
  · obtain ⟨member, there, none⟩ := once.resolve_right fun gone => gone.1 (by simp [self])
    obtain rfl : entry = (node, seen) := by
      refine (List.mem_cons.1 member).elim Eq.symm fun later => ?_
      exact absurd (self ▸ List.mem_map_of_mem later) names
    refine .inr ⟨names, ?_, ?_⟩
    · rw [members, Membership.swap, if_pos (Membership.version_of_record? there)]
      exact Membership.record?_set_self
    · have won := won?_swapOf state.world (.answering shares) (node, seen)
      rw [if_pos (Membership.version_of_record? there)] at won
      rw [ownWins_append, none, ownWins, wonOf, List.countP_singleton, won]
      simp
  · refine once.goesOn ?_ (fun member => ?_) (fun gone => ?_) ?_
    · rw [members, Membership.record?_swap_ne self]
    · exact (List.mem_cons.1 member).resolve_left fun same => self (same ▸ rfl)
    · exact fun member => gone (List.mem_cons_of_mem _ member)
    · rintro one member
      rw [List.mem_singleton.1 member]
      exact won?_swapOf_ne self _ _

/-- A record that is due whenever it is listed is won once, if nothing else is done to it. -/
theorem Pass.ownWins_of_due (pass : Pass now id listing during ended)
    (ran : (initial settings world).run before = some now) {seen : Liveness}
    (there : now.world.members.record? node = some seen)
    (always : ∀ timeoutMillis moment, Detection.isDue timeoutMillis moment seen = true)
    (left : listing.Along (LeftTo id node) during) :
    ended.world.members.record? node = some seen.markedDead ∧
      ownWins node (listing.heard id during) = 1 := by
  have once := pass.induction (motive := fun events state due _ =>
    (due.map Prod.fst).Nodup ∧ SwappedOnce node seen due state (listing.heard id events)) ran
    ?opening ?extend left
  · exact (once.2.resolve_left fun waiting => List.not_mem_nil waiting.1).2
  case opening =>
    intro timeoutMillis moment
    refine ⟨now.world.members.nodup_keys.sublist (List.filter_sublist.map _), .inl ⟨?_, ?_, rfl⟩⟩
    · exact List.mem_filter.2 ⟨Membership.record?_eq_some_iff.1 there, always timeoutMillis moment⟩
    · obtain ⟨shares, answered⟩ := pass.answered
      rw [step_world answered, worldNext, pass.lists]
      exact there
  case extend =>
    rintro events event state next due owed dueThen owedThen run left stepped combing ⟨names, once⟩
    have ranSo : ∃ earlier, (initial settings world).run earlier = some state := by
      obtain ⟨shares, answered⟩ := pass.answered
      refine ⟨before ++ .answer id shares none :: events, ?_⟩
      rw [run_append, ran, Option.bind_some, State.run, answered]
      exact run
    obtain ⟨earlier, ranSo⟩ := ranSo
    have untouched : event.answered? ≠ some id →
        SwappedOnce node seen due next ([] ++ listing.heard id events) := by
      intro unanswered
      have spares := left.resolve_right unanswered
      have known : state.world.members.record? node = some seen ∨
        state.world.members.record? node = some seen.markedDead := once.imp (·.2.1) (·.2.1)
      refine once.goesOn ?_ (fun due => due) (fun gone => gone) fun _ none => absurd none List.not_mem_nil
      rcases known with there | there
      · rw [record?_of_spares ranSo stepped spares there, there]
      · rw [record?_of_spares ranSo stepped spares there, there]
    rw [heard_snoc run]
    cases combing with
    | apart unanswered idle =>
        rw [hears_of_unanswered unanswered]
        exact ⟨names, untouched unanswered⟩
    | swapped calls =>
        rw [hears_of_request? calls _]
        obtain ⟨fresh, rest⟩ := List.nodup_cons.1 names
        exact ⟨rest, once.swapped fresh stepped calls⟩
    | acted own reports =>
        rw [hears_of_deed? own]
        refine ⟨names, untouched ?_⟩
        cases event <;> first | cases own | simp [Event.answered?]

end Coordinator.State

end Handover
