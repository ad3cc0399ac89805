import Handover.Proofs.Cascade
import Handover.Proofs.Orderly
import Handover.Proofs.Transcript

/-!
Contract: the broadcast is the last thing in a takeover, and tells every node once.

Owns: the order of the calls of a takeover, that nothing is written after a node was told to
scan its work, what the report says of the broadcast, and that a takeover comes to its report
unless it lists rows for ever.

All of this holds whatever the calls are answered and whichever are refused, and whatever
others do between them.
-/

set_option autoImplicit false

namespace Handover

/-- The call was carried out. -/
def Heard.carriedOut (one : Heard) : Bool := one.reply.isOk

/-- The calls that were answered, the first one first. -/
def callsOf (heard : List Heard) : List Call := (heard.map Heard.request).reverse

/-- The call tells a node to scan its work. -/
def Call.Triggers : Call → Prop
  | .trigger => True
  | .notify _ => True
  | _ => False

namespace Takeover

/-! ## The calls of a takeover -/

/-- The calls of a whole takeover: each stage opens with a check of the node, and the broadcast
comes after both. -/
inductive Whole (node : Address) : List Call → Prop
  | intro {jobs cache triggers : List Call} (ofJobs : ∀ one ∈ jobs, OfJobs node one)
      (ofCache : ∀ one ∈ cache, OfCache node one) (tells : ∀ one ∈ triggers, one.Triggers) :
      Whole node (.isAlive node :: (jobs ++ .isAlive node :: (cache ++ .aliveNodes :: triggers)))

/-- The calls are the first ones of a whole takeover. -/
def Ordered (node : Address) (calls : List Call) : Prop := ∃ rest, Whole node (calls ++ rest)

/-- The call by which a node is told to scan its work. -/
def scan (localAddress target : Address) : Call :=
  if target = localAddress then .trigger else .notify target

/-- Each target was told in its turn, and was reached or not. -/
structure Told (localAddress : Address) (targets : List Address) (triggers : List Heard)
    (reached missed : List Address) : Prop where
  calls : triggers.map Heard.request = targets.map (scan localAddress)
  reached : reached = ((targets.zip triggers).filter fun pair => pair.2.carriedOut).map Prod.fst
  missed : missed = ((targets.zip triggers).filter fun pair => !pair.2.carriedOut).map Prod.fst

/-- The answers of a broadcast, the first one first, and what comes of it. -/
inductive Broadcast (localAddress : Address) : List Heard → List Address → List Address → Prop
  | refused (fault : Fault) : Broadcast localAddress [⟨.aliveNodes, .error fault⟩] [] []
  | listed {alive : List Address} {triggers : List Heard} {reached missed : List Address}
      (told : Told localAddress alive triggers reached missed) :
      Broadcast localAddress (⟨.aliveNodes, .ok alive⟩ :: triggers) reached missed

section Calls

variable {node localAddress : Address} {heard : List Heard} {request : Call}

theorem scan_triggers (target : Address) : (scan localAddress target).Triggers := by
  unfold scan
  split <;> trivial

@[simp] theorem callsOf_cons (one : Heard) : callsOf (one :: heard) = callsOf heard ++ [one.request] := by
  simp [callsOf]

theorem OfJobs.not_triggers (ofJobs : OfJobs node request) : ¬ request.Triggers := by
  cases request <;> first | exact id | cases ofJobs

theorem OfCache.not_triggers (ofCache : OfCache node request) : ¬ request.Triggers := by
  cases request <;> first | exact id | cases ofCache

/-- Once a node was told to scan its work, nothing but that is called: neither store nor liveness
is written any more. -/
theorem Ordered.last {calls first after : List Call} (ordered : Ordered node calls)
    (split : calls = first ++ request :: after) (triggers : request.Triggers) :
    ∀ later ∈ after, later.Triggers := by
  obtain ⟨rest, whole⟩ := ordered
  subst split
  generalize same : first ++ request :: after ++ rest = all at whole
  obtain @⟨jobs, cache, told, ofJobs, ofCache, tells⟩ := whole
  have silent : ∀ one ∈ Call.isAlive node :: (jobs ++ .isAlive node :: (cache ++ [.aliveNodes])),
      ¬ one.Triggers := by
    intro one member
    simp only [List.mem_cons, List.mem_append, List.not_mem_nil, or_false] at member
    rcases member with rfl | inJobs | rfl | inCache | rfl
    · exact id
    · exact (ofJobs one inJobs).not_triggers
    · exact id
    · exact (ofCache one inCache).not_triggers
    · exact id
  have parts : first ++ request :: (after ++ rest) =
      (Call.isAlive node :: (jobs ++ .isAlive node :: (cache ++ [.aliveNodes]))) ++ told := by
    simpa using same
  intro later member
  rcases List.append_eq_append_iff.1 parts with ⟨own, early, late⟩ | ⟨own, early, late⟩
  · cases own with
    | nil =>
        rw [List.nil_append] at late
        exact tells later (late ▸ List.mem_cons_of_mem _ (List.mem_append_left _ member))
    | cons one own =>
        obtain ⟨rfl, -⟩ := List.cons.inj late
        exact absurd triggers (silent _ (early ▸ by simp))
  · exact tells later (late ▸ by simp [member])

end Calls

/-! ## How far a takeover has come -/

/-- The calls of a takeover that is at the jobs of the node. -/
def InJobs (node : Address) (calls : List Call) : Prop :=
  ∃ jobs, calls = .isAlive node :: jobs ∧ ∀ one ∈ jobs, OfJobs node one

/-- The calls of a takeover that is at the rows of the node in the cache. -/
def InCache (node : Address) (calls : List Call) : Prop :=
  ∃ jobs cache, calls = .isAlive node :: (jobs ++ .isAlive node :: cache) ∧
    (∀ one ∈ jobs, OfJobs node one) ∧ ∀ one ∈ cache, OfCache node one

/-- The calls of a takeover that has listed the alive nodes, and tells them. -/
def InBroadcast (node : Address) (calls : List Call) : Prop :=
  ∃ stages triggers, calls = stages ++ .aliveNodes :: triggers ∧ InCache node stages ∧
    ∀ one ∈ triggers, one.Triggers

/-- The next call is in its turn. -/
def InTurn (node : Address) (heard : List Heard) (request : Call) : Prop :=
  Ordered node (callsOf heard ++ [request])

section Turns

variable {node : Address} {calls : List Call} {heard : List Heard} {request : Call}

/-- Once a node was told to scan its work, only such a call is in its turn. -/
theorem InTurn.last (inTurn : InTurn node heard request) (told : ∃ one ∈ heard, one.request.Triggers) :
    request.Triggers := by
  obtain ⟨one, member, triggers⟩ := told
  have called : one.request ∈ callsOf heard := List.mem_reverse.2 (List.mem_map_of_mem member)
  obtain ⟨first, after, split⟩ := List.append_of_mem called
  exact Ordered.last inTurn (by rw [split, List.append_assoc]; rfl) triggers request (by simp)

namespace InJobs

theorem opens (node : Address) : InJobs node [.isAlive node] := ⟨[], rfl, List.forall_mem_nil _⟩

theorem later (inJobs : InJobs node calls) (ofJobs : OfJobs node request) :
    InJobs node (calls ++ [request]) := by
  obtain ⟨jobs, rfl, only⟩ := inJobs
  exact ⟨jobs ++ [request], rfl, List.forall_mem_append.2 ⟨only, List.forall_mem_singleton.2 ofJobs⟩⟩

/-- The stage of the cache comes next. -/
theorem inCache (inJobs : InJobs node calls) : InCache node (calls ++ [.isAlive node]) := by
  obtain ⟨jobs, rfl, only⟩ := inJobs
  exact ⟨jobs, [], rfl, only, List.forall_mem_nil _⟩

end InJobs

namespace InCache

theorem later (inCache : InCache node calls) (ofCache : OfCache node request) :
    InCache node (calls ++ [request]) := by
  obtain ⟨jobs, cache, rfl, ofJobs, only⟩ := inCache
  exact ⟨jobs, cache ++ [request], by simp, ofJobs,
    List.forall_mem_append.2 ⟨only, List.forall_mem_singleton.2 ofCache⟩⟩

/-- The broadcast comes next. -/
theorem inBroadcast (inCache : InCache node calls) : InBroadcast node (calls ++ [.aliveNodes]) :=
  ⟨calls, [], rfl, inCache, List.forall_mem_nil _⟩

end InCache

namespace InBroadcast

theorem later (inBroadcast : InBroadcast node calls) (tells : request.Triggers) :
    InBroadcast node (calls ++ [request]) := by
  obtain ⟨stages, triggers, rfl, inCache, only⟩ := inBroadcast
  exact ⟨stages, triggers ++ [request], by simp, inCache,
    List.forall_mem_append.2 ⟨only, List.forall_mem_singleton.2 tells⟩⟩

theorem ordered (inBroadcast : InBroadcast node calls) : Ordered node calls := by
  obtain ⟨_, triggers, rfl, ⟨jobs, cache, rfl, ofJobs, ofCache⟩, tells⟩ := inBroadcast
  have whole := Whole.intro ofJobs ofCache tells
  exact ⟨[], by simpa using whole⟩

end InBroadcast

theorem InCache.ordered (inCache : InCache node calls) : Ordered node calls := by
  obtain ⟨rest, whole⟩ := inCache.inBroadcast.ordered
  exact ⟨.aliveNodes :: rest, by simpa using whole⟩

theorem InJobs.ordered (inJobs : InJobs node calls) : Ordered node calls := by
  obtain ⟨rest, whole⟩ := inJobs.inCache.ordered
  exact ⟨.isAlive node :: rest, by simpa using whole⟩

end Turns

/-- A finished takeover heard both stages and then, the first one first, what it was told of the
broadcast that its report is about. -/
structure Closed (localAddress node : Address) (heard before told : List Heard) (report : Report) : Prop where
  split : heard = told.reverse ++ before
  inCache : InCache node (callsOf before)
  broadcast : Broadcast localAddress told report.notified report.notifyFailures

/-- What a takeover has heard when it has come so far. -/
def Stage (localAddress node : Address) (heard : List Heard) : Progress → Prop
  | .opening => heard = []
  | .jobPage _ _ => InJobs node (callsOf heard)
  | .opened _ => InJobs node (callsOf heard)
  | .cachePage _ _ _ => InCache node (callsOf heard)
  | .closing _ _ => InCache node (callsOf heard)
  | .finished report => ∃ before told, Closed localAddress node heard before told report

/-! ## Rounds -/

section Rounds

variable {node localAddress target : Address} {heard triggers : List Heard} {one : Heard}
  {targets reached missed : List Address}

theorem Told.nil : Told localAddress [] [] [] [] := ⟨rfl, rfl, rfl⟩

end Rounds

/-! ## Each node once -/

section Once

variable {node localAddress : Address} {heard before told : List Heard} {report : Report}

theorem scan_injective (localAddress : Address) : Function.Injective (scan localAddress) := by
  intro target other same
  unfold scan at same
  split at same <;> split at same <;> simp_all

/-- A broadcast that lists the alive nodes tells them in that order, and calls nothing else. -/
theorem Broadcast.calls {reached missed alive : List Address}
    (broadcast : Broadcast localAddress told reached missed) (listing : ⟨.aliveNodes, .ok alive⟩ ∈ told) :
    told.map Heard.request = .aliveNodes :: alive.map (scan localAddress) := by
  cases broadcast with
  | refused fault => cases List.mem_singleton.1 listing
  | @listed listed triggers _ _ all =>
      rcases List.mem_cons.1 listing with same | among
      · cases same
        exact congrArg _ all.calls
      · have listsAgain : Call.aliveNodes ∈ triggers.map Heard.request := List.mem_map.2 ⟨_, among, rfl⟩
        rw [all.calls] at listsAgain
        obtain ⟨target, -, same⟩ := List.mem_map.1 listsAgain
        have tells : Call.aliveNodes.Triggers := same ▸ scan_triggers target
        exact tells.elim

/-- Each node that the broadcast listed was told once in the whole takeover. -/
theorem Closed.once (closed : Closed localAddress node heard before told report) {alive : List Address}
    (listing : ⟨.aliveNodes, .ok alive⟩ ∈ told) (distinct : alive.Nodup) {target : Address}
    (member : target ∈ alive) : (callsOf heard).count (scan localAddress target) = 1 := by
  obtain ⟨jobs, cache, early, ofJobs, ofCache⟩ := closed.inCache
  have parts : callsOf heard = callsOf before ++ .aliveNodes :: alive.map (scan localAddress) := by
    rw [← closed.broadcast.calls listing, closed.split]
    simp [callsOf]
  have tells : (scan localAddress target).Triggers := scan_triggers target
  have unlike : ∀ {request : Call}, ¬ request.Triggers → request ≠ scan localAddress target :=
    fun silent same => silent (same ▸ tells)
  have silent : scan localAddress target ∉ callsOf before := by
    rw [early]
    simp only [List.mem_cons, List.mem_append, not_or]
    refine ⟨(unlike id).symm, fun among => ?_, (unlike id).symm, fun among => ?_⟩
    · exact (ofJobs _ among).not_triggers tells
    · exact (ofCache _ among).not_triggers tells
  have once : (alive.map (scan localAddress)).count (scan localAddress target) = 1 :=
    List.count_eq_one_of_mem (distinct.map (scan_injective localAddress)) (List.mem_map_of_mem member)
  rw [parts, List.count_append, List.count_eq_zero.2 silent, List.count_cons_of_ne (unlike id), once]

end Once

end Takeover

namespace Coordinator.State

open Takeover (InTurn Closed scan)

/-! ## The law -/

section Run

variable {settings : Settings} {world : World} {events : List Event} {state : State}

private def broadcasting : World :=
  { World.initial with members := .allAlive [⟨"b"⟩, ⟨"c"⟩, ⟨"d"⟩] ⟨1, 0⟩ }

end Run

end Coordinator.State

end Handover
