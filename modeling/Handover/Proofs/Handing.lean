import Handover.Proofs.Counts
import Handover.Proofs.Split
import Handover.Takeover.Stages
import Mathlib.Data.List.Flatten

/-!
Contract: the calls by which the rows of a page are handed to other nodes.

Owns: what the calls of one split amount to, and the laws of the scripts that move
jobs of one kind, queued submissions group by group, and submissions that were
handed over before.

A refused call moves nothing and the others go on. So of the rows of a page some
are moved, each once, and all of them if no move is refused and there is a node
to go to. A refused weigher only makes the split even.
-/

set_option autoImplicit false

namespace Handover.Takeover

open Coordinator (TaskId)

/-- The calls ask for weights, and hand rows by these names to some of the nodes. -/
structure Hands {ν : Type} (mover : Mover ν) (nodes : List Address) (names : List ν)
    (made : List Made) : Prop where
  only : ∀ one ∈ made, (∃ demand, one.1 = .weigh demand) ∨
    ∃ dest taken, one.1 = mover.call dest taken ∧ dest ∈ nodes
  named : (movedNames (mover.moves made)).Subperm names
  all : nodes ≠ [] → mover.Accepted made → (movedNames (mover.moves made)).Perm names

namespace Hands

variable {ν : Type} {mover : Mover ν} {nodes : List Address}

theorem nothing : Hands mover nodes [] [] where
  only := by simp
  named := List.nil_subperm
  all := fun _ _ => .refl _

theorem append {names more : List ν} {first second : List Made}
    (left : Hands mover nodes names first) (right : Hands mover nodes more second) :
    Hands mover nodes (names ++ more) (first ++ second) where
  only := by
    intro one member
    rcases List.mem_append.1 member with inFirst | inSecond
    · exact left.only one inFirst
    · exact right.only one inSecond
  named := by
    rw [Mover.moves_append, movedNames_append]
    exact left.named.append right.named
  all := by
    intro some accepted
    obtain ⟨acceptedFirst, acceptedSecond⟩ := accepted.of_append
    rw [Mover.moves_append, movedNames_append]
    exact (left.all some acceptedFirst).append (right.all some acceptedSecond)

theorem weigh (demand : Demand) (refused : Option String) :
    Hands mover nodes [] [(.weigh demand, refused)] where
  only := fun one member => .inl ⟨demand, by rw [List.mem_singleton.1 member]⟩
  named := by simp [Mover.moves, mover.told_weigh, movedNames]
  all := by simp [Mover.moves, mover.told_weigh, movedNames]

theorem perm {names more : List ν} {made : List Made} (hands : Hands mover nodes names made)
    (same : names.Perm more) : Hands mover nodes more made where
  only := hands.only
  named := (List.Perm.subperm_left same).1 hands.named
  all := fun some accepted => (hands.all some accepted).trans same

/-- Distinct names are moved at most once each. -/
theorem nodup {names : List ν} {made : List Made} (hands : Hands mover nodes names made)
    (distinct : names.Nodup) : (movedNames (mover.moves made)).Nodup := by
  obtain ⟨part, same, sublist⟩ := hands.named
  exact same.nodup_iff.1 (distinct.sublist sublist)

/-- Rows are handed out without a change to who is alive. -/
theorem keeps_members {names : List ν} {made : List Made} (hands : Hands mover nodes names made)
    (moverKeeps : ∀ dest taken (world : World),
      (world.carryOut .none (mover.call dest taken)).2.members = world.members) (world : World) :
    (world.replay made).members = world.members := by
  refine World.replay_keeps (fun other => other.members = world.members) ?_ rfl
  rintro ⟨request, refused⟩ member other same
  cases refused with
  | some text => exact same
  | none =>
      rcases hands.only _ member with ⟨demand, requested⟩ | ⟨dest, taken, requested, _⟩
      · cases requested
        exact same
      · cases requested
        exact (moverKeeps dest taken other).trans same

/-- One call for each entry of a split. -/
theorem moves_of_entries {entries : List (Address × List ν)} {made : List Made}
    (called : made.map Prod.fst = entries.map fun entry => mover.call entry.1 entry.2) :
    (mover.moves made).Sublist entries ∧
      (mover.Accepted made → mover.moves made = entries) := by
  induction made generalizing entries with
  | nil =>
      rw [List.map_eq_nil_iff.1 called.symm]
      exact ⟨.slnil, fun _ => rfl⟩
  | cons one rest inductionHypothesis =>
      cases entries with
      | nil => cases called
      | cons entry entries =>
          obtain ⟨request, refused⟩ := one
          obtain ⟨requested, later⟩ := List.cons.inj called
          obtain rfl : request = mover.call entry.1 entry.2 := requested
          obtain ⟨sublist, whole⟩ := inductionHypothesis later
          cases refused with
          | some text =>
              have untold : mover.told (mover.call entry.1 entry.2, some text) = none := by
                refine Option.eq_none_iff_forall_ne_some.2 fun move told => ?_
                cases (Prod.mk.inj ((mover.told_eq_some_iff _ _).1 told)).2
              refine ⟨?_, fun accepted => absurd List.mem_cons_self (accepted _ _ text)⟩
              rw [Mover.moves, List.filterMap_cons_none untold]
              exact sublist.cons entry
          | none =>
              have told : mover.told (mover.call entry.1 entry.2, none) = some entry :=
                (mover.told_eq_some_iff _ entry).2 rfl
              rw [Mover.moves, List.filterMap_cons_some told]
              refine ⟨sublist.cons_cons entry, fun accepted => ?_⟩
              exact congrArg (entry :: ·) (whole accepted.of_cons)

/-- The calls for a split hand out what was split. -/
theorem of_split {names : List ν} {shares : Option Shares} {made : List Made}
    (called : made.map Prod.fst = (distribute names shares nodes).assignments.map
      fun entry => mover.call entry.1 entry.2) : Hands mover nodes names made where
  only := by
    intro one member
    have listed : one.1 ∈ made.map Prod.fst := List.mem_map_of_mem member
    rw [called] at listed
    obtain ⟨entry, entryIn, same⟩ := List.mem_map.1 listed
    exact .inr ⟨entry.1, entry.2, same.symm, mem_of_mem_assignments entryIn⟩
  named := by
    have part := (moves_of_entries called).1.flatMap Prod.snd
    exact part.subperm.trans (distribute_subperm names shares nodes)
  all := by
    intro some accepted
    rw [(moves_of_entries called).2 accepted]
    exact distribute_perm some names shares

end Hands

/-! ## The scripts -/

section Scripts

variable {id : TaskId} {chances : Chances}

theorem sharesFor_leads (demand : Demand) (session : Session) :
    (sharesFor demand).Leads id chances session fun _ made _ =>
      ∃ refused, made = [(.weigh demand, refused)] := by
  have asked : (Script.ask (.weigh demand)).Leads id chances session fun _ made _ =>
      ∃ refused, made = [(.weigh demand, refused)] :=
    .ask rfl (fun text _ _ => ⟨some text, rfl⟩) fun _ _ _ => ⟨none, rfl⟩
  apply asked.bind
  rintro reply _ after - ⟨refused, rfl⟩
  cases reply <;> exact .done _ _ ⟨refused, rfl⟩

/-- One call for each entry is made, and their counts are added up. -/
theorem addUp_leads {ν : Type} {request : Address → List ν → Script (Except Fault Nat)}
    {call : Address → List ν → Call}
    (each : ∀ dest names session, (request dest names).Leads id chances session
      fun count made _ => (∃ refused, made = [(call dest names, refused)]) ∧
        (match count with | .ok moved => moved | .error _ => 0) = session.world.movedCount made)
    (entries : List (Address × List ν)) (session : Session) :
    (addUp request entries).Leads id chances session fun total made _ =>
      made.map Prod.fst = entries.map (fun entry => call entry.1 entry.2) ∧
        total = session.world.movedCount made := by
  induction entries generalizing session with
  | nil => exact .done _ _ ⟨rfl, rfl⟩
  | cons entry entries inductionHypothesis =>
      obtain ⟨dest, names⟩ := entry
      apply (each dest names session).bind
      rintro count _ after continues ⟨⟨refused, rfl⟩, counted⟩
      apply (inductionHypothesis after).bind
      rintro later more last - ⟨called, total⟩
      refine .done _ _ ⟨?_, ?_⟩
      · simp [called]
      · have whole := World.movedCount_append session.world [(call dest names, refused)] more
        rw [← continues.world, ← counted, ← total] at whole
        rw [List.append_nil]
        exact whole.symm

theorem moveJobs_leads (plan : Distribution RowId) (session : Session) :
    (moveJobs plan).Leads id chances session fun total made _ =>
      made.map Prod.fst = plan.assignments.map (fun entry => Mover.jobs.call entry.1 entry.2) ∧
        total = session.world.movedCount made := by
  refine addUp_leads (fun dest ids session => ?_) plan.assignments session
  exact .ask rfl (fun text _ _ => ⟨⟨some text, rfl⟩, rfl⟩) fun _ _ _ => ⟨⟨none, rfl⟩, rfl⟩

theorem moveRows_leads (plan : Distribution String) (session : Session) :
    (moveRows plan).Leads id chances session fun total made _ =>
      made.map Prod.fst = plan.assignments.map (fun entry => Mover.rows.call entry.1 entry.2) ∧
        total = session.world.movedCount made := by
  refine addUp_leads (fun dest jobIds session => ?_) plan.assignments session
  exact .ask rfl (fun text _ _ => ⟨⟨some text, rfl⟩, rfl⟩) fun _ _ _ => ⟨⟨none, rfl⟩, rfl⟩

/-- The jobs of one kind are handed out, and those that moved are counted. -/
theorem moveKind_leads (kind : ScheduleKind) (page : List Job) (nodes : List Address)
    (session : Session) :
    (moveKind kind page nodes).Leads id chances session fun total made _ =>
      Hands Mover.jobs nodes (idsOfKind kind page) made ∧
        total = session.world.movedCount made := by
  unfold moveKind
  by_cases empty : idsOfKind kind page = []
  · simp only [empty, List.isEmpty_nil, if_true]
    exact .done _ _ ⟨.nothing, rfl⟩
  · have filled : (idsOfKind kind page).isEmpty = false := by simpa using empty
    simp only [filled, Bool.false_eq_true, if_false]
    apply (sharesFor_leads _ session).bind
    rintro shares _ after continues ⟨refused, rfl⟩
    apply (moveJobs_leads _ after).mono
    rintro total made last - ⟨called, counted⟩
    refine ⟨(Hands.weigh _ refused).append (Hands.of_split called), ?_⟩
    rw [World.movedCount_append, ← continues.world, counted]
    simp [World.movedCount, World.countMade]

/-- The queued submissions are handed out group by group. -/
theorem moveGroups_leads (submissions : List Submission) (nodes : List Address)
    (groups : List (Option String)) (session : Session) :
    (moveGroups submissions nodes groups).Leads id chances session fun total made _ =>
      Hands Mover.rows nodes (groups.flatMap fun group => queuedIn group submissions) made ∧
        total = session.world.movedCount made := by
  induction groups generalizing session with
  | nil => exact .done _ _ ⟨.nothing, rfl⟩
  | cons group groups inductionHypothesis =>
      apply (sharesFor_leads _ session).bind
      rintro shares _ weighed continuesWeighed ⟨refused, rfl⟩
      apply (moveRows_leads _ weighed).bind
      rintro moved made after continues ⟨called, counted⟩
      apply (inductionHypothesis after).bind
      rintro later more last - ⟨hands, countedLater⟩
      refine .done _ _ ⟨?_, ?_⟩
      · rw [List.append_nil]
        exact (Hands.weigh _ refused).append ((Hands.of_split called).append hands)
      · rw [List.append_nil, World.movedCount_append, World.movedCount_append,
          ← continuesWeighed.world, ← continues.world, ← counted, ← countedLater]
        simp [World.movedCount, World.countMade]

theorem moveSubmitted_leads (submissions : List Submission) (nodes : List Address)
    (session : Session) :
    (moveSubmitted submissions nodes).Leads id chances session fun total made _ =>
      Hands Mover.rows nodes (submittedIds submissions) made ∧
        total = session.world.movedCount made := by
  unfold moveSubmitted
  by_cases empty : submittedIds submissions = []
  · simp only [empty, List.isEmpty_nil, if_true]
    exact .done _ _ ⟨.nothing, rfl⟩
  · have filled : (submittedIds submissions).isEmpty = false := by simpa using empty
    simp only [filled, Bool.false_eq_true, if_false]
    apply (moveRows_leads _ session).mono
    rintro total made after - ⟨called, counted⟩
    exact ⟨Hands.of_split called, counted⟩

end Scripts

end Handover.Takeover
