import Handover.Proofs.Split
import Mathlib.Algebra.BigOperators.Group.Finset.Basic
import Mathlib.Algebra.Order.BigOperators.Group.Finset
import Mathlib.Data.List.FinRange

/-!
Contract: which items of a list each destination of a split is given.

Owns: the stretches that both passes of a split cut, the counts of either pass, and the
split as a partition of the positions of the list.

A pass that asks for more than there is gets what there is. So its counts are capped by
what is left, and the counts of both passes add up to the length of the list.
-/

set_option autoImplicit false

namespace Handover

open Finset (range sum_range_succ)

/-! ## Stretches -/

section Stretches

variable {ι κ : Type}

/-- The `size` items from position `start` on. -/
def stretch (items : List ι) (start size : Nat) : List ι := (items.drop start).take size

theorem stretch_drop (items : List ι) (before start size : Nat) :
    stretch (items.drop before) start size = stretch items (before + start) size := by
  rw [stretch, List.drop_drop, stretch]

theorem stretch_of_length_le {items : List ι} {start : Nat} (past : items.length ≤ start) (size : Nat) :
    stretch items start size = [] := by
  rw [stretch, List.drop_eq_nil_of_le past, List.take_nil]

theorem stretch_map (items : List ι) (f : ι → κ) (start size : Nat) :
    stretch (items.map f) start size = (stretch items start size).map f := by
  simp only [stretch, List.map_drop, List.map_take]

/-- There is nothing after the end, so a stretch may as well end there. -/
theorem stretch_capped (items : List ι) (start size : Nat) :
    stretch items (min items.length start) (min size (items.length - start)) =
      stretch items start size := by
  by_cases inside : start ≤ items.length
  · rw [Nat.min_eq_right inside, stretch, stretch, List.take_eq_take_iff, List.length_drop]
    omega
  · rw [stretch_of_length_le (by omega), stretch_of_length_le (by omega)]

/-- Two stretches one after the other keep the order of the list. -/
theorem stretch_append_sublist (items : List ι) {first second : Nat} {size : Nat}
    (apart : first + size ≤ second) (later : Nat) :
    (stretch items first size ++ stretch items second later).Sublist items := by
  have front : (stretch items first size).Sublist (items.take (first + size)) := by
    rw [stretch, List.take_drop]
    exact List.drop_sublist _ _
  have back : (stretch items second later).Sublist (items.drop (first + size)) := by
    obtain ⟨gap, rfl⟩ := Nat.exists_eq_add_of_le apart
    rw [← stretch_drop]
    exact (List.take_sublist _ _).trans (List.drop_sublist _ _)
  simpa only [List.take_append_drop] using front.append back

/-- Each slice is the stretch that starts where the slices before it end. -/
theorem getElem?_slices (sizes : List Nat) (items : List ι) (position : Nat) :
    (slices sizes items).1[position]? =
      sizes[position]?.map (stretch items (sizes.take position).sum) := by
  induction sizes generalizing items position with
  | nil => rfl
  | cons size sizes inductionHypothesis =>
      cases position with
      | zero => rfl
      | succ position =>
          simp only [slices, List.getElem?_cons_succ, inductionHypothesis, List.take_succ_cons,
            List.sum_cons]
          exact congrArg (sizes[position]?.map ·) (funext fun size => stretch_drop items _ _ _)

end Stretches

/-! ## The counts of both passes -/

/-- What the destination at `position` gets of `total` items by its share, once those before
it have had theirs. -/
def weightedDue (wanted : List Nat) (total position : Nat) : Nat :=
  min (wanted.getD position 0) (total - (wanted.take position).sum)

/-- What the destination at `position` gets of the items that the shares leave over. -/
def evenDue (wanted : List Nat) (total position : Nat) : Nat :=
  evenShare wanted.length (total - wanted.sum) position

section Counts

variable (wanted : List Nat) (total : Nat)

theorem sum_weightedDue (count : Nat) :
    ∑ position ∈ range count, weightedDue wanted total position = min total (wanted.take count).sum := by
  induction count with
  | zero => simp
  | succ count inductionHypothesis =>
      have one_more : (wanted.take (count + 1)).sum = (wanted.take count).sum + wanted.getD count 0 := by
        rw [List.take_add_one, List.sum_append, List.getD_eq_getElem?_getD]
        cases wanted[count]? <;> simp
      rw [sum_range_succ, inductionHypothesis, weightedDue, one_more]
      omega

theorem sum_weightedDue_all :
    ∑ position ∈ range wanted.length, weightedDue wanted total position = min total wanted.sum := by
  rw [sum_weightedDue, List.take_length]

/-- Told by what the earlier destinations got, not by what they asked for. -/
theorem weightedDue_eq (position : Nat) :
    weightedDue wanted total position =
      min (wanted.getD position 0)
        (total - ∑ earlier ∈ range position, weightedDue wanted total earlier) := by
  rw [sum_weightedDue, weightedDue]
  omega

/-- Even shares of a total are the total. -/
theorem sum_evenShare {count : Nat} (positive : 0 < count) (total : Nat) :
    ∑ position ∈ range count, evenShare count total position = total := by
  have someone : List.replicate count (default : Address) ≠ [] :=
    List.ne_nil_of_length_pos (by simpa using positive)
  have shares := sum_evenShares someone total
  rw [evenShares_map_snd, List.length_replicate] at shares
  exact shares

/-- The counts of both passes add up to the whole. -/
theorem sum_weightedDue_add_sum_evenDue (some : wanted ≠ []) :
    ∑ position ∈ range wanted.length, weightedDue wanted total position +
      ∑ position ∈ range wanted.length, evenDue wanted total position = total := by
  have even := sum_evenShare (List.length_pos_of_ne_nil some) (total - wanted.sum)
  rw [sum_weightedDue_all]
  simp only [evenDue, even]
  omega

end Counts

/-! ## What a split gives to whom -/

section Plans

variable {ι κ : Type}

/-- What the destination at `position` is given when the passes count `weighted` and `even`:
a stretch from the front, and a stretch of what the weighted pass leaves over. -/
def allotment (count : Nat) (weighted even : Nat → Nat) (items : List ι) (position : Nat) : List ι :=
  stretch items (∑ earlier ∈ range position, weighted earlier) (weighted position) ++
    stretch items (∑ any ∈ range count, weighted any + ∑ earlier ∈ range position, even earlier)
      (even position)

section Allotments

variable {count : Nat} {weighted even : Nat → Nat}

theorem allotment_map (items : List ι) (f : ι → κ) (position : Nat) :
    allotment count weighted even (items.map f) position =
      (allotment count weighted even items position).map f := by
  simp only [allotment, stretch_map, List.map_append]

theorem allotment_sublist (items : List ι) {position : Nat} (inside : position < count) :
    (allotment count weighted even items position).Sublist items := by
  refine stretch_append_sublist items ?_ _
  have whole : ∑ earlier ∈ range (position + 1), weighted earlier ≤ ∑ any ∈ range count, weighted any :=
    Finset.sum_le_sum_of_subset (Finset.range_subset_range.2 inside)
  rw [sum_range_succ] at whole
  omega

end Allotments

/-- A slice of the weighted pass is the stretch by the due. -/
theorem getElem?_weighted (wanted : List Nat) (items : List ι) {position : Nat}
    (inside : position < wanted.length) :
    (slices wanted items).1[position]? =
      some (stretch items (∑ earlier ∈ range position, weightedDue wanted items.length earlier)
        (weightedDue wanted items.length position)) := by
  have wantedHere : wanted.getD position 0 = wanted[position] := by
    rw [List.getD_eq_getElem?_getD, List.getElem?_eq_getElem inside, Option.getD_some]
  rw [getElem?_slices, List.getElem?_eq_getElem inside, Option.map_some, sum_weightedDue, weightedDue,
    wantedHere, stretch_capped]

/-- A slice of the even pass is a stretch of what the weighted pass leaves. -/
theorem getElem?_even (nodes : List Address) (wanted : List Nat) (sameCount : wanted.length = nodes.length)
    (items : List ι) {position : Nat} (inside : position < nodes.length) :
    (slices ((evenShares nodes (items.drop wanted.sum).length).map Prod.snd)
        (items.drop wanted.sum)).1[position]? =
      some (stretch items
        (∑ any ∈ range wanted.length, weightedDue wanted items.length any +
          ∑ earlier ∈ range position, evenDue wanted items.length earlier)
        (evenDue wanted items.length position)) := by
  have before : (((List.range nodes.length).map
        (evenShare nodes.length (items.length - wanted.sum))).take position).sum =
      ∑ earlier ∈ range position, evenDue wanted items.length earlier := by
    rw [← List.map_take, List.take_range, Nat.min_eq_left (Nat.le_of_lt inside)]
    simp only [evenDue, sameCount]
    rfl
  have here : ((List.range nodes.length).map
        (evenShare nodes.length (items.length - wanted.sum)))[position]? =
      some (evenDue wanted items.length position) := by
    rw [List.getElem?_map, List.getElem?_range inside, Option.map_some, evenDue, sameCount]
  rw [getElem?_slices, List.length_drop, evenShares_map_snd, before, here, Option.map_some,
    stretch_drop, sum_weightedDue_all]
  by_cases enough : wanted.sum ≤ items.length
  · rw [Nat.min_eq_right enough]
  · rw [stretch_of_length_le (by omega), stretch_of_length_le (by omega)]

theorem twoPasses_eq (nodes : List Address) (share : Address → Nat) (items : List ι) :
    twoPasses nodes share items =
      nodes.zipIdx.map fun (node, position) =>
        (node, allotment nodes.length (weightedDue (nodes.map share) items.length)
          (evenDue (nodes.map share) items.length) items position) := by
  have sameCount : (nodes.map share).length = nodes.length := List.length_map _
  apply List.ext_getElem
  · simp [twoPasses, slices_length, evenShares]
  · intro position _ inNodes
    have inside : position < nodes.length := by simpa using inNodes
    obtain ⟨_, weighted⟩ := List.getElem?_eq_some_iff.1
      (getElem?_weighted (nodes.map share) items (sameCount.symm ▸ inside))
    obtain ⟨_, even⟩ := List.getElem?_eq_some_iff.1
      (getElem?_even nodes (nodes.map share) sameCount items inside)
    simp only [← slices_left] at even
    simp only [twoPasses, List.getElem_zip, List.getElem_zipWith, List.getElem_map,
      List.getElem_zipIdx, Nat.zero_add, weighted, even, sameCount, allotment]

/-- The share that a split honours. -/
def shareOf (shares : Option Shares) (node : Address) : Nat :=
  (shares.map fun table => table.of node).getD 0

/-- What the destination at `position` is given by its share and of what is left over. -/
def duesOf (shares : Option Shares) (destinations : List Address) (items : List ι) (position : Nat) :
    List ι :=
  let nodes := Address.distinct destinations
  allotment nodes.length (weightedDue (nodes.map (shareOf shares)) items.length)
    (evenDue (nodes.map (shareOf shares)) items.length) items position

/-- With a destination all is assigned, stretch by stretch. -/
theorem distribute_eq {destinations : List Address} (some : destinations ≠ []) (items : List ι)
    (shares : Option Shares) :
    distribute items shares destinations =
      ⟨((Address.distinct destinations).zipIdx.map fun (node, position) =>
          (node, duesOf shares destinations items position)).filter fun entry => !entry.2.isEmpty,
        []⟩ := by
  unfold distribute
  split
  case h_1 none => exact absurd (Address.distinct_eq_nil_iff.1 none) some
  case h_2 nodes _ =>
    simp only [twoPasses_eq, duesOf]
    rfl

namespace Distribution

/-- The same plan for other items. -/
def map (f : ι → κ) (plan : Distribution ι) : Distribution κ :=
  ⟨plan.assignments.map fun (node, items) => (node, items.map f), plan.unassigned.map f⟩

end Distribution

/-- A split goes by positions only. -/
theorem distribute_map (f : ι → κ) (items : List ι) (shares : Option Shares)
    (destinations : List Address) :
    distribute (items.map f) shares destinations = (distribute items shares destinations).map f := by
  by_cases none : destinations = []
  · subst none
    rfl
  · have relabelled : ∀ entries : List (Address × List ι),
        (entries.map fun (node, taken) => (node, taken.map f)).filter (fun entry => !entry.2.isEmpty) =
          (entries.filter fun entry => !entry.2.isEmpty).map fun (node, taken) => (node, taken.map f) := by
      intro entries
      rw [List.filter_map]
      congr 2
      funext entry
      exact congrArg not List.isEmpty_map
    have dues : ∀ position, duesOf shares destinations (items.map f) position =
        (duesOf shares destinations items position).map f := by
      intro position
      simp only [duesOf, allotment_map, List.length_map]
    rw [distribute_eq none, distribute_eq none, Distribution.map, ← relabelled, List.map_map]
    simp only [dues]
    rfl

end Plans

/-! ## Exactness -/

/-- The counts of the two passes over `total` items: by the shares while items last, then
evenly. -/
structure PassCounts (nodes : List Address) (share : Address → Nat) (total : Nat)
    (weighted even : Nat → Nat) : Prop where
  /-- A share is capped by what the destinations before it left. -/
  weighs : ∀ position (inside : position < nodes.length), weighted position =
    min (share nodes[position]) (total - ∑ earlier ∈ range position, weighted earlier)
  /-- What the shares leave over is split evenly; its remainder goes to the first. -/
  evens : ∀ position < nodes.length,
    let left := total - ∑ any ∈ range nodes.length, weighted any
    even position =
      if position < left % nodes.length then left / nodes.length + 1 else left / nodes.length
  /-- Together the counts are the whole. -/
  covers : ∑ any ∈ range nodes.length, weighted any + ∑ any ∈ range nodes.length, even any = total

/-- Every position of a list in one place. -/
structure Partitioned {total : Nat} (destinations : List Address)
    (places : List (Address × List (Fin total))) : Prop where
  once : ∀ position, ∃! entry, entry ∈ places ∧ position ∈ entry.2
  /-- Each destination keeps the order of the list. -/
  inOrder : ∀ entry ∈ places, entry.2.Pairwise (· < ·)
  filled : ∀ entry ∈ places, entry.2 ≠ []
  destined : ∀ entry ∈ places, entry.1 ∈ destinations
  /-- Each destination is listed at most once, in address order. -/
  listed : (places.map Prod.fst).Pairwise (· < ·)

section Exactness

variable {ι : Type}

theorem passCounts_dues {nodes : List Address} (some : nodes ≠ []) (share : Address → Nat) (total : Nat) :
    PassCounts nodes share total (weightedDue (nodes.map share) total) (evenDue (nodes.map share) total) := by
  have sameCount : (nodes.map share).length = nodes.length := List.length_map _
  refine ⟨?weighs, ?evens, ?covers⟩
  case weighs =>
    intro position inside
    rw [weightedDue_eq, List.getD_eq_getElem?_getD, List.getElem?_map, List.getElem?_eq_getElem inside]
    rfl
  case evens =>
    intro position _
    have left : total - min total (nodes.map share).sum = total - (nodes.map share).sum := by omega
    simp only [← sameCount, sum_weightedDue_all, left]
    rfl
  case covers =>
    rw [← sameCount]
    exact sum_weightedDue_add_sum_evenDue _ total (by simpa using some)

/-- A split with a destination puts every position in one place. -/
theorem partitioned_distribute {destinations : List Address} (some : destinations ≠ []) (total : Nat)
    (shares : Option Shares) :
    Partitioned destinations (distribute (List.finRange total) shares destinations).assignments := by
  have permuted := distribute_perm some (List.finRange total) shares
  have distinct : ((distribute (List.finRange total) shares destinations).assignments.flatMap
      Prod.snd).Nodup := permuted.nodup_iff.2 (List.nodup_finRange total)
  refine ⟨?once, ?inOrder, ?filled, fun entry member => mem_of_mem_assignments member, ?listed⟩
  case once =>
    intro position
    obtain ⟨entry, member, inEntry⟩ := List.mem_flatMap.1 (permuted.mem_iff.2 (List.mem_finRange position))
    refine ⟨entry, ⟨member, inEntry⟩, fun other ⟨otherMember, inOther⟩ => ?_⟩
    by_contra apart
    have symmetric : Std.Symm (Function.onFun List.Disjoint
        (Prod.snd : Address × List (Fin total) → List (Fin total))) :=
      ⟨fun _ _ disjoint => disjoint.symm⟩
    exact (List.nodup_flatMap.1 distinct).2.forall otherMember member apart inOther inEntry
  case inOrder =>
    intro entry member
    rw [distribute_eq some] at member
    obtain ⟨⟨node, position⟩, inIndexed, rfl⟩ := List.mem_map.1 (List.mem_of_mem_filter member)
    have inside := (List.mem_zipIdx' inIndexed).1
    exact (List.pairwise_lt_finRange total).sublist (allotment_sublist _ inside)
  case filled =>
    intro entry member
    rw [distribute_eq some] at member
    simpa using (List.mem_filter.1 member).2
  case listed =>
    have ordered : (Address.distinct destinations).Pairwise (· < ·) := (Table.ofList destinations).ordered
    have firsts : ((Address.distinct destinations).zipIdx.map fun (node, position) =>
        (node, duesOf shares destinations (List.finRange total) position)).map Prod.fst =
          Address.distinct destinations := by
      rw [List.map_map]
      exact List.zipIdx_map_fst 0 _
    rw [← firsts] at ordered
    rw [distribute_eq some]
    exact ordered.sublist (List.filter_sublist.map Prod.fst)

/-- A split is exact. Without a destination nothing is assigned. With one, nothing is
left: each destination is given a stretch by its share and a stretch of what the shares leave
over, in address order, and so every position of the list ends at one place. -/
theorem distribute_exact (items : List ι) (shares : Option Shares) (destinations : List Address) :
    (destinations = [] ∧ distribute items shares destinations = ⟨[], items⟩) ∨
    (destinations ≠ [] ∧
      (∃ nodes weighted even,
        nodes.Pairwise (· < ·) ∧ (∀ node, node ∈ nodes ↔ node ∈ destinations) ∧
        PassCounts nodes (shareOf shares) items.length weighted even ∧
        distribute items shares destinations =
          ⟨(nodes.zipIdx.map fun (node, position) =>
              (node, allotment nodes.length weighted even items position)).filter
            fun entry => !entry.2.isEmpty, []⟩) ∧
      ∃ places : List (Address × List (Fin items.length)),
        Partitioned destinations places ∧
        (distribute items shares destinations).assignments =
          places.map fun (node, positions) => (node, positions.map items.get)) := by
  by_cases none : destinations = []
  · subst none
    exact .inl ⟨rfl, rfl⟩
  · refine .inr ⟨none, ⟨Address.distinct destinations, _, _, (Table.ofList destinations).ordered,
      fun node => Address.mem_distinct, passCounts_dues (mt Address.distinct_eq_nil_iff.1 none) _ _,
      distribute_eq none items shares⟩, _, partitioned_distribute none items.length shares, ?_⟩
    have relabelled := distribute_map items.get (List.finRange items.length) shares destinations
    rw [List.map_get_finRange] at relabelled
    rw [relabelled]
    rfl

-- five letters, a share for the second node and for a stranger, and the second node named twice
example : distribute ["p", "q", "r", "s", "t"] (some (.ofList [(⟨"b"⟩, 2), (⟨"z"⟩, 9)])) [⟨"b"⟩, ⟨"a"⟩, ⟨"b"⟩] =
    ⟨[(⟨"a"⟩, ["r", "s"]), (⟨"b"⟩, ["p", "q", "t"])], []⟩ := by decide

end Exactness

end Handover
