import Handover.Proofs.Allotment
import Handover.Proofs.Apportion
import Mathlib.Algebra.BigOperators.Group.Finset.Basic

/-!
Contract: a split by shares that add up to the number of items.

Owns: the sum of the shares of destinations; the slices of a split that leaves nothing to the
even pass; and that a split by capacities gives each node its apportioned share, just where
every node with a share is a destination.

Apportioned shares add up to the demand. So when none of them belongs to a node that is no
destination, the weighted pass hands out the last item and the even pass has nothing to split.
-/

set_option autoImplicit false

namespace Handover

/-! ## Shares of destinations -/

/-- Whoever has a share is listed with it. -/
theorem Shares.exists_of_pos {shares : Shares} {node : Address} (positive : 0 < shares.of node) :
    ∃ row ∈ shares, row.1 = node ∧ 0 < row.2 := by
  unfold Shares.of at positive
  cases found : shares.find? node with
  | none =>
      rw [found] at positive
      exact absurd positive (Nat.lt_irrefl 0)
  | some row =>
      obtain ⟨known, same⟩ := Table.find?_eq_some_iff.1 found
      rw [found] at positive
      exact ⟨row, known, same, positive⟩

theorem Shares.of_eq_zero {shares : Shares} {node : Address}
    (unlisted : ∀ row ∈ shares, 0 < row.2 → row.1 ≠ node) : shares.of node = 0 := by
  refine Nat.eq_zero_of_not_pos fun positive => ?_
  obtain ⟨row, known, same, some⟩ := Shares.exists_of_pos positive
  exact unlisted row known some same

/-- Whoever has a share is among `nodes`, so the shares of these are all there is. -/
theorem Shares.sum_of_covered {shares : Shares} {nodes : List Address} (distinct : nodes.Nodup)
    (covered : ∀ row ∈ shares, 0 < row.2 → row.1 ∈ nodes) :
    (nodes.map shares.of).sum = shares.sum := by
  have keys : (shares.rows.map Prod.fst).Nodup := shares.nodup_keys
  have own : (shares.rows.map Prod.fst).map shares.of = shares.rows.map Prod.snd := by
    rw [List.map_map]
    exact List.map_congr_left fun row known => Shares.of_eq_of_mem known
  have whole : shares.sum = ∑ node ∈ (shares.rows.map Prod.fst).toFinset, shares.of node := by
    rw [List.sum_toFinset _ keys, own]
    rfl
  rw [whole, ← List.sum_toFinset _ distinct]
  -- both sums are the sum over the nodes of either list
  let listed := (shares.rows.map Prod.fst).toFinset
  have among : nodes.toFinset ⊆ nodes.toFinset ∪ listed := Finset.subset_union_left
  have known : listed ⊆ nodes.toFinset ∪ listed := Finset.subset_union_right
  refine (Finset.sum_subset among fun node _ notAmong => ?_).trans
    (Finset.sum_subset known fun node _ notListed => ?_).symm
  · refine Shares.of_eq_zero fun row known positive same => notAmong ?_
    exact List.mem_toFinset.2 (same ▸ covered row known positive)
  · refine Shares.of_eq_zero fun row known _ same => notListed ?_
    exact List.mem_toFinset.2 (List.mem_map.2 ⟨row, known, same⟩)

/-! ## Slices that use up the list -/

section Slices

variable {ι : Type}

theorem slices_nil (sizes : List Nat) : (slices sizes ([] : List ι)).1 = sizes.map fun _ => [] := by
  induction sizes with
  | nil => rfl
  | cons size sizes inductionHypothesis => simp [slices, inductionHypothesis]

/-- Where there is enough, everybody's slice has the size that was asked for. -/
theorem length_of_mem_zip_slices {nodes : List Address} {share : Address → Nat} {items : List ι}
    (enough : (nodes.map share).sum ≤ items.length) {entry : Address × List ι}
    (member : entry ∈ nodes.zip (slices (nodes.map share) items).1) : entry.2.length = share entry.1 := by
  induction nodes generalizing items with
  | nil => exact absurd member List.not_mem_nil
  | cons node nodes inductionHypothesis =>
      simp only [List.map_cons, List.sum_cons] at enough
      rcases List.mem_cons.1 member with rfl | later
      · exact (List.length_take_of_le (by omega))
      · exact inductionHypothesis (by rw [List.length_drop]; omega) later

/-- Nothing is left to the even pass. -/
theorem twoPasses_of_exact {nodes : List Address} {share : Address → Nat} {items : List ι}
    (exact : (nodes.map share).sum = items.length) :
    twoPasses nodes share items = nodes.zip (slices (nodes.map share) items).1 := by
  have nothing : (slices (nodes.map share) items).2 = [] := by
    rw [slices_left, exact, List.drop_length]
  have sameCount : (slices (nodes.map share) items).1.length = nodes.length := by
    rw [slices_length, List.length_map]
  simp only [twoPasses, nothing, slices_nil]
  congr 1
  apply List.ext_getElem
  · simp [sameCount, evenShares]
  · intro position _ _
    simp

end Slices

/-! ## Honoured shares -/

/-- The plan gives every node as many items as its share says, slice after slice. -/
structure Honours {ι : Type} (items : List ι) (shares : Shares) (plan : Distribution ι) : Prop where
  /-- Put together in the order of the listing, the slices are the whole list. -/
  consecutive : plan.assignments.flatMap Prod.snd = items
  /-- Each node is listed at most once, in address order. -/
  listed : (plan.assignments.map Prod.fst).Pairwise (· < ·)
  filled : ∀ entry ∈ plan.assignments, entry.2 ≠ []
  share : ∀ entry ∈ plan.assignments, entry.2.length = shares.of entry.1
  unlisted : ∀ node, node ∉ plan.assignments.map Prod.fst → shares.of node = 0
  placed : plan.unassigned = []

section Honours

variable {ι : Type} {items : List ι} {shares : Shares} {destinations : List Address}

theorem Address.nodup_distinct (addresses : List Address) : (Address.distinct addresses).Nodup :=
  Address.nodup_of_ordered (Table.ofList addresses).ordered

/-- Where the shares add up to the number of items, only the weighted pass places any. -/
theorem distribute_of_exact
    (exact : ((Address.distinct destinations).map shares.of).sum = items.length) :
    distribute items (some shares) destinations =
      ⟨((Address.distinct destinations).zip
          (slices ((Address.distinct destinations).map shares.of) items).1).filter
        fun (_, taken) => !taken.isEmpty, []⟩ := by
  rw [← twoPasses_of_exact exact]
  unfold distribute
  split
  case h_1 none =>
    -- nobody takes a share, so there is no item
    rw [none] at exact ⊢
    rw [List.eq_nil_of_length_eq_zero exact.symm]
    rfl
  case h_2 => rfl

/-- Where every node with a share is a destination, shares that add up are honoured. -/
theorem honours_of_covered (adds : shares.sum = items.length)
    (covered : ∀ row ∈ shares, 0 < row.2 → row.1 ∈ destinations) :
    Honours items shares (distribute items (some shares) destinations) ∧
      (slices ((Address.distinct destinations).map shares.of) items).2 = [] := by
  let nodes := Address.distinct destinations
  have exact : (nodes.map shares.of).sum = items.length :=
    adds ▸ Shares.sum_of_covered (Address.nodup_distinct destinations) fun row known positive =>
      Address.mem_distinct.2 (covered row known positive)
  have nothing : (slices (nodes.map shares.of) items).2 = [] := by
    rw [slices_left, exact, List.drop_length]
  have sameCount : (slices (nodes.map shares.of) items).1.length = nodes.length := by
    rw [slices_length, List.length_map]
  have firsts : (nodes.zip (slices (nodes.map shares.of) items).1).map Prod.fst = nodes :=
    List.map_fst_zip (Nat.le_of_eq sameCount.symm)
  have lengths : ∀ entry ∈ nodes.zip (slices (nodes.map shares.of) items).1,
      entry.2.length = shares.of entry.1 :=
    fun entry => length_of_mem_zip_slices (Nat.le_of_eq exact)
  refine ⟨?_, nothing⟩
  rw [distribute_of_exact exact]
  constructor
  case consecutive =>
    have rebuilt := slices_rebuild (nodes.map shares.of) items
    rw [nothing, List.append_nil] at rebuilt
    rw [flatMap_snd_filter, List.flatMap_def, List.map_snd_zip (Nat.le_of_eq sameCount)]
    exact rebuilt
  case listed =>
    have ordered : nodes.Pairwise (· < ·) := (Table.ofList destinations).ordered
    rw [← firsts] at ordered
    exact ordered.sublist (List.filter_sublist.map Prod.fst)
  case filled =>
    intro entry member
    simpa using (List.mem_filter.1 member).2
  case share => exact fun entry member => lengths entry (List.mem_of_mem_filter member)
  case unlisted =>
    intro node notListed
    by_cases destined : node ∈ nodes
    · -- a destination is left out only if its slice is empty
      obtain ⟨entry, member, rfl⟩ := List.mem_map.1 (firsts.symm ▸ destined)
      rw [← lengths entry member, List.length_eq_zero_iff]
      by_contra some
      exact notListed (List.mem_map_of_mem (List.mem_filter.2 ⟨member, by simpa using some⟩))
    · refine Shares.of_eq_zero fun row known positive same => destined ?_
      exact Address.mem_distinct.2 (same ▸ covered row known positive)
  case placed => rfl

/-- Shares are honoured only if every node with a share is a destination. -/
theorem Honours.covered (honours : Honours items shares (distribute items (some shares) destinations))
    {node : Address} (positive : 0 < shares.of node) : node ∈ destinations := by
  by_contra stranger
  refine absurd (honours.unlisted node fun listed => stranger ?_) (Nat.ne_of_gt positive)
  obtain ⟨entry, member, rfl⟩ := List.mem_map.1 listed
  exact mem_of_mem_assignments member

end Honours

/-! ## Capacities -/

/-- Only who has a weight is given a share. -/
theorem Apportioned.weight_pos {weights shares : Shares} {total : Nat}
    (apportioned : Apportioned weights total shares) {node : Address} (positive : 0 < shares.of node) :
    0 < weights.of node := by
  obtain ⟨share, known, rfl, _⟩ := Shares.exists_of_pos positive
  have listed : share.1 ∈ weights.rows.map Prod.fst :=
    apportioned.nodes ▸ List.mem_map_of_mem known
  obtain ⟨row, weighted, same⟩ := List.mem_map.1 listed
  rw [← same, Shares.of_eq_of_mem weighted]
  refine Nat.pos_of_ne_zero fun weightless => ?_
  have idle := apportioned.idle row weighted weightless
  rw [same] at idle
  omega

/-- A split by capacities is exact. The shares that the weigher answers for the number of items
are honoured just where every node with a share is a destination, and so where every node with a
capacity is one. Then the even pass has nothing to split, and a node without a capacity is given
nothing. -/
theorem capacities_honoured {ι : Type} (items : List ι) (capacities : Capacities) (demand : Demand)
    (asked : demand.total = items.length) (positive : 0 < (capacities.forDemand demand).sum) :
    ∃ shares, capacities.weigher demand = some shares ∧
      Apportioned (capacities.forDemand demand) items.length shares ∧ ∀ destinations,
        (Honours items shares (distribute items (capacities.weigher demand) destinations) ↔
          ∀ node, 0 < shares.of node → node ∈ destinations) ∧
        ((∀ row ∈ capacities.forDemand demand, 0 < row.2 → row.1 ∈ destinations) →
          Honours items shares (distribute items (capacities.weigher demand) destinations) ∧
          (slices ((Address.distinct destinations).map (shareOf (capacities.weigher demand))) items).2 = [] ∧
          ∀ entry ∈ (distribute items (capacities.weigher demand) destinations).assignments,
            0 < (capacities.forDemand demand).of entry.1) := by
  let weights := capacities.forDemand demand
  have apportioned : Apportioned weights items.length (sharesBy weights items.length) :=
    apportioned_sharesBy positive items.length
  have answered : capacities.weigher demand = some (sharesBy weights items.length) := by
    rw [Capacities.weigher, asked, apportion_eq, if_neg (Nat.ne_of_gt positive)]
  refine ⟨_, answered, apportioned, fun destinations => ?_⟩
  rw [answered]
  have honoured : (∀ node, 0 < (sharesBy weights items.length).of node → node ∈ destinations) →
      Honours items (sharesBy weights items.length)
          (distribute items (some (sharesBy weights items.length)) destinations) ∧
        (slices ((Address.distinct destinations).map (sharesBy weights items.length).of) items).2 = [] := by
    intro covered
    refine honours_of_covered apportioned.exact fun row known some => covered row.1 ?_
    rwa [Shares.of_eq_of_mem known]
  refine ⟨⟨fun honours node => honours.covered, fun covered => (honoured covered).1⟩, fun covered => ?_⟩
  have weighted : ∀ node, 0 < (sharesBy weights items.length).of node → node ∈ destinations := by
    intro node some
    obtain ⟨row, known, rfl, heavy⟩ := Shares.exists_of_pos (apportioned.weight_pos some)
    exact covered row known heavy
  refine ⟨(honoured weighted).1, (honoured weighted).2, fun entry member => apportioned.weight_pos ?_⟩
  rw [← (honoured weighted).1.share entry member]
  exact List.length_pos_of_ne_nil ((honoured weighted).1.filled entry member)

/-- Two nodes with capacities. -/
private def threeToOne : Capacities := ⟨.ofList [(⟨"a:1"⟩, 3), (⟨"b:1"⟩, 1)], ∅⟩

/-- Eight items, and a destination without a capacity besides those with one. -/
theorem capacities_honoured_three_to_one :
    0 < (threeToOne.forDemand (.ofKind .cron 8)).sum ∧
      (∀ row ∈ threeToOne.forDemand (.ofKind .cron 8),
        0 < row.2 → row.1 ∈ [(⟨"c:1"⟩ : Address), ⟨"b:1"⟩, ⟨"a:1"⟩, ⟨"b:1"⟩]) ∧
      Honours (List.range 8) (sharesBy threeToOne.standard 8)
        (distribute (List.range 8) (threeToOne.weigher (.ofKind .cron 8))
          [⟨"c:1"⟩, ⟨"b:1"⟩, ⟨"a:1"⟩, ⟨"b:1"⟩]) := by
  have covers : ∀ row ∈ threeToOne.forDemand (.ofKind .cron 8),
      0 < row.2 → row.1 ∈ [(⟨"c:1"⟩ : Address), ⟨"b:1"⟩, ⟨"a:1"⟩, ⟨"b:1"⟩] := by
    intro row known _
    have rows : (threeToOne.forDemand (.ofKind .cron 8)).rows = [(⟨"a:1"⟩, 3), (⟨"b:1"⟩, 1)] := by
      decide
    rw [Table.mem_def, rows] at known
    rcases List.mem_cons.1 known with rfl | known
    · decide
    · rw [List.mem_singleton.1 known]
      decide
  obtain ⟨shares, answered, _, honoured⟩ :=
    capacities_honoured (List.range 8) threeToOne (.ofKind .cron 8) rfl (by decide)
  have same : some (sharesBy threeToOne.standard 8) = some shares := answered
  obtain rfl := Option.some.inj same
  exact ⟨by decide, covers, ((honoured _).2 covers).1⟩

example : (distribute (List.range 8) (threeToOne.weigher (.ofKind .cron 8))
    [⟨"c:1"⟩, ⟨"b:1"⟩, ⟨"a:1"⟩, ⟨"b:1"⟩]).assignments =
      [(⟨"a:1"⟩, [0, 1, 2, 3, 4, 5]), (⟨"b:1"⟩, [6, 7])] := by cbv

end Handover
