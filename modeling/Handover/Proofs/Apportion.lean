import Handover.Proofs.Counts
import Handover.Share.Capacity
import Mathlib.Algebra.GroupWithZero.Nat

/-!
Contract: what an apportionment by weights gives to whom.

Owns: the account of what rounding down leaves over; the order in which the left over items
are given out; and that the shares of a total are exact, rounded proportions that go by weight.

Over the sum of the weights the remainders add up to the items left over, and each of them is
below that sum. So there are always as many nodes with a remainder as items left over, and the
items never reach a node without one, a node of weight 0 among them.
-/

set_option autoImplicit false

namespace Handover

section Apportion

variable {weights : Shares} {total : Nat}

/-! ## What rounding down leaves over -/

/-- Of `rows`, rounded shares and remainders together are the proportions. -/
theorem floors_add_remainders (weights : Shares) (total : Nat) (rows : List (Address × Nat)) :
    weights.sum * (rows.map fun row => floorShare weights total row.2).sum +
        (rows.map fun row => remainder weights total row.2).sum =
      total * (rows.map Prod.snd).sum := by
  induction rows with
  | nil => simp
  | cons row rows inductionHypothesis =>
      have here : weights.sum * floorShare weights total row.2 + remainder weights total row.2 =
          total * row.2 := Nat.div_add_mod _ _
      simp only [List.map_cons, List.sum_cons, Nat.mul_add]
      omega

/-- The remainders are worth the items that are left over. -/
theorem leftoverCount_mul_sum (weights : Shares) (total : Nat) :
    leftoverCount weights total * weights.sum =
      (weights.rows.map fun row => remainder weights total row.2).sum := by
  have account := floors_add_remainders weights total weights.rows
  have whole : (weights.rows.map Prod.snd).sum = weights.sum := rfl
  have floors : sumOf (weights.rows.map fun row => floorShare weights total row.2) =
      (weights.rows.map fun row => floorShare weights total row.2).sum := rfl
  rw [whole] at account
  rw [leftoverCount, floors, Nat.mul_comm, Nat.mul_sub, Nat.mul_comm weights.sum total]
  omega

/-- The nodes whose proportion is no whole number. -/
def unevenNodes (weights : Shares) (total : Nat) : Nat :=
  weights.rows.countP fun row => decide (0 < remainder weights total row.2)

section Positive

variable (positive : 0 < weights.sum)

include positive

/-- Rounding down never gives out more than there is. -/
theorem sum_floors_le (total : Nat) :
    (weights.rows.map fun row => floorShare weights total row.2).sum ≤ total := by
  have account := floors_add_remainders weights total weights.rows
  have whole : (weights.rows.map Prod.snd).sum = weights.sum := rfl
  rw [whole] at account
  refine Nat.le_of_mul_le_mul_left ?_ positive
  rw [Nat.mul_comm weights.sum total]
  omega

/-- Each remainder is less than one item, so it takes more of them to make one. -/
theorem sum_remainders_le (total : Nat) :
    (weights.rows.map fun row => remainder weights total row.2).sum ≤
      unevenNodes weights total * (weights.sum - 1) := by
  unfold unevenNodes
  induction weights.rows with
  | nil => simp
  | cons row rows inductionHypothesis =>
      have below : remainder weights total row.2 < weights.sum := Nat.mod_lt _ positive
      rw [List.map_cons, List.sum_cons, List.countP_cons]
      by_cases some : 0 < remainder weights total row.2
      · rw [if_pos (by simpa using some), Nat.add_mul]
        omega
      · rw [if_neg (by simpa using some), Nat.add_zero]
        omega

/-- There are as many uneven nodes as items left over, and more if any item is left over. -/
theorem leftoverCount_le_unevenNodes (total : Nat) :
    leftoverCount weights total ≤ unevenNodes weights total ∧
      (0 < leftoverCount weights total → leftoverCount weights total < unevenNodes weights total) := by
  have worth := leftoverCount_mul_sum weights total
  have small := sum_remainders_le positive total
  have fewer : 0 < unevenNodes weights total → leftoverCount weights total < unevenNodes weights total := by
    intro some
    refine Nat.lt_of_mul_lt_mul_right (a := weights.sum) ?_
    have step : unevenNodes weights total * (weights.sum - 1) + unevenNodes weights total =
        unevenNodes weights total * weights.sum := by
      rw [← Nat.mul_succ]
      congr 1
      omega
    omega
  by_cases some : 0 < unevenNodes weights total
  · exact ⟨Nat.le_of_lt (fewer some), fun _ => fewer some⟩
  · have none : unevenNodes weights total = 0 := by omega
    rw [none, Nat.zero_mul] at small
    have nothing : leftoverCount weights total * weights.sum = 0 := by omega
    have empty : leftoverCount weights total = 0 :=
      (Nat.mul_eq_zero.1 nothing).resolve_right (Nat.ne_of_gt positive)
    omega

/-- The items left over are used up before the nodes are. -/
theorem leftoverCount_lt_length (total : Nat) : leftoverCount weights total < weights.rows.length := by
  have bound := leftoverCount_le_unevenNodes positive total
  have counted : unevenNodes weights total ≤ weights.rows.length := List.countP_le_length
  have someone : 0 < weights.rows.length := by
    refine List.length_pos_of_ne_nil fun none => ?_
    rw [Shares.sum, none] at positive
    exact absurd positive (Nat.lt_irrefl 0)
  omega

end Positive

/-! ## The order of the nodes -/

/-- Left over items are given to `left` before `right`: by the remainder, then by the address. -/
def Precedes (weights : Shares) (total : Nat) (left right : Address × Nat) : Prop :=
  remainder weights total right.2 < remainder weights total left.2 ∨
    remainder weights total left.2 = remainder weights total right.2 ∧ left.1 < right.1

private theorem falls_trans (first second third : Address × Nat)
    (left : decide (remainder weights total second.2 ≤ remainder weights total first.2) = true)
    (right : decide (remainder weights total third.2 ≤ remainder weights total second.2) = true) :
    decide (remainder weights total third.2 ≤ remainder weights total first.2) = true := by
  simp only [decide_eq_true_eq] at left right ⊢
  exact Nat.le_trans right left

private theorem falls_total (first second : Address × Nat) :
    (decide (remainder weights total second.2 ≤ remainder weights total first.2) ||
      decide (remainder weights total first.2 ≤ remainder weights total second.2)) = true := by
  simp only [Bool.or_eq_true, decide_eq_true_eq]
  exact Nat.le_total _ _

theorem byRemainder_perm (weights : Shares) (total : Nat) :
    (byRemainder weights total).Perm weights.rows := List.mergeSort_perm _ _

theorem sorted_byRemainder (weights : Shares) (total : Nat) :
    (byRemainder weights total).Pairwise fun left right =>
      remainder weights total right.2 ≤ remainder weights total left.2 := by
  refine (List.pairwise_mergeSort falls_trans falls_total weights.rows).imp fun before => ?_
  simpa using before

/-- Nodes of equal remainder are in the order of their addresses. -/
theorem filter_byRemainder (weights : Shares) (total value : Nat) :
    (byRemainder weights total).filter (fun row => remainder weights total row.2 == value) =
      weights.rows.filter fun row => remainder weights total row.2 == value := by
  let tied := weights.rows.filter fun row => remainder weights total row.2 == value
  have stays : tied.Sublist (byRemainder weights total) := by
    refine List.sublist_mergeSort falls_trans falls_total ?_ List.filter_sublist
    refine List.pairwise_of_forall_mem_list fun left leftIn right rightIn => ?_
    have leftValue := (List.mem_filter.1 leftIn).2
    have rightValue := (List.mem_filter.1 rightIn).2
    simp only [beq_iff_eq] at leftValue rightValue
    simp [leftValue, rightValue]
  have among := stays.filter fun row => remainder weights total row.2 == value
  rw [List.filter_filter] at among
  simp only [Bool.and_self] at among
  exact (among.eq_of_length ((byRemainder_perm weights total).filter _).length_eq.symm).symm

theorem pairwise_byRemainder (weights : Shares) (total : Nat) :
    (byRemainder weights total).Pairwise (Precedes weights total) := by
  refine List.pairwise_iff_forall_sublist.2 fun {left right} inOrder => ?_
  have falls := List.pairwise_iff_forall_sublist.1 (sorted_byRemainder weights total) inOrder
  rcases Nat.lt_or_eq_of_le falls with below | same
  · exact .inl below
  · refine .inr ⟨same.symm, ?_⟩
    -- among nodes of one remainder the order is that of the table
    have tied := inOrder.filter fun row => remainder weights total row.2 == remainder weights total left.2
    rw [filter_byRemainder] at tied
    simp only [same, List.filter_cons, beq_self_eq_true, if_true, List.filter_nil] at tied
    exact List.pairwise_iff_forall_sublist.1 weights.ordered (tied.trans List.filter_sublist)

/-- Who is given one of the left over items only if another is, is given none before it. -/
theorem mem_take_of_precedes {left right : Address × Nat} {count : Nat} (known : left ∈ weights)
    (taken : right ∈ (byRemainder weights total).take count) (before : Precedes weights total left right) :
    left ∈ (byRemainder weights total).take count := by
  have inOrder := pairwise_byRemainder weights total
  have listed : left ∈ byRemainder weights total := (byRemainder_perm weights total).mem_iff.2 known
  rw [← List.take_append_drop count (byRemainder weights total)] at inOrder listed
  rcases List.mem_append.1 listed with first | second
  · exact first
  · have after := (List.pairwise_append.1 inOrder).2.2 right taken left second
    rcases before with fewer | ⟨same, lower⟩ <;> rcases after with more | ⟨sameAgain, higher⟩
    · omega
    · omega
    · omega
    · exact absurd (Std.lt_trans lower higher) (Std.lt_irrefl)

theorem mem_favoured {row : Address × Nat} (known : row ∈ weights) :
    row.1 ∈ favoured weights total ↔
      row ∈ (byRemainder weights total).take (leftoverCount weights total) := by
  refine ⟨fun member => ?_, fun taken => List.mem_map_of_mem taken⟩
  obtain ⟨other, taken, same⟩ := List.mem_map.1 member
  have otherKnown : other ∈ weights :=
    (byRemainder_perm weights total).mem_iff.1 (List.mem_of_mem_take taken)
  exact Table.eq_of_key_eq otherKnown known same ▸ taken

/-- The left over items never reach a node without a remainder. -/
theorem remainder_pos_of_taken (positive : 0 < weights.sum) {row : Address × Nat}
    (taken : row ∈ (byRemainder weights total).take (leftoverCount weights total)) :
    0 < remainder weights total row.2 := by
  let uneven := fun row : Address × Nat => decide (0 < remainder weights total row.2)
  by_contra even
  have sorted := sorted_byRemainder weights total
  rw [← List.take_append_drop (leftoverCount weights total) (byRemainder weights total)] at sorted
  have noneLater : ((byRemainder weights total).drop (leftoverCount weights total)).countP uneven = 0 := by
    refine List.countP_eq_zero.2 fun later member => ?_
    have falls := (List.pairwise_append.1 sorted).2.2 row taken later member
    simp only [uneven, decide_eq_true_eq]
    omega
  have allTaken : ((byRemainder weights total).take (leftoverCount weights total)).countP uneven =
      unevenNodes weights total := by
    rw [unevenNodes, ← (byRemainder_perm weights total).countP_eq,
      ← List.take_append_drop (leftoverCount weights total) (byRemainder weights total),
      List.countP_append, List.take_append_drop, noneLater, Nat.add_zero]
  have notAll : ((byRemainder weights total).take (leftoverCount weights total)).countP uneven <
      ((byRemainder weights total).take (leftoverCount weights total)).length :=
    Nat.lt_of_le_of_ne List.countP_le_length fun all =>
      even (by simpa [uneven] using List.countP_eq_length.1 all row taken)
  have atMost := List.length_take_le (leftoverCount weights total) (byRemainder weights total)
  have enough := (leftoverCount_le_unevenNodes positive total).1
  omega

/-! ## Shares -/

/-- What a node gets: its rounded share, and one item more if it is favoured. -/
def granted (weights : Shares) (total : Nat) (row : Address × Nat) : Address × Nat :=
  (row.1, floorShare weights total row.2 + if (favoured weights total).contains row.1 then 1 else 0)

theorem key_granted (weights : Shares) (total : Nat) (row : Address × Nat) :
    key (granted weights total row) = key row := rfl

def sharesBy (weights : Shares) (total : Nat) : Shares :=
  weights.update (granted weights total) (key_granted weights total)

theorem apportion_eq (weights : Shares) (total : Nat) :
    apportion weights total = if weights.sum = 0 then none else some (sharesBy weights total) := rfl

theorem Shares.of_eq_of_mem {shares : Shares} {row : Address × Nat} (known : row ∈ shares) :
    shares.of row.1 = row.2 := by
  have found : shares.find? row.1 = some row := Table.find?_eq_some_iff.2 ⟨known, rfl⟩
  rw [Shares.of, found, Option.map_some, Option.getD_some]

theorem sharesBy_of {row : Address × Nat} (known : row ∈ weights) :
    (sharesBy weights total).of row.1 = floorShare weights total row.2 +
      if row ∈ (byRemainder weights total).take (leftoverCount weights total) then 1 else 0 := by
  have there : granted weights total row ∈ sharesBy weights total := List.mem_map_of_mem known
  have given := Shares.of_eq_of_mem there
  simp only [granted, List.contains_iff_mem, mem_favoured known] at given
  exact given

theorem sum_sharesBy (positive : 0 < weights.sum) : (sharesBy weights total).sum = total := by
  let bonus := fun row : Address × Nat => if (favoured weights total).contains row.1 then 1 else 0
  have split : ∀ rows : List (Address × Nat),
      (rows.map fun row => floorShare weights total row.2 + bonus row).sum =
        (rows.map fun row => floorShare weights total row.2).sum +
          rows.countP fun row => (favoured weights total).contains row.1 := by
    intro rows
    induction rows with
    | nil => rfl
    | cons row rows inductionHypothesis =>
        simp only [List.map_cons, List.sum_cons, inductionHypothesis, List.countP_cons, bonus]
        omega
  have distinct : (favoured weights total).Nodup := by
    have keys := ((byRemainder_perm weights total).map Prod.fst).nodup_iff.2 weights.nodup_keys
    exact keys.sublist ((List.take_sublist _ _).map Prod.fst)
  have counted : (weights.rows.countP fun row => (favoured weights total).contains row.1) =
      (favoured weights total).length := by
    refine countP_contains_eq_length Prod.fst weights.nodup_rows distinct ?_
    intro wanted member
    obtain ⟨row, taken, rfl⟩ := List.mem_map.1 member
    have known : row ∈ weights :=
      (byRemainder_perm weights total).mem_iff.1 (List.mem_of_mem_take taken)
    exact ⟨row, known, rfl, fun other otherIn same => Table.eq_of_key_eq otherIn known same⟩
  have given : (favoured weights total).length = leftoverCount weights total := by
    rw [favoured, List.length_map, List.length_take, (byRemainder_perm weights total).length_eq]
    exact Nat.min_eq_left (Nat.le_of_lt (leftoverCount_lt_length positive total))
  have rows : (sharesBy weights total).sum =
      (weights.rows.map fun row => floorShare weights total row.2 + bonus row).sum := by
    rw [Shares.sum, sharesBy, Table.rows_update, List.map_map]
    rfl
  have floors := sum_floors_le positive total
  have left : leftoverCount weights total =
    total - (weights.rows.map fun row => floorShare weights total row.2).sum := rfl
  rw [rows, split, counted, given]
  omega

/-- A larger weight never has the smaller share. -/
theorem sharesBy_mono (positive : 0 < weights.sum) {left right : Address × Nat} (leftKnown : left ∈ weights)
    (rightKnown : right ∈ weights) (lighter : left.2 < right.2) :
    (sharesBy weights total).of left.1 ≤ (sharesBy weights total).of right.1 := by
  rw [sharesBy_of leftKnown, sharesBy_of rightKnown]
  have floors : floorShare weights total left.2 ≤ floorShare weights total right.2 :=
    Nat.div_le_div_right (Nat.mul_le_mul_left total (Nat.le_of_lt lighter))
  by_cases taken : left ∈ (byRemainder weights total).take (leftoverCount weights total)
  · rw [if_pos taken]
    rcases Nat.lt_or_eq_of_le floors with below | same
    · omega
    · -- with equal rounded shares the heavier node has the larger remainder
      have uneven := remainder_pos_of_taken positive taken
      have some : 0 < total := by
        refine Nat.pos_of_ne_zero fun none => ?_
        rw [remainder, none, Nat.zero_mul, Nat.zero_mod] at uneven
        exact absurd uneven (Nat.lt_irrefl 0)
      have leftWhole : weights.sum * floorShare weights total left.2 + remainder weights total left.2 =
          total * left.2 := Nat.div_add_mod _ _
      have rightWhole : weights.sum * floorShare weights total right.2 + remainder weights total right.2 =
          total * right.2 := Nat.div_add_mod _ _
      have heavier : total * left.2 < total * right.2 := Nat.mul_lt_mul_of_pos_left lighter some
      have before : Precedes weights total right left := by
        rw [same] at leftWhole
        exact .inl (by omega)
      rw [if_pos (mem_take_of_precedes rightKnown taken before)]
      omega
  · rw [if_neg taken]
    omega

/-- Shares of a total by weights: exact, and fair to one item. -/
structure Apportioned (weights : Shares) (total : Nat) (shares : Shares) : Prop where
  nodes : shares.rows.map Prod.fst = weights.rows.map Prod.fst
  exact : shares.sum = total
  /-- A share is the proportion, rounded down or up. -/
  rounded : ∀ row ∈ weights, shares.of row.1 = total * row.2 / weights.sum ∨
    shares.of row.1 = total * row.2 / weights.sum + 1
  idle : ∀ row ∈ weights, row.2 = 0 → shares.of row.1 = 0
  /-- Rounded up are the first nodes by decreasing remainder and then by address, one for each
  item that rounding down all shares leaves over. -/
  favours : ∃ order : List (Address × Nat), order.Perm weights.rows ∧
    order.Pairwise (fun left right =>
      total * right.2 % weights.sum < total * left.2 % weights.sum ∨
        total * left.2 % weights.sum = total * right.2 % weights.sum ∧ left.1 < right.1) ∧
    ∀ row ∈ weights, shares.of row.1 = total * row.2 / weights.sum + 1 ↔
      row ∈ order.take (total - (weights.rows.map fun row => total * row.2 / weights.sum).sum)
  monotone : ∀ left ∈ weights, ∀ right ∈ weights, left.2 < right.2 →
    shares.of left.1 ≤ shares.of right.1
  /-- Rounding down never gives out more than the total. -/
  covered : (weights.rows.map fun row => total * row.2 / weights.sum).sum ≤ total
  /-- The items left over are used up before the nodes are. -/
  usedUp : total - (weights.rows.map fun row => total * row.2 / weights.sum).sum < weights.rows.length

theorem apportioned_sharesBy (positive : 0 < weights.sum) (total : Nat) :
    Apportioned weights total (sharesBy weights total) where
  nodes := by
    rw [sharesBy, Table.rows_update, List.map_map]
    rfl
  exact := sum_sharesBy positive
  rounded := by
    intro row known
    rw [sharesBy_of known]
    split
    · exact .inr rfl
    · exact .inl rfl
  idle := by
    intro row known weightless
    have noShare : floorShare weights total row.2 = 0 := by
      rw [floorShare, weightless, Nat.mul_zero, Nat.zero_div]
    have noRemainder : remainder weights total row.2 = 0 := by
      rw [remainder, weightless, Nat.mul_zero, Nat.zero_mod]
    have passedOver : row ∉ (byRemainder weights total).take (leftoverCount weights total) :=
      fun taken => absurd (remainder_pos_of_taken positive taken) (by omega)
    rw [sharesBy_of known, noShare, if_neg passedOver]
  favours := by
    refine ⟨byRemainder weights total, byRemainder_perm weights total,
      pairwise_byRemainder weights total, fun row known => ?_⟩
    rw [sharesBy_of known]
    change floorShare weights total row.2 + _ = floorShare weights total row.2 + 1 ↔
      row ∈ (byRemainder weights total).take (leftoverCount weights total)
    split <;> simp_all
  monotone := fun _ leftKnown _ rightKnown lighter => sharesBy_mono positive leftKnown rightKnown lighter
  covered := sum_floors_le positive total
  usedUp := leftoverCount_lt_length positive total

end Apportion

/-- A weigher that goes by capacities apportions every demand by the capacities for it, if any of
these is positive, and else does not answer. -/
theorem weigher_apportions (capacities : Capacities) (demand : Demand) :
    ((capacities.forDemand demand).sum = 0 ∧ capacities.weigher demand = none) ∨
      (0 < (capacities.forDemand demand).sum ∧ ∃ shares, capacities.weigher demand = some shares ∧
        Apportioned (capacities.forDemand demand) demand.total shares) := by
  unfold Capacities.weigher
  rw [apportion_eq]
  split
  case isTrue none => exact .inl ⟨none, rfl⟩
  case isFalse some =>
    have positive := Nat.pos_of_ne_zero some
    exact .inr ⟨positive, _, rfl, apportioned_sharesBy positive demand.total⟩

-- seven items by the weights 3, 0, 1 and 1: the one left over goes to the lower of two equal remainders
example : (apportion (.ofList [(⟨"a"⟩, 3), (⟨"b"⟩, 0), (⟨"c"⟩, 1), (⟨"d"⟩, 1)]) 7).map Table.rows =
    some [(⟨"a"⟩, 4), (⟨"b"⟩, 0), (⟨"c"⟩, 2), (⟨"d"⟩, 1)] := by cbv

end Handover
