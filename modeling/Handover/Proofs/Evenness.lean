import Handover.Proofs.Split
import Mathlib.Algebra.BigOperators.Group.List.Basic

/-!
Contract: what even splits give when a list is not split at once but page by page.

Owns: the pages of a list; what a node gets from several even splits, told by its
position; and when those splits together are as even as a single one.

Every split gives its remainder to the first positions anew. So the first node is
ahead of the last by the number of splits that do not come out even, and the whole
is balanced just when there is at most one of them.
-/

set_option autoImplicit false

namespace Handover

/-! ## Pages of a list -/

/-- Consecutive pages of `size` items; the last page may be shorter. -/
def pagesOf {ι : Type} (size : Nat) (items : List ι) : List (List ι) :=
  if items = [] ∨ size = 0 then []
  else items.take size :: pagesOf size (items.drop size)
termination_by items.length
decreasing_by
  have filled : 0 < items.length := List.length_pos_of_ne_nil (by tauto)
  rw [List.length_drop]
  omega

section Pages

variable {ι : Type} {size : Nat}

@[simp] theorem pagesOf_nil (size : Nat) : pagesOf size ([] : List ι) = [] := by
  rw [pagesOf]
  simp

theorem pagesOf_of_ne_nil (positive : 0 < size) {items : List ι} (filled : items ≠ []) :
    pagesOf size items = items.take size :: pagesOf size (items.drop size) := by
  rw [pagesOf, if_neg]
  simp [filled, Nat.ne_of_gt positive]

/-- Items that fit on one page are one page. -/
theorem pagesOf_of_length_le {items : List ι} (filled : items ≠ []) (fits : items.length ≤ size) :
    pagesOf size items = [items] := by
  have positive : 0 < size := Nat.lt_of_lt_of_le (List.length_pos_of_ne_nil filled) fits
  rw [pagesOf_of_ne_nil positive filled, List.take_of_length_le fits, List.drop_eq_nil_of_le fits,
    pagesOf_nil]

/-- The pages put together again are the list. -/
theorem flatten_pagesOf (positive : 0 < size) (items : List ι) : (pagesOf size items).flatten = items := by
  induction counted : items.length using Nat.strongRecOn generalizing items with
  | ind count inductionHypothesis =>
      by_cases filled : items = []
      · simp [filled]
      have someItem : 0 < items.length := List.length_pos_of_ne_nil filled
      have fewer : (items.drop size).length < count := by
        rw [List.length_drop]
        omega
      rw [pagesOf_of_ne_nil positive filled, List.flatten_cons, inductionHypothesis _ fewer _ rfl,
        List.take_append_drop]

end Pages

/-! ## Several even splits -/

/-- What the node at `position` gets when each of the totals is split evenly by itself. -/
def shareOver (count : Nat) (totals : List Nat) (position : Nat) : Nat :=
  (totals.map fun total => evenShare count total position).sum

/-- How many of the totals do not split into equal shares. -/
def unevenCount (count : Nat) (totals : List Nat) : Nat :=
  totals.countP fun total => decide (total % count ≠ 0)

section Shares

variable {count : Nat} (totals : List Nat)

theorem shareOver_cons (count total : Nat) (totals : List Nat) (position : Nat) :
    shareOver count (total :: totals) position =
      evenShare count total position + shareOver count totals position := rfl

/-- Every split gives the whole part of its share, and one more to the first positions. -/
theorem shareOver_eq (count : Nat) (totals : List Nat) (position : Nat) :
    shareOver count totals position =
      (totals.map (· / count)).sum + totals.countP fun total => decide (position < total % count) := by
  induction totals with
  | nil => rfl
  | cons total totals inductionHypothesis =>
      rw [shareOver_cons, inductionHypothesis]
      simp only [evenShare, List.map_cons, List.sum_cons, List.countP_cons, decide_eq_true_eq]
      split <;> omega

theorem shareOver_first (count : Nat) (totals : List Nat) :
    shareOver count totals 0 = (totals.map (· / count)).sum + unevenCount count totals := by
  rw [shareOver_eq, unevenCount]
  simp only [Nat.pos_iff_ne_zero]

/-- The last position gets nothing of any remainder. -/
theorem shareOver_last (positive : 0 < count) :
    shareOver count totals (count - 1) = (totals.map (· / count)).sum := by
  have none_above : (totals.countP fun total => decide (count - 1 < total % count)) = 0 := by
    refine List.countP_eq_zero.2 fun total _ => ?_
    have below := Nat.mod_lt total positive
    simp only [decide_eq_true_eq]
    omega
  rw [shareOver_eq, none_above, Nat.add_zero]

theorem sum_eq_div_add_mod (count : Nat) (totals : List Nat) :
    totals.sum = count * (totals.map (· / count)).sum + (totals.map (· % count)).sum := by
  induction totals with
  | nil => rfl
  | cons total totals inductionHypothesis =>
      have whole := Nat.div_add_mod total count
      simp only [List.sum_cons, List.map_cons, Nat.mul_add]
      omega

/-- Only splits that do not come out even leave a remainder. -/
theorem sum_mod_le (positive : 0 < count) :
    (totals.map (· % count)).sum ≤ unevenCount count totals * (count - 1) := by
  unfold unevenCount
  induction totals with
  | nil => exact Nat.zero_le _
  | cons total totals inductionHypothesis =>
      have below := Nat.mod_lt total positive
      simp only [List.map_cons, List.sum_cons, List.countP_cons, decide_eq_true_eq, Nat.add_mul]
      split <;> omega

/-- Together the positions get all of every total. -/
theorem sum_shareOver (positive : 0 < count) :
    ((List.range count).map (shareOver count totals)).sum = totals.sum := by
  induction totals with
  | nil =>
      have nothing : shareOver count [] = fun _ => 0 := rfl
      simp [nothing]
  | cons total totals inductionHypothesis =>
      have someone : List.replicate count (default : Address) ≠ [] :=
        List.ne_nil_of_length_pos (by simpa using positive)
      have one := sum_evenShares someone total
      rw [evenShares_map_snd, List.length_replicate] at one
      rw [funext (shareOver_cons count total totals), List.sum_map_add, inductionHypothesis, one,
        List.sum_cons]

/-- Several even splits are together as even as one just when at most one of them leaves
a remainder. -/
theorem shareOver_balanced_iff (positive : 0 < count) :
    (∀ position < count, shareOver count totals position = totals.sum / count ∨
        shareOver count totals position = totals.sum / count + 1) ↔
      unevenCount count totals ≤ 1 := by
  have whole := sum_eq_div_add_mod count totals
  have rest := sum_mod_le totals positive
  constructor
  · intro balanced
    have first := balanced 0 positive
    have last := balanced (count - 1) (Nat.sub_lt positive Nat.one_pos)
    rw [shareOver_first] at first
    rw [shareOver_last totals positive] at last
    omega
  · intro few position _
    have small : (totals.map (· % count)).sum < count := by
      have most : unevenCount count totals * (count - 1) ≤ 1 * (count - 1) :=
        Nat.mul_le_mul_right _ few
      omega
    have quotient : totals.sum / count = (totals.map (· / count)).sum := by
      rw [whole, Nat.mul_add_div positive, Nat.div_eq_of_lt small, Nat.add_zero]
    have extra : (totals.countP fun total => decide (position < total % count)) ≤
        unevenCount count totals := by
      refine List.countP_mono_left fun total _ ahead => ?_
      simp only [decide_eq_true_eq] at ahead ⊢
      omega
    rw [shareOver_eq, quotient]
    omega

-- seven items on one page, and one item on each of two pages
example : (List.range 3).map (shareOver 3 [7]) = [3, 2, 2] := by decide

example : (List.range 2).map (shareOver 2 [1, 1]) = [2, 0] := by decide

end Shares

end Handover
