import Handover.Proofs.Table
import Handover.Share.Distribution
import Mathlib.Algebra.GroupWithZero.Nat
import Mathlib.Data.List.Perm.Subperm

/-!
Contract: what a split gives to whom.

Owns: slices put together again are the list they were cut from; even shares add
up to the total; a split hands out every item once, and only to destinations.
-/

set_option autoImplicit false

namespace Handover

/-! ## Destinations -/

theorem Address.mem_distinct {node : Address} {addresses : List Address} :
    node ∈ Address.distinct addresses ↔ node ∈ addresses := by
  have keys := Table.exists_key_ofList addresses node
  simpa [key, Address.distinct, Table.mem_def] using keys

/-- The destinations of a split are determined by their set. -/
theorem Address.distinct_congr {first second : List Address}
    (same : ∀ node, node ∈ first ↔ node ∈ second) : Address.distinct first = Address.distinct second := by
  have tables : Table.ofList first = Table.ofList second := Table.ext_mem fun node =>
    Address.mem_distinct.trans ((same node).trans Address.mem_distinct.symm)
  exact congrArg Table.rows tables

/-- Destinations in address order are split over as they stand. -/
theorem Address.distinct_of_ordered {nodes : List Address} (ordered : nodes.Pairwise (· < ·)) :
    Address.distinct nodes = nodes := by
  have asTable : Table.ofList nodes = ⟨nodes, ordered⟩ := Table.ext_mem fun _ => Address.mem_distinct
  exact congrArg Table.rows asTable

theorem Address.nodup_of_ordered {nodes : List Address} (ordered : nodes.Pairwise (· < ·)) :
    nodes.Nodup :=
  Table.nodup_rows ⟨nodes, ordered⟩

theorem Address.distinct_eq_nil_iff {addresses : List Address} :
    Address.distinct addresses = [] ↔ addresses = [] := by
  simp only [List.eq_nil_iff_forall_not_mem, Address.mem_distinct]

/-! ## Slices -/

section Slices

variable {ι : Type}

theorem slices_rebuild (sizes : List Nat) (items : List ι) :
    (slices sizes items).1.flatten ++ (slices sizes items).2 = items := by
  induction sizes generalizing items with
  | nil => rfl
  | cons size sizes inductionHypothesis =>
      simp only [slices, List.flatten_cons, List.append_assoc, inductionHypothesis,
        List.take_append_drop]

theorem slices_length (sizes : List Nat) (items : List ι) :
    (slices sizes items).1.length = sizes.length := by
  induction sizes generalizing items with
  | nil => rfl
  | cons size sizes inductionHypothesis => simp [slices, inductionHypothesis]

theorem slices_left (sizes : List Nat) (items : List ι) :
    (slices sizes items).2 = items.drop sizes.sum := by
  induction sizes generalizing items with
  | nil => rfl
  | cons size sizes inductionHypothesis =>
      simp [slices, inductionHypothesis, List.drop_drop]

end Slices

/-! ## Even shares -/

private theorem sum_range_evenShare (base extra : Nat) (count : Nat) :
    ((List.range count).map fun position => if position < extra then base + 1 else base).sum =
      count * base + min count extra := by
  induction count with
  | zero => simp
  | succ count inductionHypothesis =>
      rw [List.range_succ, List.map_append, List.sum_append, inductionHypothesis, Nat.succ_mul]
      simp only [List.map_cons, List.map_nil, List.sum_cons, List.sum_nil]
      split <;> omega

theorem evenShares_map_snd (nodes : List Address) (total : Nat) :
    (evenShares nodes total).map Prod.snd =
      (List.range nodes.length).map (evenShare nodes.length total) := by
  apply List.ext_getElem
  · simp [evenShares]
  · intro position _ _
    simp [evenShares]

/-- Even shares add up to the total. -/
theorem sum_evenShares {nodes : List Address} (some : nodes ≠ []) (total : Nat) :
    ((evenShares nodes total).map Prod.snd).sum = total := by
  have positive : 0 < nodes.length := List.length_pos_of_ne_nil some
  have below : total % nodes.length < nodes.length := Nat.mod_lt _ positive
  have whole := Nat.div_add_mod total nodes.length
  rw [evenShares_map_snd]
  unfold evenShare
  rw [sum_range_evenShare, Nat.min_eq_right (Nat.le_of_lt below)]
  exact whole

/-! ## Both passes -/

section Passes

variable {ι : Type}

private theorem flatMap_snd_zip_zipWith (nodes : List Address) :
    ∀ (weighted even : List (List ι)), weighted.length = nodes.length →
      even.length = nodes.length →
      List.Perm ((nodes.zip (List.zipWith (· ++ ·) weighted even)).flatMap Prod.snd)
        (weighted.flatten ++ even.flatten) := by
  induction nodes with
  | nil =>
      intro weighted even weightedLength evenLength
      rw [List.eq_nil_of_length_eq_zero weightedLength, List.eq_nil_of_length_eq_zero evenLength]
      exact .refl _
  | cons node nodes inductionHypothesis =>
      intro weighted even weightedLength evenLength
      obtain ⟨first, weighted, rfl⟩ := List.exists_cons_of_length_eq_add_one weightedLength
      obtain ⟨second, even, rfl⟩ := List.exists_cons_of_length_eq_add_one evenLength
      have rest := inductionHypothesis weighted even (by simpa using weightedLength)
        (by simpa using evenLength)
      simp only [List.zipWith_cons_cons, List.zip_cons_cons, List.flatMap_cons, List.flatten_cons,
        List.append_assoc]
      apply List.Perm.append_left first
      exact (rest.append_left second).trans (List.perm_append_comm_assoc _ _ _)

/-- Both passes together hand out every item once. -/
theorem twoPasses_perm {nodes : List Address} (some : nodes ≠ []) (share : Address → Nat)
    (items : List ι) : List.Perm ((twoPasses nodes share items).flatMap Prod.snd) items := by
  let left := (slices (nodes.map share) items).2
  let even := (evenShares nodes left.length).map Prod.snd
  have nothingLeft : (slices even left).2 = [] := by
    rw [slices_left, sum_evenShares some, List.drop_length]
  have evenAll : (slices even left).1.flatten = left := by
    simpa [nothingLeft] using slices_rebuild even left
  have joined := flatMap_snd_zip_zipWith nodes (slices (nodes.map share) items).1
    (slices even left).1 (by simp [slices_length]) (by simp [slices_length, even, evenShares])
  rw [evenAll, slices_rebuild] at joined
  exact joined

theorem flatMap_snd_filter (entries : List (Address × List ι)) :
    (entries.filter fun (_, taken) => !taken.isEmpty).flatMap Prod.snd =
      entries.flatMap Prod.snd := by
  induction entries with
  | nil => rfl
  | cons entry entries inductionHypothesis =>
      obtain ⟨node, taken⟩ := entry
      cases taken <;> simp [inductionHypothesis]

/-- With a destination every item is handed out once. -/
theorem distribute_perm {destinations : List Address} (some : destinations ≠ [])
    (items : List ι) (shares : Option Shares) :
    List.Perm ((distribute items shares destinations).assignments.flatMap Prod.snd) items := by
  unfold distribute
  split
  case h_1 none => exact absurd (Address.distinct_eq_nil_iff.1 none) some
  case h_2 nodes cons =>
    rw [flatMap_snd_filter]
    exact twoPasses_perm cons _ items

/-- Whether or not there is a destination, no item is handed out twice. -/
theorem distribute_subperm (items : List ι) (shares : Option Shares)
    (destinations : List Address) :
    List.Subperm ((distribute items shares destinations).assignments.flatMap Prod.snd) items := by
  by_cases none : destinations = []
  · subst none
    exact List.nil_subperm
  · exact (distribute_perm none items shares).subperm

/-- Only destinations are given anything. -/
theorem mem_of_mem_assignments {items : List ι} {shares : Option Shares}
    {destinations : List Address} {entry : Address × List ι}
    (member : entry ∈ (distribute items shares destinations).assignments) :
    entry.1 ∈ destinations := by
  unfold distribute at member
  split at member
  case h_1 => exact absurd member List.not_mem_nil
  case h_2 nodes _ =>
    have inPasses := List.mem_of_mem_filter member
    exact Address.mem_distinct.1 (List.of_mem_zip inPasses).1

end Passes

end Handover
