import Handover.Liveness
import Handover.Proofs.Table

/-!
Contract: who is alive after a record is written.

Owns: the liveness of a node after a write on it or on another, and that a write
which leaves a node dead does not change who else is alive.
-/

set_option autoImplicit false

namespace Handover.Membership

variable {members : Membership} {node other : Address} {record : Liveness}

theorem liveness_set (members : Membership) (node : Address) (record : Liveness) (other : Address) :
    (members.set node record).liveness other =
      if node = other then record else members.liveness other := by
  simp only [liveness, record?, set, Table.find?_insert, key]
  split <;> rfl

theorem record?_set : (members.set node record).record? other =
    if node = other then some record else members.record? other := by
  simp only [record?, set, Table.find?_insert, key]
  split <;> rfl

theorem record?_set_self : (members.set node record).record? node = some record := by
  simp [record?, set, Table.find?_insert, key]

theorem record?_eq_some_iff : members.record? node = some record ↔ (node, record) ∈ members.rows := by
  simp only [record?, Option.map_eq_some_iff, Table.find?_eq_some_iff]
  constructor
  · rintro ⟨⟨_, _⟩, ⟨member, rfl⟩, rfl⟩
    exact member
  · exact fun member => ⟨(node, record), ⟨member, rfl⟩, rfl⟩

/-- To write the record that a node has changes nothing. -/
theorem set_of_record? (there : members.record? node = some record) : members.set node record = members :=
  Table.insert_of_mem (record?_eq_some_iff.1 there)

theorem version_of_record? (there : members.record? node = some record) :
    members.version node = record.version := by
  rw [version, liveness, there, Option.getD_some]

theorem isAlive_of_record? (there : members.record? node = some record) :
    members.isAlive node = record.alive := by
  rw [isAlive, liveness, there, Option.getD_some]

theorem record?_swap_ne (apart : node ≠ other) (expected : Nat) :
    (members.swap node expected record).1.record? other = members.record? other := by
  unfold swap
  split
  · rw [record?_set, if_neg apart]
  · rfl

theorem isAlive_set : (members.set node record).isAlive other =
    if node = other then record.alive else members.isAlive other := by
  rw [isAlive, liveness_set]
  split <;> rfl

theorem isAlive_set_self : (members.set node record).isAlive node = record.alive := by
  rw [isAlive_set, if_pos rfl]

theorem mem_aliveNodes : node ∈ members.aliveNodes ↔ members.isAlive node = true := by
  have listed : node ∈ members.aliveNodes ↔ ∃ record : Liveness, (node, record) ∈ members ∧
      record.alive = true := by
    simp only [aliveNodes, List.mem_map, List.mem_filter]
    constructor
    · rintro ⟨⟨_, record⟩, ⟨member, alive⟩, rfl⟩
      exact ⟨record, member, alive⟩
    · rintro ⟨record, member, alive⟩
      exact ⟨(node, record), ⟨member, alive⟩, rfl⟩
  rw [listed]
  simp only [isAlive, liveness, record?]
  cases found : members.find? node with
  | none =>
      have absent := Table.find?_eq_none_iff.1 found
      constructor
      · rintro ⟨record, member, _⟩
        exact absurd rfl (absent _ member)
      · intro impossible
        cases impossible
  | some row =>
      obtain ⟨rowNode, rowRecord⟩ := row
      obtain ⟨member, same⟩ := Table.find?_eq_some_iff.1 found
      have sameNode : rowNode = node := same
      subst sameNode
      constructor
      · rintro ⟨record, inside, alive⟩
        have := Table.eq_of_key_eq inside member rfl
        cases this
        exact alive
      · exact fun alive => ⟨rowRecord, member, alive⟩

/-- The alive nodes apart from one. -/
def others (members : Membership) (node : Address) : List Address :=
  members.aliveNodes.filter fun other => other != node

theorem mem_others : other ∈ members.others node ↔ members.isAlive other = true ∧ other ≠ node := by
  simp [others, mem_aliveNodes]

private theorem others_insertRow (dead : record.alive = false) (rows : List (Address × Liveness)) :
    (((Table.insertRow (node, record) rows).filter fun member => member.2.alive).map Prod.fst).filter
        (fun other => other != node) =
      ((rows.filter fun member => member.2.alive).map Prod.fst).filter fun other => other != node := by
  induction rows with
  | nil => simp [Table.insertRow, dead]
  | cons head tail inductionHypothesis =>
      unfold Table.insertRow
      split
      · simp [dead]
      · split
        case isTrue =>
          cases alive : head.2.alive <;>
            simp only [alive, List.filter_cons, Bool.false_eq_true, if_true, if_false,
              List.map_cons, inductionHypothesis]
        case isFalse notBefore notAfter =>
          have same : head.1 = node :=
            Std.le_antisymm (Std.not_lt.1 notBefore) (Std.not_lt.1 notAfter)
          cases alive : head.2.alive <;> simp [alive, dead, same]

/-- To write that a node is dead changes nothing for the others. -/
theorem others_set_of_dead (dead : record.alive = false) :
    (members.set node record).others node = members.others node :=
  others_insertRow dead members.rows

end Handover.Membership
