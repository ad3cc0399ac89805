/-!
Contract: the primary keys of stored rows.

A row id is a 64-bit number. Listings are resumed "after" an id, and the id that
follows the largest one is that largest one itself: the key space is not
exceeded, so a listing resumed after the last id starts at the last id again.
-/

set_option autoImplicit false

namespace Handover

abbrev RowId := Fin UInt64.size

namespace RowId

/-- Numbers beyond the key space wrap around. -/
instance ofNumber (number : Nat) : OfNat RowId number :=
  ⟨number % UInt64.size, Nat.mod_lt _ (Nat.succ_pos _)⟩

def ofNat? (number : Nat) : Option RowId :=
  if small : number < UInt64.size then some ⟨number, small⟩ else none

def last : RowId := ⟨UInt64.size - 1, by decide⟩

theorem le_last (id : RowId) : id ≤ last := Nat.le_sub_one_of_lt id.isLt

/-- The key that follows, or the largest key when there is none. -/
def following (id : RowId) : RowId :=
  if room : id.val + 1 < UInt64.size then ⟨id.val + 1, room⟩ else last

theorem following_last : following last = last := by decide

/-- Below the largest key, the rows from the following key on are those with a
larger key. -/
theorem following_le_iff {after id : RowId} (room : after < last) :
    following after ≤ id ↔ after < id := by
  have bound : after.val < UInt64.size - 1 := Fin.lt_def.1 room
  unfold following
  rw [dif_pos (by omega)]
  exact Fin.le_def.trans Nat.succ_le_iff

/-- A key from the following one on is larger or the largest. -/
theorem lt_or_eq_last_of_following_le {after id : RowId} (reached : following after ≤ id) :
    after < id ∨ after = last := by
  by_cases room : after < last
  · exact .inl ((following_le_iff room).1 reached)
  · refine .inr (Fin.ext ?_)
    have notBelow : ¬ after.val < UInt64.size - 1 := fun below => room (Fin.lt_def.2 below)
    have bound := after.isLt
    show after.val = UInt64.size - 1
    omega

end RowId

end Handover
