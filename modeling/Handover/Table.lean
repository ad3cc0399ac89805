/-!
Contract: rows kept in strictly increasing order of a key.

Owns: the `Table` type, whose order is a proof field; insertion, look-up,
removal, filtering and key-preserving updates; the law that says what each of
them does to membership.

Every listing that the library answers "in address order" or "ascending by row
id" is the row list of such a table, so its order never has to be argued again.
-/

set_option autoImplicit false

namespace Handover

/-- A value that is filed under a key. -/
class Keyed (α : Type) (κ : outParam Type) where
  key : α → κ

export Keyed (key)

instance keyedPair {κ ν : Type} : Keyed (κ × ν) κ := ⟨Prod.fst⟩

instance keyedText : Keyed String String := ⟨id⟩

/-- Rows in strictly increasing order of their keys, so at most one a key. -/
structure Table (α : Type) {κ : Type} [Keyed α κ] [LT κ] where
  rows : List α
  ordered : rows.Pairwise fun left right => key left < key right

namespace Table

variable {α κ : Type} [Keyed α κ] [LT κ]

theorem ext_rows {left right : Table α} (same : left.rows = right.rows) : left = right := by
  cases left
  cases right
  cases same
  rfl

instance [DecidableEq α] : DecidableEq (Table α) := fun left right =>
  decidable_of_iff (left.rows = right.rows) ⟨ext_rows, fun same => same ▸ rfl⟩

instance : Membership α (Table α) := ⟨fun table row => row ∈ table.rows⟩

theorem mem_def {table : Table α} {row : α} : row ∈ table ↔ row ∈ table.rows := Iff.rfl

def empty : Table α := ⟨[], .nil⟩

instance : EmptyCollection (Table α) := ⟨empty⟩

instance : Inhabited (Table α) := ⟨empty⟩

def isEmpty (table : Table α) : Bool := table.rows.isEmpty

def size (table : Table α) : Nat := table.rows.length

@[simp] theorem rows_empty : (∅ : Table α).rows = [] := rfl

def find? [DecidableEq κ] (table : Table α) (wanted : κ) : Option α :=
  table.rows.find? fun row => key row == wanted

def filter (keep : α → Bool) (table : Table α) : Table α :=
  ⟨table.rows.filter keep, table.ordered.filter keep⟩

@[simp] theorem rows_filter (keep : α → Bool) (table : Table α) :
    (table.filter keep).rows = table.rows.filter keep := rfl

def erase [DecidableEq κ] (table : Table α) (unwanted : κ) : Table α :=
  table.filter fun row => key row != unwanted

/-- Every row changed in place; no change moves a row to another key. -/
def update (change : α → α) (keeps : ∀ row, key (change row) = key row)
    (table : Table α) : Table α :=
  ⟨table.rows.map change, by
    rw [List.pairwise_map]
    simpa only [keeps] using table.ordered⟩

@[simp] theorem rows_update (change : α → α) (keeps : ∀ row, key (change row) = key row)
    (table : Table α) : (table.update change keeps).rows = table.rows.map change := rfl

/-! ## Insertion -/

section Insert

variable [DecidableLT κ]

/-- Puts `row` at its place; a row with the same key makes way for it. -/
def insertRow (row : α) : List α → List α
  | [] => [row]
  | head :: tail =>
      if key row < key head then row :: head :: tail
      else if key head < key row then head :: insertRow row tail
      else row :: tail

theorem eq_or_mem_of_mem_insertRow {row other : α} :
    ∀ {rows : List α}, other ∈ insertRow row rows → other = row ∨ other ∈ rows
  | [], member => by simpa [insertRow] using member
  | head :: tail, member => by
      unfold insertRow at member
      split at member
      · simpa using member
      · split at member
        · rcases List.mem_cons.1 member with same | inside
          · exact .inr (same ▸ List.mem_cons_self)
          · rcases eq_or_mem_of_mem_insertRow inside with same | inTail
            · exact .inl same
            · exact .inr (List.mem_cons_of_mem _ inTail)
        · rcases List.mem_cons.1 member with same | inTail
          · exact .inl same
          · exact .inr (List.mem_cons_of_mem _ inTail)

theorem self_mem_insertRow (row : α) : ∀ rows : List α, row ∈ insertRow row rows
  | [] => by simp [insertRow]
  | head :: tail => by
      unfold insertRow
      split
      · simp
      · split
        · exact List.mem_cons_of_mem _ (self_mem_insertRow row tail)
        · simp

variable [LE κ] [Std.IsLinearOrder κ] [Std.LawfulOrderLT κ]

theorem ordered_insertRow (row : α) :
    ∀ {rows : List α}, rows.Pairwise (fun left right => key left < key right) →
      (insertRow row rows).Pairwise fun left right => key left < key right
  | [], _ => by simp [insertRow]
  | head :: tail, ordered => by
      obtain ⟨below, rest⟩ := List.pairwise_cons.1 ordered
      unfold insertRow
      split
      case isTrue before =>
        refine List.pairwise_cons.2 ⟨fun other member => ?_, ordered⟩
        rcases List.mem_cons.1 member with same | inTail
        · exact same ▸ before
        · have := below other inTail
          grind
      case isFalse notBefore =>
        split
        case isTrue after =>
          refine List.pairwise_cons.2 ⟨fun other member => ?_, ordered_insertRow row rest⟩
          rcases eq_or_mem_of_mem_insertRow member with same | inTail
          · exact same ▸ after
          · exact below other inTail
        case isFalse notAfter =>
          have same : key row = key head := by grind
          exact List.pairwise_cons.2 ⟨fun other member => same ▸ below other member, rest⟩

/-- Files `row`, replacing the row with its key if there is one. -/
def insert (row : α) (table : Table α) : Table α :=
  ⟨insertRow row table.rows, ordered_insertRow row table.ordered⟩

@[simp] theorem rows_insert (row : α) (table : Table α) :
    (table.insert row).rows = insertRow row table.rows := rfl

/-- Files the rows one after the other, so of two with one key the later stays. -/
def ofList (rows : List α) : Table α :=
  rows.foldl (fun table row => table.insert row) ∅

end Insert

end Table

end Handover
