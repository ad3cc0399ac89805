import Handover.Address
import Handover.RowId
import Mathlib.Data.List.Nodup

/-!
Contract: what a table holds after each of its operations.

Owns: at most one row a key, and that the rows determine the table; membership and look-up
after an insertion; the keys and the rows of a table built from a list.

Every law is stated about membership or look-up. No proof outside this module
opens an insertion.
-/

set_option autoImplicit false

namespace Handover.Table

section Keys

variable {α κ : Type} [Keyed α κ] [LT κ]

/-- No two rows of a table have the same key. -/
theorem nodup_keys [Std.Irrefl (α := κ) (· < ·)] (table : Table α) :
    (table.rows.map key).Nodup := by
  rw [List.Nodup, List.pairwise_map]
  apply table.ordered.imp
  intro left right before equal
  rw [equal] at before
  exact Std.Irrefl.irrefl _ before

/-- No row of a table is listed twice. -/
theorem nodup_rows [Std.Irrefl (α := κ) (· < ·)] (table : Table α) : table.rows.Nodup :=
  table.nodup_keys.of_map

/-- A key stands for one row. -/
theorem eq_of_key_eq [Std.Irrefl (α := κ) (· < ·)] {table : Table α} {left right : α}
    (leftIn : left ∈ table) (rightIn : right ∈ table) (same : key left = key right) :
    left = right :=
  List.inj_on_of_nodup_map table.nodup_keys leftIn rightIn same

/-- A table is determined by which rows it holds. -/
theorem ext_mem [Std.Asymm (α := κ) (· < ·)] {left right : Table α}
    (same : ∀ row, row ∈ left ↔ row ∈ right) : left = right := by
  have permuted : left.rows.Perm right.rows :=
    (List.perm_ext_iff_of_nodup left.nodup_rows right.nodup_rows).2 same
  refine ext_rows (permuted.eq_of_pairwise ?_ left.ordered right.ordered)
  intro first second _ _ before after
  exact absurd after (Std.Asymm.asymm _ _ before)

theorem find?_eq_some_iff [DecidableEq κ] [Std.Irrefl (α := κ) (· < ·)] {table : Table α}
    {wanted : κ} {row : α} :
    table.find? wanted = some row ↔ row ∈ table ∧ key row = wanted := by
  constructor
  · intro found
    exact ⟨List.mem_of_find?_eq_some found, by simpa using List.find?_some found⟩
  · rintro ⟨member, rfl⟩
    cases found : table.find? (key row) with
    | none =>
        have absent := List.find?_eq_none.1 found row member
        simp at absent
    | some other =>
        have otherIn : other ∈ table := List.mem_of_find?_eq_some found
        have otherKey : key other = key row := by simpa using List.find?_some found
        rw [eq_of_key_eq otherIn member otherKey]

theorem find?_eq_none_iff [DecidableEq κ] {table : Table α} {wanted : κ} :
    table.find? wanted = none ↔ ∀ row ∈ table, key row ≠ wanted := by
  simp [find?, mem_def]

theorem find?_update [DecidableEq κ] (change : α → α) (keeps : ∀ row, key (change row) = key row)
    (table : Table α) (wanted : κ) :
    (table.update change keeps).find? wanted = (table.find? wanted).map change := by
  simp only [find?, rows_update, List.find?_map, Function.comp_def, keeps]

theorem find?_erase [DecidableEq κ] [Std.Irrefl (α := κ) (· < ·)] (table : Table α)
    (unwanted wanted : κ) :
    (table.erase unwanted).find? wanted = if unwanted = wanted then none else table.find? wanted := by
  simp only [find?, erase, rows_filter, List.find?_filter]
  split
  case isTrue same => simp [same]
  case isFalse apart =>
    refine congrArg (List.find? · table.rows) (funext fun row => ?_)
    by_cases here : key row = wanted <;> simp [here, Ne.symm apart]

@[simp] theorem mem_filter {keep : α → Bool} {table : Table α} {row : α} :
    row ∈ table.filter keep ↔ row ∈ table ∧ keep row = true := by
  simp [mem_def]

end Keys

section Insertion

variable {α κ : Type} [Keyed α κ] [LT κ] [DecidableLT κ] [LE κ] [Std.IsLinearOrder κ]
  [Std.LawfulOrderLT κ]

private theorem mem_insertRow_of_mem {row other : α} :
    ∀ {rows : List α}, other ∈ rows → key other ≠ key row → other ∈ insertRow row rows
  | [], member, _ => absurd member List.not_mem_nil
  | head :: tail, member, apart => by
      unfold insertRow
      split
      · exact List.mem_cons_of_mem _ member
      · split
        case isTrue after =>
          rcases List.mem_cons.1 member with same | inTail
          · exact same ▸ List.mem_cons_self
          · exact List.mem_cons_of_mem _ (mem_insertRow_of_mem inTail apart)
        case isFalse notBefore notAfter =>
          have sameKey : key row = key head := by grind
          rcases List.mem_cons.1 member with same | inTail
          · exact absurd (same ▸ sameKey.symm) apart
          · exact List.mem_cons_of_mem _ inTail

theorem mem_insert_iff {row other : α} {table : Table α} :
    other ∈ table.insert row ↔ other = row ∨ (other ∈ table ∧ key other ≠ key row) := by
  constructor
  · intro member
    by_cases sameKey : key other = key row
    · exact .inl (eq_of_key_eq member (self_mem_insertRow row table.rows) sameKey)
    · rcases eq_or_mem_of_mem_insertRow member with same | inside
      · exact .inl same
      · exact .inr ⟨inside, sameKey⟩
  · rintro (rfl | ⟨inside, apart⟩)
    · exact self_mem_insertRow other table.rows
    · exact mem_insertRow_of_mem inside apart

theorem find?_insert [DecidableEq κ] (row : α) (table : Table α) (wanted : κ) :
    (table.insert row).find? wanted = if key row = wanted then some row else table.find? wanted := by
  split
  case isTrue same => exact find?_eq_some_iff.2 ⟨mem_insert_iff.2 (.inl rfl), same⟩
  case isFalse apart =>
    cases found : table.find? wanted with
    | none =>
        rw [find?_eq_none_iff] at found ⊢
        intro other member
        rcases mem_insert_iff.1 member with rfl | ⟨inside, _⟩
        · exact apart
        · exact found other inside
    | some other =>
        obtain ⟨inside, otherKey⟩ := find?_eq_some_iff.1 found
        refine find?_eq_some_iff.2 ⟨mem_insert_iff.2 (.inr ⟨inside, ?_⟩), otherKey⟩
        exact fun same => apart (same ▸ otherKey)

private theorem insertRow_of_mem {row : α} :
    ∀ {rows : List α}, rows.Pairwise (fun left right => key left < key right) → row ∈ rows →
      insertRow row rows = rows
  | [], _, member => absurd member List.not_mem_nil
  | head :: tail, ordered, member => by
      obtain ⟨below, rest⟩ := List.pairwise_cons.1 ordered
      unfold insertRow
      rcases List.mem_cons.1 member with rfl | inTail
      · rw [if_neg (by grind), if_neg (by grind)]
      · have after := below row inTail
        rw [if_neg (by grind), if_pos after, insertRow_of_mem rest inTail]

/-- To file a row that is there changes nothing. -/
theorem insert_of_mem {row : α} {table : Table α} (member : row ∈ table) : table.insert row = table :=
  ext_rows (insertRow_of_mem table.ordered member)

/-- A table built from a list holds the keys of the list. -/
theorem exists_key_ofList (rows : List α) (wanted : κ) :
    (∃ row ∈ (ofList rows), key row = wanted) ↔ ∃ row ∈ rows, key row = wanted := by
  have folded : ∀ (table : Table α),
      (∃ row ∈ rows.foldl (fun table row => table.insert row) table, key row = wanted) ↔
        (∃ row ∈ table, key row = wanted) ∨ ∃ row ∈ rows, key row = wanted := by
    induction rows with
    | nil => simp
    | cons head tail inductionHypothesis =>
        intro table
        rw [List.foldl_cons, inductionHypothesis]
        simp only [mem_insert_iff, List.mem_cons]
        grind
  have start := folded ∅
  simpa [ofList, mem_def] using start

/-- A table built from rows with distinct keys holds just these rows, whatever their order. -/
theorem mem_ofList {rows : List α} (distinct : (rows.map key).Nodup) {row : α} :
    row ∈ ofList rows ↔ row ∈ rows := by
  have folded : ∀ (table : Table α), (∀ other ∈ table, key other ∉ rows.map key) →
      (row ∈ rows.foldl (fun table row => table.insert row) table ↔ row ∈ table ∨ row ∈ rows) := by
    induction rows with
    | nil => simp
    | cons head tail inductionHypothesis =>
        obtain ⟨apart, tailDistinct⟩ := List.nodup_cons.1 distinct
        intro table fresh
        have freshThen : ∀ other ∈ table.insert head, key other ∉ tail.map key := by
          intro other member
          rcases mem_insert_iff.1 member with rfl | ⟨inside, _⟩
          · exact apart
          · exact fun named => fresh other inside (List.mem_cons_of_mem _ named)
        have unfiled : row ∈ table → key row ≠ key head := fun inside same =>
          fresh row inside (same ▸ List.mem_cons_self)
        rw [List.foldl_cons, inductionHypothesis tailDistinct _ freshThen, mem_insert_iff, List.mem_cons]
        tauto
  have start := folded ∅ fun other member => absurd member List.not_mem_nil
  simpa [ofList, mem_def] using start

end Insertion

end Handover.Table
