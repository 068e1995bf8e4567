import Mathlib

/-!
Relational tables with a primary key and one unique index. A table is the list of its rows in
insertion order; both keys are part of the type, so a table that violates a uniqueness constraint
cannot be built.
-/

namespace Relational

variable {Row κ ι : Type} {key : Row → κ} {index : Row → ι}

@[ext]
structure Table {Row κ ι : Type} (key : Row → κ) (index : Row → ι) where
  rows : List Row
  primary : (rows.map key).Nodup
  unique : (rows.map index).Nodup

namespace Table

/-- A rewrite of a row that an UPDATE may apply: it leaves both keys alone. -/
def Keeps (key : Row → κ) (index : Row → ι) (f : Row → Row) : Prop :=
  ∀ row, key (f row) = key row ∧ index (f row) = index row

def empty : Table key index where
  rows := []
  primary := List.nodup_nil
  unique := List.nodup_nil

/-- `SELECT … WHERE p LIMIT 1`, in primary key order. -/
def select (table : Table key index) (p : Row → Prop) [DecidablePred p] : Option Row :=
  table.rows.find? fun row => decide (p row)

/-- `SELECT … WHERE p`. -/
def selectAll (table : Table key index) (p : Row → Prop) [DecidablePred p] : List Row :=
  table.rows.filter fun row => decide (p row)

/-- The number of rows `WHERE p` matches, which an UPDATE reports back. -/
def affected (table : Table key index) (p : Row → Prop) [DecidablePred p] : Nat :=
  table.rows.countP fun row => decide (p row)

private theorem map_ite_eq {β : Type} (g : Row → β) (p : Row → Prop) [DecidablePred p]
    (f : Row → Row) (same : ∀ row, g (f row) = g row) (rows : List Row) :
    (rows.map fun row => if p row then f row else row).map g = rows.map g := by
  rw [List.map_map]
  refine List.map_congr_left fun row _ => ?_
  by_cases hit : p row <;> simp [hit, same]

/-- `UPDATE … SET f WHERE p`. -/
def update (table : Table key index) (p : Row → Prop) [DecidablePred p] (f : Row → Row)
    (keeps : Keeps key index f) : Table key index where
  rows := table.rows.map fun row => if p row then f row else row
  primary := by
    rw [map_ite_eq key p f (fun row => (keeps row).1)]
    exact table.primary
  unique := by
    rw [map_ite_eq index p f (fun row => (keeps row).2)]
    exact table.unique

/-- `INSERT`: refused when the primary key or the unique index is taken. -/
def insert [DecidableEq κ] [DecidableEq ι] (table : Table key index) (row : Row) :
    Option (Table key index) :=
  if fresh : key row ∉ table.rows.map key ∧ index row ∉ table.rows.map index then
    some
      { rows := table.rows ++ [row]
        primary := by
          rw [List.map_append, List.map_singleton]
          exact List.nodup_append.mpr
            ⟨table.primary, List.nodup_singleton _, by
              intro old member new single same
              rw [List.mem_singleton] at single
              exact fresh.1 (single ▸ same ▸ member)⟩
        unique := by
          rw [List.map_append, List.map_singleton]
          exact List.nodup_append.mpr
            ⟨table.unique, List.nodup_singleton _, by
              intro old member new single same
              rw [List.mem_singleton] at single
              exact fresh.2 (single ▸ same ▸ member)⟩ }
  else none

section Reading

variable {table : Table key index} {p q : Row → Prop} [DecidablePred p] [DecidablePred q]

theorem select_some {row : Row} (found : table.select p = some row) :
    row ∈ table.rows ∧ p row :=
  ⟨List.mem_of_find?_eq_some found, by simpa using List.find?_some found⟩

theorem select_none (missing : table.select p = none) :
    ∀ row ∈ table.rows, ¬p row := by
  intro row member holds
  have := List.find?_eq_none.mp missing row member
  simp [holds] at this

theorem select_eq_none : table.select p = none ↔ ∀ row ∈ table.rows, ¬p row := by
  simp [select]

theorem mem_selectAll {row : Row} :
    row ∈ table.selectAll p ↔ row ∈ table.rows ∧ p row := by
  simp [selectAll]

theorem eq_of_key {left right : Row} (leftMember : left ∈ table.rows)
    (rightMember : right ∈ table.rows) (same : key left = key right) : left = right :=
  List.inj_on_of_nodup_map table.primary leftMember rightMember same

theorem eq_of_index {left right : Row} (leftMember : left ∈ table.rows)
    (rightMember : right ∈ table.rows) (same : index left = index right) : left = right :=
  List.inj_on_of_nodup_map table.unique leftMember rightMember same

theorem select_of_mem {row : Row} (member : row ∈ table.rows) (holds : p row)
    (only : ∀ other ∈ table.rows, p other → other = row) : table.select p = some row := by
  cases found : table.select p with
  | none => exact absurd holds (select_none found row member)
  | some other =>
    obtain ⟨otherMember, otherHolds⟩ := select_some found
    rw [only other otherMember otherHolds]

theorem select_iff_of_unique {row : Row}
    (only : ∀ left ∈ table.rows, ∀ right ∈ table.rows, p left → p right → left = right) :
    table.select p = some row ↔ row ∈ table.rows ∧ p row := by
  constructor
  · exact select_some
  · intro ⟨member, holds⟩
    exact select_of_mem member holds fun other otherMember otherHolds =>
      only other otherMember row member otherHolds holds

theorem affected_ne_zero : table.affected p ≠ 0 ↔ ∃ row ∈ table.rows, p row := by
  rw [affected, ← Nat.pos_iff_ne_zero, List.countP_pos_iff]
  simp

theorem exists_of_affected_one (one : table.affected p = 1) : ∃ row ∈ table.rows, p row :=
  affected_ne_zero.mp (by omega)

theorem affected_zero : table.affected p = 0 ↔ ∀ row ∈ table.rows, ¬p row := by
  rw [affected, List.countP_eq_zero]
  simp

theorem affected_one {row : Row} (member : row ∈ table.rows) (holds : p row)
    (only : ∀ other ∈ table.rows, p other → other = row) : table.affected p = 1 := by
  have nodup : (table.rows.filter fun row => decide (p row)).Nodup :=
    (List.Nodup.of_map key table.primary).filter _
  have all : ∀ other ∈ table.rows.filter (fun row => decide (p row)), other = row := by
    intro other found
    obtain ⟨present, matched⟩ := List.mem_filter.mp found
    exact only other present (of_decide_eq_true matched)
  rw [affected, List.countP_eq_length_filter]
  have found : row ∈ table.rows.filter fun row => decide (p row) :=
    List.mem_filter.mpr ⟨member, decide_eq_true holds⟩
  match table.rows.filter (fun row => decide (p row)), nodup, all, found with
  | [_], _, _, _ => rfl
  | first :: second :: rest, nodup, all, _ =>
    rw [all first (by simp), all second (by simp)] at nodup
    simp at nodup

end Reading

section Writing

variable {table : Table key index} {p q : Row → Prop} [DecidablePred p] [DecidablePred q]
  {f : Row → Row} {keeps : Keeps key index f}

theorem mem_update {row : Row} :
    row ∈ (table.update p f keeps).rows ↔
      ∃ old ∈ table.rows, (if p old then f old else old) = row := by
  simp [update]

theorem select_update (stable : ∀ row, q (f row) ↔ q row) :
    (table.update p f keeps).select q =
      (table.select q).map fun row => if p row then f row else row := by
  simp only [select, update, List.find?_map]
  congr 2
  funext row
  by_cases hit : p row <;> simp [hit, stable]

theorem selectAll_update (stable : ∀ row, q (f row) ↔ q row) :
    (table.update p f keeps).selectAll q =
      (table.selectAll q).map fun row => if p row then f row else row := by
  simp only [selectAll, update, List.filter_map]
  congr 2
  funext row
  by_cases hit : p row <;> simp [hit, stable]

theorem update_eq_self (missed : ∀ row ∈ table.rows, ¬p row) :
    table.update p f keeps = table := by
  ext1
  refine (List.map_congr_left fun row member => ?_).trans (List.map_id _)
  simp [missed row member]

variable [DecidableEq κ] [DecidableEq ι] {row : Row} {after : Table key index}

theorem insert_some (inserted : table.insert row = some after) :
    after.rows = table.rows ++ [row] ∧
      key row ∉ table.rows.map key ∧ index row ∉ table.rows.map index := by
  unfold insert at inserted
  split at inserted
  · next fresh =>
      cases inserted
      exact ⟨rfl, fresh⟩
  · cases inserted

theorem select_insert (inserted : table.insert row = some after) :
    after.select q = (table.select q).or (if q row then some row else none) := by
  rw [select, (insert_some inserted).1, List.find?_append, ← select]
  by_cases hit : q row <;> simp [hit]

theorem selectAll_insert (inserted : table.insert row = some after) :
    after.selectAll q = table.selectAll q ++ (if q row then [row] else []) := by
  rw [selectAll, (insert_some inserted).1, List.filter_append, ← selectAll]
  by_cases hit : q row <;> simp [hit]

end Writing

end Table

end Relational
