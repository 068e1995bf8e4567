import Mathlib
import RepoLens.Lib.Transaction

/-!
What transactions can do to a store, as relations between the store before and after.
-/

namespace Relational

open Relation

namespace Transaction

variable {σ ε α β : Type} {R : σ → σ → Prop}

/-- Every commit of the transaction is related by `R`. -/
def Ensures (R : σ → σ → Prop) (x : Transaction σ ε α) : Prop :=
  ∀ s a s', x s = .ok (a, s') → R s s'

variable {f : α → Transaction σ ε β}

namespace Ensures
variable {x : Transaction σ ε α}

theorem fail (e : ε) : Ensures R (Transaction.fail e : Transaction σ ε α) := by
  intro s a s' ran
  simp at ran

theorem ite {c : Prop} [Decidable c] {y : Transaction σ ε α} (yes : c → Ensures R x)
    (no : ¬c → Ensures R y) : Ensures R (if c then x else y) := by
  by_cases holds : c
  · simpa [holds] using yes holds
  · simpa [holds] using no holds

section Reflexive

variable [Std.Refl R]

theorem pure (a : α) : Ensures R (Pure.pure a : Transaction σ ε α) := by
  intro s a s' ran
  obtain ⟨-, rfl⟩ := pure_ok.mp ran
  exact refl s'

theorem require (c : Prop) [Decidable c] (e : ε) :
    Ensures R (Transaction.require c e : Transaction σ ε Unit) := by
  intro s a s' ran
  obtain ⟨-, rfl⟩ := require_ok.mp ran
  exact refl s'

theorem expect (found : Option α) (e : ε) :
    Ensures R (Transaction.expect found e : Transaction σ ε α) := by
  intro s a s' ran
  obtain ⟨-, rfl⟩ := expect_ok.mp ran
  exact refl s'

end Reflexive

theorem bind [IsTrans σ R] (first : Ensures R x) (rest : ∀ a, Ensures R (f a)) :
    Ensures R (x >>= f) := by
  intro s b s' ran
  obtain ⟨a, s₁, ranFirst, ranRest⟩ := bind_ok.mp ran
  exact IsTrans.trans _ _ _ (first s a s₁ ranFirst) (rest a s₁ b s' ranRest)

theorem expect_bind {found : Option α} {e : ε} (rest : ∀ a, found = some a → Ensures R (f a)) :
    Ensures R (Transaction.expect found e >>= f) := by
  intro s b s' ran
  obtain ⟨a, s₁, present, ranRest⟩ := bind_ok.mp ran
  obtain ⟨holds, rfl⟩ := expect_ok.mp present
  exact rest a holds _ b s' ranRest

end Ensures

/-- Every commit of the transaction leaves a store with `P`. -/
def Establishes (P : σ → Prop) (x : Transaction σ ε α) : Prop :=
  ∀ s a s', x s = .ok (a, s') → P s'

theorem Establishes.bind {P : σ → Prop} (rest : ∀ a, Establishes P (f a)) :
    Establishes P (x >>= f) := by
  intro s b s' ran
  obtain ⟨a, s₁, -, ranRest⟩ := bind_ok.mp ran
  exact rest a s₁ b s' ranRest

/-- Every failure of the transaction is an error with `Q`. -/
def Fails (Q : ε → Prop) (x : Transaction σ ε α) : Prop :=
  ∀ s e, x s = .error e → Q e

namespace Fails

variable {Q : ε → Prop}

theorem pure (a : α) : Fails Q (Pure.pure a : Transaction σ ε α) :=
  fun _ _ failed => nomatch failed

theorem fail {e : ε} (holds : Q e) : Fails Q (Transaction.fail e : Transaction σ ε α) :=
  fun _ _ failed => Except.error.inj failed ▸ holds

theorem bind (first : Fails Q x) (rest : ∀ a, Fails Q (f a)) :
    Fails Q (x >>= f) := by
  intro s e failed
  rcases bind_failed.mp failed with refused | ⟨a, s₁, -, refused⟩
  · exact first s e refused
  · exact rest a s₁ e refused

theorem ite {c : Prop} [Decidable c] {y : Transaction σ ε α} (yes : Fails Q x) (no : Fails Q y) :
    Fails Q (if c then x else y) := by
  by_cases holds : c
  · simpa [holds] using yes
  · simpa [holds] using no

theorem require {c : Prop} [Decidable c] {e : ε} (holds : Q e) :
    Fails Q (Transaction.require c e : Transaction σ ε Unit) :=
  .ite (.pure ()) (.fail holds)

theorem expect {found : Option α} {e : ε} (holds : Q e) :
    Fails Q (Transaction.expect found e : Transaction σ ε α) := by
  cases found with
  | none => exact .fail holds
  | some a => exact .pure a

end Fails

end Transaction

namespace Place

open Transaction

variable {σ ε Row κ ι : Type} {key : Row → κ} {index : Row → ι} {place : Place σ key index}
  {R : σ → σ → Prop} {p : Row → Prop} [DecidablePred p]

theorem select_ensures [Std.Refl R] :
    Ensures R (place.select p : Transaction σ ε (Option Row)) := by
  intro s a s' ran
  obtain ⟨-, rfl⟩ := (place.select_ok).mp ran
  exact refl s'

theorem selectAll_ensures [Std.Refl R] :
    Ensures R (place.selectAll p : Transaction σ ε (List Row)) := by
  intro s a s' ran
  obtain ⟨-, rfl⟩ := (place.selectAll_ok).mp ran
  exact refl s'

theorem update_ensures {f : Row → Row} {keeps : Table.Keeps key index f}
    (related : ∀ s, R s (place.set ((place.get s).update p f keeps) s)) :
    Ensures R (place.update p f keeps : Transaction σ ε Nat) := by
  intro s a s' ran
  obtain ⟨-, rfl⟩ := (place.update_ok).mp ran
  exact related s

theorem insert_ensures [DecidableEq κ] [DecidableEq ι] {row : Row} {duplicate : ε}
    (related : ∀ s table, (place.get s).insert row = some table → R s (place.set table s)) :
    Ensures R (place.insert row duplicate : Transaction σ ε Unit) := by
  intro s a s' ran
  obtain ⟨table, inserted, rfl⟩ := (place.insert_ok).mp ran
  exact related s table inserted

variable {Q : ε → Prop}

theorem select_fails :
    Fails Q (place.select p : Transaction σ ε (Option Row)) :=
  fun _ _ failed => nomatch failed

theorem selectAll_fails :
    Fails Q (place.selectAll p : Transaction σ ε (List Row)) :=
  fun _ _ failed => nomatch failed

theorem update_fails {f : Row → Row} {keeps : Table.Keeps key index f} :
    Fails Q (place.update p f keeps : Transaction σ ε Nat) :=
  fun _ _ failed => nomatch failed

theorem insert_fails [DecidableEq κ] [DecidableEq ι] {row : Row} {duplicate : ε}
    (holds : Q duplicate) : Fails Q (place.insert row duplicate : Transaction σ ε Unit) := by
  intro s e failed
  unfold insert at failed
  split at failed
  · cases failed
  · cases failed
    exact holds

end Place

namespace Table

variable {Row κ ι : Type} {key : Row → κ} {index : Row → ι} {step : Row → Row → Prop}
  {new : Row → Prop}

def Evolves (step : Row → Row → Prop) (new : Row → Prop) (before after : Table key index) :
    Prop :=
  (∀ row ∈ before.rows, ∃ row' ∈ after.rows, ReflTransGen step row row') ∧
    ∀ row' ∈ after.rows, ∃ row, (row ∈ before.rows ∨ new row) ∧ ReflTransGen step row row'

namespace Evolves

theorem refl (table : Table key index) : Evolves step new table table :=
  ⟨fun row member => ⟨row, member, .refl⟩, fun row member => ⟨row, .inl member, .refl⟩⟩

theorem trans {first second third : Table key index} (before : Evolves step new first second)
    (after : Evolves step new second third) : Evolves step new first third := by
  constructor
  · intro row member
    obtain ⟨row₁, member₁, steps₁⟩ := before.1 row member
    obtain ⟨row₂, member₂, steps₂⟩ := after.1 row₁ member₁
    exact ⟨row₂, member₂, steps₁.trans steps₂⟩
  · intro row₂ member₂
    obtain ⟨row₁, origin, steps₂⟩ := after.2 row₂ member₂
    rcases origin with member₁ | fresh
    · obtain ⟨row, origin, steps₁⟩ := before.2 row₁ member₁
      exact ⟨row, origin, steps₁.trans steps₂⟩
    · exact ⟨row₁, .inr fresh, steps₂⟩

theorem update {table : Table key index} {p : Row → Prop} [DecidablePred p] {f : Row → Row}
    (keeps : Keeps key index f) (stepped : ∀ row ∈ table.rows, p row → step row (f row)) :
    Evolves step new table (table.update p f keeps) := by
  have rewritten : ∀ row ∈ table.rows,
      ReflTransGen step row (if p row then f row else row) := by
    intro row member
    by_cases hit : p row
    · simpa [hit] using ReflTransGen.single (stepped row member hit)
    · simpa [hit] using ReflTransGen.refl
  constructor
  · intro row member
    exact ⟨_, mem_update.mpr ⟨row, member, rfl⟩, rewritten row member⟩
  · intro row' member'
    obtain ⟨row, member, rfl⟩ := mem_update.mp member'
    exact ⟨row, .inl member, rewritten row member⟩

theorem insert [DecidableEq κ] [DecidableEq ι] {table after : Table key index} {row : Row}
    (inserted : table.insert row = some after) (fresh : new row) :
    Evolves step new table after := by
  have rows := (insert_some inserted).1
  constructor
  · intro old member
    exact ⟨old, by simp [rows, member], .refl⟩
  · intro row' member'
    rw [rows, List.mem_append, List.mem_singleton] at member'
    rcases member' with member | rfl
    · exact ⟨row', .inl member, .refl⟩
    · exact ⟨row', .inr fresh, .refl⟩

end Evolves

end Table

end Relational
