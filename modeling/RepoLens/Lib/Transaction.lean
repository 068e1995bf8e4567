import RepoLens.Lib.Table

/-!
Atomic transactions over a store. A transaction reads and rewrites the store and either commits
with a result or fails, in which case nothing it wrote remains.
-/

namespace Relational

/-- A transaction on the store `σ` that may fail with an `ε`. -/
def Transaction (σ ε α : Type) : Type := σ → Except ε (α × σ)

namespace Transaction

variable {σ ε α β : Type}

instance : Monad (Transaction σ ε) where
  pure a := fun s => .ok (a, s)
  bind x f := fun s =>
    match x s with
    | .ok (a, s₁) => f a s₁
    | .error e => .error e

def fail (e : ε) : Transaction σ ε α := fun _ => .error e

def require (c : Prop) [Decidable c] (e : ε) : Transaction σ ε Unit :=
  if c then pure () else fail e

def expect (found : Option α) (e : ε) : Transaction σ ε α :=
  match found with
  | some a => pure a
  | none => fail e

section Inversion

variable {s s' : σ} {a a' : α} {b : β} {e : ε}

@[simp]
theorem pure_ok : (pure a : Transaction σ ε α) s = .ok (a', s') ↔ a' = a ∧ s' = s := by
  change Except.ok (a, s) = Except.ok (a', s') ↔ _
  simp [eq_comm]

@[simp]
theorem fail_ok : (fail e : Transaction σ ε α) s = .ok (a, s') ↔ False := by
  simp [fail]

variable {x : Transaction σ ε α} {f : α → Transaction σ ε β} {found : Option α}

@[simp]
theorem bind_ok :
    (x >>= f) s = .ok (b, s') ↔ ∃ a s₁, x s = .ok (a, s₁) ∧ f a s₁ = .ok (b, s') := by
  change (match x s with | .ok (a, s₁) => f a s₁ | .error e => .error e) = _ ↔ _
  cases ran : x s with
  | ok result =>
    obtain ⟨a, s₁⟩ := result
    simp
  | error e => simp

theorem bind_error (failed : x s = .error e) : (x >>= f) s = .error e := by
  change (match x s with | .ok (a, s₁) => f a s₁ | .error e => .error e) = _
  rw [failed]

@[simp]
theorem require_ok {c : Prop} [Decidable c] {u : Unit} :
    (require c e : Transaction σ ε Unit) s = .ok (u, s') ↔ c ∧ s' = s := by
  by_cases holds : c <;> simp [require, holds]

@[simp]
theorem expect_ok :
    (expect found e : Transaction σ ε α) s = .ok (a, s') ↔ found = some a ∧ s' = s := by
  cases found with
  | none => simp [expect]
  | some value => simp only [expect, pure_ok, Option.some.injEq, eq_comm (a := value)]

@[simp]
theorem ite_ok {c : Prop} [Decidable c] {y : Transaction σ ε α} :
    (if c then x else y) s = .ok (a, s') ↔
      (c ∧ x s = .ok (a, s')) ∨ (¬c ∧ y s = .ok (a, s')) := by
  by_cases holds : c <;> simp [holds]

theorem require_bind_ok {c : Prop} [Decidable c] {rest : Unit → Transaction σ ε β} :
    (require c e >>= rest) s = .ok (b, s') ↔ c ∧ rest () s = .ok (b, s') := by
  constructor
  · intro ran
    obtain ⟨u, s₁, checked, continued⟩ := bind_ok.mp ran
    obtain ⟨holds, rfl⟩ := require_ok.mp checked
    exact ⟨holds, continued⟩
  · rintro ⟨holds, ran⟩
    exact bind_ok.mpr ⟨(), s, require_ok.mpr ⟨holds, rfl⟩, ran⟩

theorem expect_bind_ok {rest : α → Transaction σ ε β} :
    (expect found e >>= rest) s = .ok (b, s') ↔ ∃ a, found = some a ∧ rest a s = .ok (b, s') := by
  constructor
  · intro ran
    obtain ⟨a, s₁, expected, continued⟩ := bind_ok.mp ran
    obtain ⟨present, rfl⟩ := expect_ok.mp expected
    exact ⟨a, present, continued⟩
  · rintro ⟨a, present, ran⟩
    exact bind_ok.mpr ⟨a, s, expect_ok.mpr ⟨present, rfl⟩, ran⟩

theorem bind_failed :
    (x >>= f) s = .error e ↔
      x s = .error e ∨ ∃ a s₁, x s = .ok (a, s₁) ∧ f a s₁ = .error e := by
  change (match x s with | .ok (a, s₁) => f a s₁ | .error e => .error e) = _ ↔ _
  cases ran : x s with
  | ok result =>
    obtain ⟨a, s₁⟩ := result
    simp
  | error e => simp

theorem require_failed {c : Prop} [Decidable c] {refusal : ε} :
    (require c refusal : Transaction σ ε Unit) s = .error e ↔ ¬c ∧ e = refusal := by
  by_cases holds : c
  · simp only [require, holds, if_true, not_true, false_and, iff_false]
    exact fun failed => nomatch failed
  · simp only [require, holds, if_false, not_false_eq_true, true_and, fail, Except.error.injEq]
    exact eq_comm

theorem expect_failed {refusal : ε} :
    (expect found refusal : Transaction σ ε α) s = .error e ↔ found = none ∧ e = refusal := by
  cases found with
  | none =>
    simp only [expect, fail, Except.error.injEq, true_and]
    exact eq_comm
  | some value =>
    constructor
    · exact fun failed => nomatch failed
    · exact fun ⟨missing, _⟩ => nomatch missing

theorem require_bind_failed {c : Prop} [Decidable c] {refusal : ε}
    {rest : Unit → Transaction σ ε β} :
    (require c refusal >>= rest) s = .error e ↔ ¬c ∧ e = refusal ∨ c ∧ rest () s = .error e := by
  rw [bind_failed, require_failed]
  simp [and_assoc, Unique.exists_iff]

theorem expect_bind_failed {refusal : ε} {rest : α → Transaction σ ε β} :
    (expect found refusal >>= rest) s = .error e ↔
      found = none ∧ e = refusal ∨ ∃ a, found = some a ∧ rest a s = .error e := by
  rw [bind_failed, expect_failed]
  simp [and_assoc]

end Inversion

/-- What the connection does to a call: it answers, the call never reaches the
store, or the call commits and the answer is lost. -/
inductive Delivery (ε : Type) where
  | answered
  | lost (e : ε)
  | unanswered (e : ε)

/-- What the caller sees of a transaction, and the store afterwards. A failed
transaction is rolled back. -/
def deliver (x : Transaction σ ε α) (s : σ) : Delivery ε → Except ε α × σ
  | .answered =>
    match x s with
    | .ok (a, s') => (.ok a, s')
    | .error e => (.error e, s)
  | .lost e => (.error e, s)
  | .unanswered e =>
    match x s with
    | .ok (_, s') => (.error e, s')
    | .error _ => (.error e, s)

end Transaction

structure Place (σ : Type) {Row κ ι : Type} (key : Row → κ) (index : Row → ι) where
  get : σ → Table key index
  set : Table key index → σ → σ

namespace Place

open Transaction

variable {σ ε Row κ ι : Type} {key : Row → κ} {index : Row → ι} (place : Place σ key index)

def select (p : Row → Prop) [DecidablePred p] : Transaction σ ε (Option Row) := fun s =>
  .ok ((place.get s).select p, s)

def selectAll (p : Row → Prop) [DecidablePred p] : Transaction σ ε (List Row) := fun s =>
  .ok ((place.get s).selectAll p, s)

/-- Rewrite the matching rows and report how many there were. -/
def update (p : Row → Prop) [DecidablePred p] (f : Row → Row)
    (keeps : Table.Keeps key index f) : Transaction σ ε Nat := fun s =>
  .ok ((place.get s).affected p, place.set ((place.get s).update p f keeps) s)

def insert [DecidableEq κ] [DecidableEq ι] (row : Row) (duplicate : ε) :
    Transaction σ ε Unit := fun s =>
  match (place.get s).insert row with
  | some table => .ok ((), place.set table s)
  | none => .error duplicate

section Inversion

variable {p : Row → Prop} [DecidablePred p] {s s' : σ}

@[simp]
theorem select_ok {found : Option Row} :
    (place.select p : Transaction σ ε _) s = .ok (found, s') ↔
      found = (place.get s).select p ∧ s' = s := by
  simp [select, eq_comm]

@[simp]
theorem selectAll_ok {found : List Row} :
    (place.selectAll p : Transaction σ ε _) s = .ok (found, s') ↔
      found = (place.get s).selectAll p ∧ s' = s := by
  simp [selectAll, eq_comm]

@[simp]
theorem update_ok {f : Row → Row} {keeps : Table.Keeps key index f} {n : Nat} :
    (place.update p f keeps : Transaction σ ε _) s = .ok (n, s') ↔
      n = (place.get s).affected p ∧ s' = place.set ((place.get s).update p f keeps) s := by
  simp [update, eq_comm]

theorem select_bind_ok {α : Type} {rest : Option Row → Transaction σ ε α} {a : α} :
    (place.select p >>= rest) s = .ok (a, s') ↔
      rest ((place.get s).select p) s = .ok (a, s') :=
  Iff.rfl

theorem select_bind_failed {α : Type} {rest : Option Row → Transaction σ ε α} {e : ε} :
    (place.select p >>= rest) s = .error e ↔ rest ((place.get s).select p) s = .error e :=
  Iff.rfl

variable {place} in
theorem select_expect_ok {missing : ε} {row : Row} (ran : (place.select p >>= fun found =>
      expect found missing : Transaction σ ε Row) s = .ok (row, s')) :
    s' = s ∧ row ∈ (place.get s).rows ∧ p row := by
  have found := place.select_bind_ok.mp ran
  obtain ⟨found, same⟩ := expect_ok.mp found
  exact ⟨same, Table.select_some found⟩

theorem update_require_ok {f : Row → Row} {keeps : Table.Keeps key index f} {c : Nat → Prop}
    [DecidablePred c] {e : ε} {u : Unit} :
    (place.update p f keeps >>= fun n => require (c n) e : Transaction σ ε Unit) s =
        .ok (u, s') ↔
      c ((place.get s).affected p) ∧ s' = place.set ((place.get s).update p f keeps) s := by
  simp [update_ok, and_assoc]

theorem update_require_bind_ok {α : Type} {f : Row → Row} {keeps : Table.Keeps key index f}
    {c : Nat → Prop} [DecidablePred c] {e : ε} {rest : Unit → Transaction σ ε α} {a : α} :
    (place.update p f keeps >>= fun n => require (c n) e >>= rest) s = .ok (a, s') ↔
      c ((place.get s).affected p) ∧
        rest () (place.set ((place.get s).update p f keeps) s) = .ok (a, s') := by
  constructor
  · intro ran
    obtain ⟨n, s₁, updated, ran⟩ := bind_ok.mp ran
    obtain ⟨rfl, rfl⟩ := place.update_ok.mp updated
    exact require_bind_ok.mp ran
  · exact fun ran => bind_ok.mpr ⟨_, _, place.update_ok.mpr ⟨rfl, rfl⟩, require_bind_ok.mpr ran⟩

@[simp]
theorem insert_ok [DecidableEq κ] [DecidableEq ι] {row : Row} {duplicate : ε} {u : Unit} :
    (place.insert row duplicate : Transaction σ ε _) s = .ok (u, s') ↔
      ∃ table, (place.get s).insert row = some table ∧ s' = place.set table s := by
  unfold insert
  cases (place.get s).insert row <;> simp [eq_comm]

end Inversion

end Place

end Relational
