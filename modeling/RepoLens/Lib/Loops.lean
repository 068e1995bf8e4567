import Mathlib

/-!
Loops that end by returning from their body. A body maps a state to a result or to the
next state; an invariant is kept by the next states, and what the results satisfy is
shown of one execution of the body.
-/

namespace Loops

variable {σ ρ α : Type}

/-- The result satisfies `post`, or the next state satisfies `inv`. -/
def Leads (post : ρ → Prop) (inv : σ → Prop) : ρ ⊕ σ → Prop
  | .inl result => post result
  | .inr state => inv state

/-- A loop without a condition, for at most so many executions of its body. -/
def iterate (body : σ → ρ ⊕ σ) : Nat → σ → Option ρ
  | 0, _ => none
  | fuel + 1, state =>
    match body state with
    | .inl result => some result
    | .inr next => iterate body fuel next

/-- A loop over a list; the body also sees the elements that are left. -/
def forEach (body : α → List α → σ → ρ ⊕ σ) : List α → σ → ρ ⊕ σ
  | [], state => .inr state
  | a :: rest, state =>
    match body a rest state with
    | .inl result => .inl result
    | .inr next => forEach body rest next

variable {post : ρ → Prop} {inv : σ → Prop}

theorem Leads.imp {post_ : ρ → Prop} {inv_ : σ → Prop} {end_ : ρ ⊕ σ} (leads : Leads post inv end_)
    (result : ∀ r, post r → post_ r) (state : ∀ s, inv s → inv_ s) : Leads post_ inv_ end_ := by
  cases end_ with
  | inl r => exact result r leads
  | inr s => exact state s leads

theorem iterate_post {body : σ → ρ ⊕ σ} (step : ∀ s, inv s → Leads post inv (body s)) {fuel : Nat}
    {state : σ} (start : inv state) {result : ρ} (done : iterate body fuel state = some result) :
    post result := by
  induction fuel generalizing state with
  | zero => cases done
  | succ fuel ih =>
    have leads := step state start
    simp only [iterate] at done
    cases ends : body state with
    | inl r =>
      simp only [ends, Option.some.injEq] at done
      rw [ends] at leads
      exact done ▸ leads
    | inr next =>
      rw [ends] at done leads
      exact ih leads done

theorem iterate_some {body : σ → ρ ⊕ σ} {variant : σ → Nat}
    (step : ∀ s, inv s → Leads (fun _ => True) (fun next => inv next ∧
      variant next < variant s) (body s))
    {fuel : Nat} {state : σ} (start : inv state) (enough : variant state < fuel) :
    ∃ result, iterate body fuel state = some result := by
  induction fuel generalizing state with
  | zero => omega
  | succ fuel ih =>
    have leads := step state start
    simp only [iterate]
    cases ends : body state with
    | inl r => exact ⟨r, rfl⟩
    | inr next =>
      rw [ends] at leads
      exact ih leads.1 (by have := leads.2; omega)

theorem forEach_post {body : α → List α → σ → ρ ⊕ σ} (inv : List α → σ → Prop)
    (step : ∀ a rest s, inv (a :: rest) s → Leads post (inv rest) (body a rest s)) {list : List α}
    {state : σ} (start : inv list state) : Leads post (inv []) (forEach body list state) := by
  induction list generalizing state with
  | nil => exact start
  | cons a rest ih =>
    have leads := step a rest state start
    simp only [forEach]
    cases ends : body a rest state with
    | inl r =>
      rw [ends] at leads
      exact leads
    | inr next =>
      rw [ends] at leads
      exact ih leads

end Loops
