import Mathlib

/-!
Sums kept in a map by key, and lists sorted by a comparison. A map has no order: what is read out
of it comes in some order.
-/

namespace Ranking

section Sorting

variable {α : Type} {less : α → α → Bool}

/-- What a sort by `less` may return; entries that compare neither way come in any order. -/
structure Sorts (less : α → α → Bool) (input output : List α) : Prop where
  perm : output.Perm input
  sorted : output.Pairwise fun one two => less two one = false

structure WeakOrder (less : α → α → Bool) : Prop where
  asymm : ∀ a b, less a b = false ∨ less b a = false
  trans : ∀ a b c, less b a = false → less c b = false → less c a = false

def sortBy (less : α → α → Bool) (entries : List α) : List α :=
  entries.insertionSort fun one two => less two one = false

theorem WeakOrder.sorts (weak : WeakOrder less) (entries : List α) :
    Sorts less entries (sortBy less entries) := by
  have total : Std.Total fun one two : α => less two one = false :=
    ⟨fun a b => (weak.asymm b a)⟩
  have trans : IsTrans α fun one two => less two one = false :=
    ⟨fun a b c => weak.trans a b c⟩
  exact ⟨List.perm_insertionSort _ entries, List.pairwise_insertionSort _ entries⟩

theorem Sorts.unique {input input_ output output_ : List α} (same : input.Perm input_)
    (apart : ∀ a ∈ input, ∀ b ∈ input, less a b = false → less b a = false → a = b)
    (sorts : Sorts less input output) (sorts_ : Sorts less input_ output_) : output = output_ := by
  apply List.Perm.eq_of_pairwise _ sorts.sorted sorts_.sorted
  · exact sorts.perm.trans (same.trans sorts_.perm.symm)
  · intro a b member member_ before after
    exact apart a (sorts.perm.subset member) b (same.symm.subset (sorts_.perm.subset member_)) after
      before

theorem Sorts.filter {input output : List α} (p : α → Bool) (sorts : Sorts less input output) :
    Sorts less (input.filter p) (output.filter p) :=
  ⟨sorts.perm.filter p, sorts.sorted.filter p⟩

theorem weakOrder_key {κ : Type} [LinearOrder κ] (key : α → κ) :
    WeakOrder fun a b => decide (key a < key b) := by
  constructor
  · intro a b
    simp only [decide_eq_false_iff_not, not_lt]
    exact le_total _ _
  · intro a b c first second
    simp only [decide_eq_false_iff_not, not_lt] at first second ⊢
    exact first.trans second

theorem weakOrder_false : WeakOrder fun _ _ : α => false :=
  ⟨fun _ _ => .inl rfl, fun _ _ _ _ _ => rfl⟩

theorem WeakOrder.lex {κ : Type} [LinearOrder κ] (key : α → κ) {rest : α → α → Bool}
    (weak : WeakOrder rest) :
    WeakOrder fun a b => if key a ≠ key b then decide (key a < key b) else rest a b := by
  constructor
  · intro a b
    rcases lt_trichotomy (key a) (key b) with lt | eq | gt
    · exact .inr (by simp [lt.ne', lt.le])
    · simpa [eq] using weak.asymm a b
    · exact .inl (by simp [gt.ne', gt.le])
  · intro a b c first second
    by_cases ab : key b = key a <;> by_cases bc : key c = key b <;>
      simp only [ab, bc, ne_eq, not_true_eq_false, not_false_eq_true, if_true, if_false,
        decide_eq_false_iff_not, not_lt] at first second ⊢
    · exact weak.trans a b c first second
    · simpa [ab ▸ bc] using second
    · simpa [ab] using first
    · have below : key a < key c := lt_of_lt_of_le (lt_of_le_of_ne first (Ne.symm ab)) second
      simp [below.ne', below.le]

end Sorting

section Sums

variable {κ M : Type} [DecidableEq κ] [AddCommMonoid M]

def bump (key : κ) (amount : M) : List (κ × M) → List (κ × M)
  | [] => [(key, amount)]
  | (other, sum) :: sums =>
    if other = key then (other, sum + amount) :: sums else (other, sum) :: bump key amount sums

def tally (entries : List (κ × M)) : List (κ × M) :=
  entries.foldl (fun sums entry => bump entry.1 entry.2 sums) []

def valueAt (key : κ) (entries : List (κ × M)) : M :=
  ((entries.filter (·.1 = key)).map (·.2)).sum

theorem keys_bump (key : κ) (amount : M) (sums : List (κ × M)) :
    (bump key amount sums).map (·.1) =
      if key ∈ sums.map (·.1) then sums.map (·.1) else sums.map (·.1) ++ [key] := by
  induction sums with
  | nil => rfl
  | cons head sums ih =>
    unfold bump
    by_cases same : head.1 = key
    · simp [same]
    · simp only [same, if_false, List.map_cons, ih, List.mem_cons, Ne.symm same, false_or]
      split <;> rfl

theorem valueAt_bump (key other : κ) (amount : M) (sums : List (κ × M)) :
    valueAt other (bump key amount sums) = valueAt other sums + if key = other then
      amount else 0 := by
  induction sums with
  | nil => by_cases same : key = other <;> simp [bump, valueAt, same]
  | cons head sums ih =>
    unfold bump
    by_cases same : head.1 = key
    · by_cases here : key = other
      · subst here
        simp only [valueAt, same, if_true, decide_true, List.filter_cons_of_pos, List.map_cons,
          List.sum_cons]
        exact add_right_comm _ _ _
      · simp [valueAt, same, here]
    · simp only [same, if_false]
      by_cases here : head.1 = other
      · simp only [valueAt, here, decide_true, List.filter_cons_of_pos, List.map_cons,
          List.sum_cons] at ih ⊢
        rw [ih, add_assoc]
      · simpa [valueAt, here] using ih

theorem foldl_bump (entries sums : List (κ × M)) (nodup : (sums.map (·.1)).Nodup) :
    ((entries.foldl (fun sums entry => bump entry.1 entry.2 sums) sums).map (·.1)).Nodup ∧
      ∀ key, (key ∈ (entries.foldl (fun sums entry => bump entry.1 entry.2 sums) sums).map (·.1) ↔
          key ∈ sums.map (·.1) ∨ key ∈ entries.map (·.1)) ∧
        valueAt key (entries.foldl (fun sums entry => bump entry.1 entry.2 sums) sums) =
          valueAt key sums + valueAt key entries := by
  induction entries generalizing sums with
  | nil => exact ⟨nodup, fun key => ⟨by simp, by simp [valueAt]⟩⟩
  | cons head entries ih =>
    have next : ((bump head.1 head.2 sums).map (·.1)).Nodup := by
      rw [keys_bump]
      split
      · exact nodup
      · next fresh => exact List.nodup_append.mpr ⟨nodup, by simp, by
          rintro a member b single rfl
          exact fresh (List.mem_singleton.mp single ▸ member)⟩
    obtain ⟨distinct, each⟩ := ih (bump head.1 head.2 sums) next
    refine ⟨distinct, fun key => ⟨?_, ?_⟩⟩
    · rw [List.foldl_cons, (each key).1, keys_bump, List.map_cons, List.mem_cons]
      split
      · next known =>
          constructor
          · exact Or.imp_right .inr
          · rintro (old | rfl | new)
            · exact .inl old
            · exact .inl known
            · exact .inr new
      · simp only [List.mem_append, List.mem_singleton, or_assoc]
    · rw [List.foldl_cons, (each key).2, valueAt_bump, add_assoc]
      congr 1
      by_cases same : head.1 = key <;> simp [valueAt, same]

theorem nodup_tally (entries : List (κ × M)) : ((tally entries).map (·.1)).Nodup :=
  (foldl_bump entries [] (by simp)).1

theorem mem_keys_tally {key : κ} {entries : List (κ × M)} :
    key ∈ (tally entries).map (·.1) ↔ key ∈ entries.map (·.1) := by
  have each := ((foldl_bump entries [] (by simp)).2 key).1
  simpa [tally] using each

theorem valueAt_of_mem {key : κ} {sum : M} {sums : List (κ × M)} (nodup : (sums.map (·.1)).Nodup)
    (member : (key, sum) ∈ sums) : valueAt key sums = sum := by
  induction sums with
  | nil => cases member
  | cons head sums ih =>
    rw [List.map_cons, List.nodup_cons] at nodup
    rcases List.mem_cons.mp member with rfl | later
    · have rest : sums.filter (·.1 = key) = [] := by
        apply List.filter_eq_nil_iff.mpr
        intro entry inside same
        exact nodup.1 (List.mem_map.mpr ⟨entry, inside, of_decide_eq_true same⟩)
      simp [valueAt, rest]
    · have other : head.1 ≠ key := by
        rintro rfl
        exact nodup.1 (List.mem_map.mpr ⟨_, later, rfl⟩)
      simpa [valueAt, other] using ih nodup.2 later

theorem mem_tally {key : κ} {sum : M} {entries : List (κ × M)} :
    (key, sum) ∈ tally entries ↔ key ∈ entries.map (·.1) ∧ sum = valueAt key entries := by
  have total : valueAt key (tally entries) = valueAt key entries := by
    have each := ((foldl_bump entries [] (by simp)).2 key).2
    simpa [valueAt, tally] using each
  constructor
  · intro member
    refine ⟨mem_keys_tally.mp (List.mem_map.mpr ⟨_, member, rfl⟩), ?_⟩
    rw [← total, valueAt_of_mem (nodup_tally entries) member]
  · rintro ⟨known, rfl⟩
    obtain ⟨⟨_, sum⟩, member, rfl⟩ := List.mem_map.mp (mem_keys_tally.mpr known)
    rwa [← total, valueAt_of_mem (nodup_tally entries) member]

end Sums

theorem valueAt_ones {κ : Type} [DecidableEq κ] (key : κ) (keys : List κ) :
    valueAt key (keys.map fun key => (key, 1)) = keys.count key := by
  induction keys with
  | nil => rfl
  | cons head keys ih =>
    by_cases same : head = key
    · simp only [valueAt, List.map_cons, same, decide_true, List.filter_cons_of_pos, List.sum_cons,
        List.count_cons_self] at ih ⊢
      rw [ih, add_comm]
    · simpa [valueAt, same] using ih

section Updates

variable {κ V A : Type} [DecidableEq κ] {change : V → A → V} {f : κ → V} {entries : List (κ × A)}
    {key : κ}

/-- The values of a map changed at one key after the other. -/
def updateAll (change : V → A → V) (entries : List (κ × A)) (f : κ → V) : κ → V :=
  entries.foldl (fun f entry => Function.update f entry.1 (change (f entry.1) entry.2)) f

theorem updateAll_cons (head : κ × A) (entries : List (κ × A)) (f : κ → V) :
    updateAll change (head :: entries) f =
      updateAll change entries (Function.update f head.1 (change (f head.1) head.2)) := rfl

theorem updateAll_of_notMem (absent : key ∉ entries.map (·.1)) :
    updateAll change entries f key = f key := by
  induction entries generalizing f with
  | nil => rfl
  | cons head entries ih =>
    rw [List.map_cons, List.mem_cons, not_or] at absent
    rw [updateAll_cons, ih absent.2, Function.update_of_ne absent.1]

theorem updateAll_of_mem {amount : A} (nodup : (entries.map (·.1)).Nodup)
    (member : (key, amount) ∈ entries) : updateAll change entries f key =
      change (f key) amount := by
  induction entries generalizing f with
  | nil => cases member
  | cons head entries ih =>
    rw [List.map_cons, List.nodup_cons] at nodup
    rw [updateAll_cons]
    rcases List.mem_cons.mp member with rfl | later
    · rw [updateAll_of_notMem nodup.1, Function.update_self]
    · have other : key ≠ head.1 := by
        rintro rfl
        exact nodup.1 (List.mem_map.mpr ⟨_, later, rfl⟩)
      rw [ih nodup.2 later, Function.update_of_ne other]

end Updates

end Ranking
