import Mathlib

/-!
Texts as lists of lines over an arbitrary alphabet: the lines of a text that arrives in pieces,
and the longest run of first lines whose join stays within a size limit.
-/

namespace Lines

variable {α : Type} (sep : α)

def join (lines : List (List α)) : List α := [sep].intercalate lines

@[simp]
theorem join_nil : join sep ([] : List (List α)) = [] := rfl

@[simp]
theorem join_singleton (line : List α) : join sep [line] = line := by
  simp [join]

theorem join_cons_eq_nil {first : List α} {rest : List (List α)} :
    join sep (first :: rest) = [] ↔ first = [] ∧ rest = [] := by
  cases rest <;> simp [join, List.intercalate_cons_cons]

theorem join_cons (first : List α) (rest : List (List α)) :
    join sep (first :: rest) = first ++ rest.flatMap (sep :: ·) := by
  induction rest generalizing first with
  | nil => simp [join]
  | cons second rest ih =>
    rw [List.flatMap_cons, List.cons_append, ← ih]
    simp [join, List.intercalate_cons_cons]

variable {lines : List (List α)} {limit : Int}

theorem join_concat (started : lines ≠ []) (line : List α) :
    join sep (lines ++ [line]) = join sep lines ++ sep :: line := by
  induction lines with
  | nil => exact absurd rfl started
  | cons first rest ih =>
    cases rest with
    | nil => simp [join]
    | cons second rest =>
      have later := ih (List.cons_ne_nil second rest)
      simp only [join, List.cons_append, List.intercalate_cons_cons] at later ⊢
      rw [later]
      simp

theorem length_join_concat (lines : List (List α)) (line : List α) :
    (join sep (lines ++ [line])).length =
      (join sep lines).length + (if lines = [] then 0 else 1) + line.length := by
  by_cases started : lines = []
  · simp [started]
  · rw [join_concat sep started, if_neg started]
    simp only [List.length_append, List.length_cons]
    omega

theorem length_join_take_le (lines : List (List α)) (n : Nat) :
    (join sep (lines.take n)).length ≤ (join sep lines).length := by
  induction lines using List.reverseRecOn with
  | nil => simp
  | append_singleton lines line ih =>
    rcases Nat.lt_or_ge n (lines.length + 1) with short | whole
    · rw [List.take_append_of_le_length (by omega), length_join_concat]
      omega
    · rw [List.take_of_length_le (by simpa using whole)]

theorem length_join_le_of_initial {first : List (List α)} (run : first <+: lines) :
    (join sep first).length ≤ (join sep lines).length := by
  rw [List.prefix_iff_eq_take.mp run]
  exact length_join_take_le sep lines _

theorem splitOn_append_of_notMem [DecidableEq α] {start : List α} (plain : sep ∉ start)
    (text : List α) : (start ++ text).splitOn sep = (text.splitOn sep).modifyHead (start ++ ·) := by
  induction start with
  | nil =>
    rw [List.nil_append]
    cases text.splitOn sep <;> rfl
  | cons a rest ih =>
    rw [List.mem_cons, not_or] at plain
    rw [List.cons_append, List.splitOn_cons_eq_if_modifyHead, ih plain.2,
      if_neg (by simpa using Ne.symm plain.1), List.modifyHead_modifyHead]
    rfl

theorem splitOn_last [DecidableEq α] {start part : List α} (plain : sep ∉ start)
    (free : sep ∉ part) : (start ++ part).splitOn sep = [start ++ part] :=
  List.splitOn_eq_singleton (by simp [plain, free])

theorem splitOn_line [DecidableEq α] {start part text : List α} (plain : sep ∉ start)
    (free : sep ∉ part) :
    (start ++ (part ++ sep :: text)).splitOn sep = (start ++ part) :: text.splitOn sep := by
  have absent : sep ∉ start ++ part := by simp [plain, free]
  rw [← List.append_assoc]
  exact List.splitOn_append_cons_self_of_not_mem absent _

theorem splitOn_lines [DecidableEq α] {text line : List α} (member : line ∈ text.splitOn sep) :
    sep ∉ line ∧ line ⊆ text := by
  induction text generalizing line with
  | nil =>
    rw [List.splitOn_nil, List.mem_singleton] at member
    simp [member]
  | cons a text ih =>
    rw [List.splitOn_cons_eq_if_modifyHead] at member
    obtain ⟨first, rest, shape⟩ := List.exists_cons_of_ne_nil (List.splitOn_ne_nil sep text)
    by_cases ends : (a == sep) = true
    · rw [if_pos ends, List.mem_cons] at member
      rcases member with rfl | member
      · simp
      · exact ⟨(ih member).1, List.subset_cons_of_subset a (ih member).2⟩
    · rw [if_neg ends, shape, List.modifyHead_cons, List.mem_cons] at member
      have other : sep ≠ a := fun same => ends (by simp [same])
      rcases member with rfl | member
      · have ⟨plain, within⟩ := @ih first (by simp [shape])
        exact ⟨by simp [other, plain], List.cons_subset_cons a within⟩
      · have ⟨plain, within⟩ := @ih line (by simp [shape, member])
        exact ⟨plain, List.subset_cons_of_subset a within⟩

theorem splitOn_join [DecidableEq α] (some : lines ≠ []) :
    (join sep lines).splitOn sep = lines.flatMap (·.splitOn sep) := by
  induction lines using List.reverseRecOn with
  | nil => exact absurd rfl some
  | append_singleton lines line ih =>
    by_cases started : lines = []
    · simp [started]
    · rw [join_concat sep started, List.flatMap_append, ← ih started]
      simp only [List.splitOn]
      rw [List.splitOnP_append_cons _ _ (by simp)]
      simp

theorem splitOn_inj [DecidableEq α] {text other : List α} :
    text.splitOn sep = other.splitOn sep ↔ text = other := by
  constructor
  · intro same
    rw [← @List.intercalate_splitOn _ text _ _ sep, same, List.intercalate_splitOn]
  · intro same
    rw [same]

theorem length_splitOn [DecidableEq α] (text : List α) :
    (text.splitOn sep).length = text.count sep + 1 := by
  induction text with
  | nil => simp
  | cons a text ih =>
    rw [List.splitOn_cons_eq_if_modifyHead]
    by_cases ends : a = sep
    · simp [ends, ih]
    · simp [ends, ih]

theorem splitOn_append_last [DecidableEq α] {last : List α} (plain : sep ∉ last) (text : List α) :
    (text ++ sep :: last).splitOn sep = text.splitOn sep ++ [last] := by
  have whole := splitOn_append_of_notMem sep plain []
  rw [List.append_nil, List.splitOn_nil, List.modifyHead_cons, List.append_nil] at whole
  rw [List.splitOn, List.splitOnP_append_cons _ _ (by simp)]
  exact congrArg _ whole

theorem join_inj [DecidableEq α] {others : List (List α)} (some : lines ≠ [])
    (some_ : others ≠ []) :
    join sep lines = join sep others ↔
      lines.flatMap (·.splitOn sep) = others.flatMap (·.splitOn sep) := by
  rw [← splitOn_join sep some, ← splitOn_join sep some_, splitOn_inj]

theorem eq_iff_pieces_eq [DecidableEq α] {others : List (List α)} :
    lines = others ↔ lines.flatMap (·.splitOn sep) = others.flatMap (·.splitOn sep) ∧
      lines.map (·.count sep) = others.map (·.count sep) := by
  constructor
  · intro same
    rw [same]
    exact ⟨rfl, rfl⟩
  · rintro ⟨pieces, counts⟩
    have sizes : (lines.map (·.splitOn sep)).map List.length =
        (others.map (·.splitOn sep)).map List.length := by
      have each (list : List (List α)) : (list.map (·.splitOn sep)).map List.length =
          (list.map (·.count sep)).map (· + 1) := by
        simp [length_splitOn, Function.comp_def]
      rw [each, each, counts]
    rw [List.flatMap_def, List.flatMap_def] at pieces
    have apart := List.eq_iff_flatten_eq.mpr ⟨pieces, sizes⟩
    exact List.map_injective_iff.mpr (fun _ _ => (splitOn_inj sep).mp) apart

theorem mem_of_mem_join {a : α} (member : a ∈ join sep lines) (other : a ≠ sep) :
    ∃ line ∈ lines, a ∈ line := by
  induction lines with
  | nil => cases member
  | cons first rest ih =>
    cases rest with
    | nil => exact ⟨first, by simp, by simpa using member⟩
    | cons second rest =>
      simp only [join, List.intercalate_cons_cons, List.mem_append, List.mem_singleton] at member
      rcases member with (inside | same) | later
      · exact ⟨first, by simp, inside⟩
      · exact absurd same other
      · obtain ⟨line, among, inside⟩ := ih later
        exact ⟨line, List.mem_cons_of_mem first among, inside⟩

def Within (limit : Int) (size : Nat) : Prop := limit ≤ 0 ∨ (size : Int) ≤ limit

instance (limit : Int) (size : Nat) : Decidable (Within limit size) :=
  inferInstanceAs (Decidable (_ ∨ _))

theorem Within.zero (limit : Int) : Within limit 0 := by
  unfold Within
  omega

theorem Within.mono {size smaller : Nat} (within : Within limit size) (le : smaller ≤ size) :
    Within limit smaller := by
  unfold Within at *
  omega

/-- The first lines, as long as each still fits behind what is `used` already. -/
def fittingFrom (limit : Int) : Nat → List (List α) → List (List α)
  | _, [] => []
  | used, line :: rest =>
    if Within limit (used + line.length) then
      line :: fittingFrom limit (used + line.length + 1) rest
    else []

/-- The longest run of first lines whose join is within the limit. -/
def fitting (limit : Int) (lines : List (List α)) : List (List α) := fittingFrom limit 0 lines

@[simp]
theorem fitting_nil (limit : Int) : fitting limit ([] : List (List α)) = [] := rfl

theorem fittingFrom_prefix (limit : Int) (used : Nat) (lines : List (List α)) :
    fittingFrom limit used lines <+: lines := by
  induction lines generalizing used with
  | nil => exact List.prefix_refl []
  | cons first rest ih =>
    rw [fittingFrom]
    split
    · exact (List.prefix_cons_inj first).mpr (ih _)
    · exact List.nil_prefix

theorem fitting_initial (limit : Int) (lines : List (List α)) : fitting limit lines <+: lines :=
  fittingFrom_prefix limit 0 lines

theorem fitting_eq_of_length (whole : lines.length ≤ (fitting limit lines).length) :
    fitting limit lines = lines :=
  (fitting_initial limit lines).eq_of_length_le whole

theorem fittingFrom_concat (limit : Int) (used : Nat) (lines : List (List α)) (line : List α) :
    fittingFrom limit used (lines ++ [line]) =
      if lines.length ≤ (fittingFrom limit used lines).length ∧
          Within limit (used + (join sep (lines ++ [line])).length) then lines ++ [line]
      else fittingFrom limit used lines := by
  induction lines generalizing used with
  | nil => simp [fittingFrom]
  | cons first rest ih =>
    -- the join of a longer text starts with its first line and one separator
    have size : (join sep (first :: (rest ++ [line]))).length =
        first.length + 1 + (join sep (rest ++ [line])).length := by
      cases rest <;> simp [join, List.intercalate_cons_cons] <;> omega
    by_cases fits : Within limit (used + first.length)
    · simp only [List.cons_append, fittingFrom, if_pos fits, ih, List.length_cons, size,
        Nat.add_le_add_iff_right]
      rw [← Nat.add_assoc, ← Nat.add_assoc]
      split <;> rfl
    · simp [fittingFrom, fits]

theorem fitting_concat (limit : Int) (lines : List (List α)) (line : List α) :
    fitting limit (lines ++ [line]) =
      if lines.length ≤ (fitting limit lines).length ∧
          Within limit (join sep (lines ++ [line])).length then lines ++ [line]
      else fitting limit lines := by
  have := fittingFrom_concat sep limit 0 lines line
  rwa [Nat.zero_add] at this

theorem fitting_within (limit : Int) (lines : List (List α)) :
    Within limit (join sep (fitting limit lines)).length := by
  induction lines using List.reverseRecOn with
  | nil => exact Within.zero limit
  | append_singleton lines line ih =>
    rw [fitting_concat sep]
    split
    · next taken => exact taken.2
    · exact ih

theorem length_le_fitting {run : List (List α)} (first : run <+: lines)
    (within : Within limit (join sep run).length) : run.length ≤ (fitting limit lines).length := by
  induction lines using List.reverseRecOn generalizing run with
  | nil => simp [List.prefix_nil.mp first]
  | append_singleton lines line ih =>
    rcases List.prefix_concat_iff.mp first with rfl | shorter
    · -- the whole text is within the limit, so its first lines are too
      have before := ih (List.prefix_refl lines)
        (within.mono (length_join_le_of_initial sep (List.prefix_append lines [line])))
      rw [fitting_concat sep, if_pos ⟨before, within⟩]
    · refine (ih shorter within).trans ?_
      rw [fitting_concat sep]
      split
      · next taken =>
          exact (fitting_initial limit lines).length_le.trans (by simp)
      · exact le_rfl

theorem fittingFrom_append_of_short {used : Nat}
    (short : (fittingFrom limit used lines).length < lines.length) (more : List (List α)) :
    fittingFrom limit used (lines ++ more) = fittingFrom limit used lines := by
  induction lines generalizing used with
  | nil => exact absurd short (Nat.not_lt_zero _)
  | cons first rest ih =>
    by_cases fits : Within limit (used + first.length)
    · simp only [List.cons_append, fittingFrom, if_pos fits, List.length_cons,
        Nat.add_lt_add_iff_right] at short ⊢
      rw [ih short]
    · simp [fittingFrom, fits]

theorem fitting_append_of_short (short : (fitting limit lines).length < lines.length)
    (more : List (List α)) :
    fitting limit (lines ++ more) = fitting limit lines :=
  fittingFrom_append_of_short short more

theorem fitting_eq_nil_iff :
    fitting limit lines = [] ↔
      ∀ first rest, lines = first :: rest → ¬ Within limit first.length := by
  cases lines with
  | nil => simp
  | cons first rest =>
    rw [fitting, fittingFrom, Nat.zero_add]
    by_cases fits : Within limit first.length <;> simp [fits]

structure IsLongestFit (limit : Int) (lines run : List (List α)) : Prop where
  isPrefix : run <+: lines
  within : Within limit (join sep run).length
  longest : ∀ other, other <+: lines → Within limit (join sep other).length →
    other.length ≤ run.length

theorem isLongestFit_fitting (limit : Int) (lines : List (List α)) :
    IsLongestFit sep limit lines (fitting limit lines) :=
  ⟨fitting_initial limit lines, fitting_within sep limit lines,
    fun _ first within => length_le_fitting sep first within⟩

end Lines
