import RepoLens.Lib.Lines

/-!
Slash separated paths as `path/filepath` treats them on Unix.
-/

namespace Paths

open Lines

abbrev Element := List Char

def up : Element := ['.', '.']

/-- One more element: empty elements and `.` are dropped, `..` takes back the element
before it. -/
def push (rooted : Bool) (stack : List Element) (element : Element) : List Element :=
  if element = [] ∨ element = ['.'] then stack
  else if element = up then
    match stack with
    | [] => if rooted then [] else [up]
    | top :: below => if top = up then up :: top :: below else below
  else element :: stack

/-- The elements that are left of a path, the last one first. -/
def stackOf (rooted : Bool) (elements : List Element) : List Element :=
  elements.foldl (push rooted) []

def isAbs (path : List Char) : Bool := path.head? == some '/'

def elements (path : List Char) : List Element :=
  (stackOf (isAbs path) (path.splitOn '/')).reverse

def clean (path : List Char) : List Char :=
  if isAbs path then '/' :: join '/' (elements path)
  else if elements path = [] then ['.']
  else join '/' (elements path)

/-- `filepath.Join` of two paths -/
def joinTwo (first second : List Char) : List Char :=
  if first ≠ [] then clean (first ++ '/' :: second)
  else if second ≠ [] then clean second
  else []

def dir (path : List Char) : List Char := clean (path.reverse.dropWhile (· != '/')).reverse

/-- `filepath.Ext`: from the last dot of the last element. -/
def ext (path : List Char) : List Char :=
  let last := (path.reverse.takeWhile (· != '/')).reverse
  if '.' ∈ last then '.' :: (last.reverse.takeWhile (· != '.')).reverse else []

def behindCommon : List Element → List Element → List Element × List Element
  | base :: bases, target :: targets =>
    if base = target then behindCommon bases targets else (base :: bases, target :: targets)
  | bases, targets => (bases, targets)

/-- `filepath.Rel`; it fails where the base leaves through an unknown directory. -/
def rel (base target : List Char) : Option (List Char) :=
  if clean base = clean target then some ['.']
  else if isAbs base ≠ isAbs target then none
  else
    match behindCommon (elements base) (elements target) with
    | (left, targets) =>
      if left.head? = some up then none
      else some (join '/' (left.map (fun _ => up) ++ targets))

def Kept (element : Element) : Prop := element ≠ [] ∧ element ≠ ['.'] ∧ '/' ∉ element

/-- The stacks that cleaning ends with: only leading `..` are left, and none of them
in a rooted path. -/
def Settled (rooted : Bool) : List Element → Prop
  | [] => True
  | top :: below =>
    Kept top ∧ Settled rooted below ∧ (top = up → rooted = false ∧ ∀ element ∈ below, element = up)

theorem up_kept : Kept up := by
  simp [Kept, up]

variable {rooted : Bool} {stack : List Element} {element : Element} {path : List Char}

theorem push_settled (settled : Settled rooted stack) (whole : '/' ∉ element) :
    Settled rooted (push rooted stack element) := by
  unfold push
  by_cases dropped : element = [] ∨ element = ['.']
  · rw [if_pos dropped]
    exact settled
  · rw [if_neg dropped]
    by_cases back : element = up
    · rw [if_pos back]
      cases stack with
      | nil => cases rooted <;> simp [Settled, up_kept]
      | cons top below =>
        by_cases climbs : top = up
        · obtain ⟨relative, ups⟩ := settled.2.2 climbs
          simp only [if_pos climbs]
          refine ⟨up_kept, settled, fun _ => ⟨relative, ?_⟩⟩
          simpa [climbs] using ups
        · simpa only [if_neg climbs] using settled.2.1
    · rw [if_neg back]
      rw [not_or] at dropped
      exact ⟨⟨dropped.1, dropped.2, whole⟩, settled, fun same => absurd same back⟩

theorem stackOf_settled (rooted : Bool) {parts : List Element}
    (whole : ∀ element ∈ parts, '/' ∉ element) : Settled rooted (stackOf rooted parts) := by
  induction parts using List.reverseRecOn with
  | nil => exact trivial
  | append_singleton parts last ih =>
    rw [stackOf, List.foldl_append]
    apply push_settled
    · exact ih fun element member => whole element (by simp [member])
    · exact whole last (by simp)

theorem stackOf_reverse (settled : Settled rooted stack) :
    stackOf rooted stack.reverse = stack := by
  induction stack with
  | nil => rfl
  | cons top below ih =>
    obtain ⟨kept, rest, climbs⟩ := settled
    rw [List.reverse_cons, stackOf, List.foldl_append]
    have rebuilt : below.reverse.foldl (push rooted) [] = below := ih rest
    rw [rebuilt, List.foldl_cons, List.foldl_nil, push.eq_def, if_neg (by simp [kept.1, kept.2.1])]
    by_cases back : top = up
    · obtain ⟨relative, ups⟩ := climbs back
      rw [if_pos back, back]
      cases below with
      | nil => simp [relative]
      | cons second below => simp [ups second (by simp)]
    · rw [if_neg back]

theorem Settled.kept (settled : Settled rooted stack) :
    ∀ element ∈ stack, Kept element := by
  induction stack with
  | nil => simp
  | cons top below ih =>
    intro element member
    rcases List.mem_cons.mp member with rfl | member
    · exact settled.1
    · exact ih settled.2.1 element member

theorem elements_settled (path : List Char) :
    Settled (isAbs path) (elements path).reverse := by
  rw [elements, List.reverse_reverse]
  exact stackOf_settled _ fun element member => (splitOn_lines '/' member).1

theorem kept_of_mem_elements {path : List Char} {element : Element}
    (member : element ∈ elements path) : Kept element :=
  (elements_settled path).kept element (List.mem_reverse.mpr member)

theorem Settled.climbs_first (settled : Settled rooted stack) (climbs : up ∈ stack) :
    stack.getLast? = some up := by
  induction stack with
  | nil => cases climbs
  | cons top below ih =>
    cases below with
    | nil =>
      rw [List.mem_singleton] at climbs
      rw [List.getLast?_singleton, climbs]
    | cons next below =>
      rw [List.getLast?_cons_cons]
      apply ih settled.2.1
      rcases List.mem_cons.mp climbs with same | deeper
      · have ups := (settled.2.2 same.symm).2 next (by simp)
        simp [ups]
      · exact deeper

theorem splitOn_join_elements (some : elements path ≠ []) :
    (join '/' (elements path)).splitOn '/' = elements path :=
  List.splitOn_intercalate '/' (fun _ member => (kept_of_mem_elements member).2.2) some

theorem clean_ne_nil (path : List Char) : clean path ≠ [] := by
  unfold clean
  split
  · simp
  · split
    · simp
    · next some =>
        intro empty
        have parts := splitOn_join_elements some
        rw [empty] at parts
        exact (@kept_of_mem_elements path [] (by simp [← parts])).1 rfl

theorem isAbs_join_elements (path : List Char) : isAbs (join '/' (elements path)) = false := by
  cases shape : elements path with
  | nil => rfl
  | cons first rest =>
    have kept : Kept first := @kept_of_mem_elements path _ (by simp [shape])
    cases first with
    | nil => exact absurd rfl kept.1
    | cons c cs =>
      have plain : c ≠ '/' := fun slash => kept.2.2 (by simp [slash])
      cases rest <;> simp [join, isAbs, List.intercalate_cons_cons, plain]

theorem isAbs_clean (path : List Char) : isAbs (clean path) = isAbs path := by
  unfold clean
  by_cases rooted : isAbs path = true
  · rw [if_pos rooted, rooted]
    rfl
  · rw [if_neg rooted]
    have relative : isAbs path = false := by simpa using rooted
    split
    · rw [relative]
      rfl
    · rw [isAbs_join_elements, relative]

theorem elements_clean (path : List Char) : elements (clean path) = elements path := by
  have again : stackOf (isAbs path) (elements path) = (elements path).reverse := by
    have settled := stackOf_reverse (elements_settled path)
    rwa [List.reverse_reverse] at settled
  rw [elements, isAbs_clean, clean]
  by_cases rooted : isAbs path = true
  · rw [if_pos rooted]
    have split_ : ('/' :: join '/' (elements path)).splitOn '/' =
        [] :: (join '/' (elements path)).splitOn '/' := by
      simp [List.splitOn_cons_eq_if_modifyHead]
    by_cases none : elements path = []
    · rw [split_, none]
      simp [stackOf, push]
    · rw [split_, splitOn_join_elements none]
      have skip : stackOf (isAbs path) ([] :: elements path) =
          stackOf (isAbs path) (elements path) := by
        simp [stackOf, push]
      rw [skip, again, List.reverse_reverse]
  · rw [if_neg rooted]
    by_cases none : elements path = []
    · rw [if_pos none, none]
      simp [stackOf, push, List.splitOn_cons_eq_if_modifyHead]
    · rw [if_neg none, splitOn_join_elements none, again, List.reverse_reverse]

theorem clean_climbs (relative : isAbs path = false) (climbs : up ∈ elements path) :
    clean path = up ∨ ['.', '.', '/'] <+: clean path := by
  have last := (elements_settled path).climbs_first (List.mem_reverse.mpr climbs)
  rw [List.getLast?_reverse] at last
  obtain ⟨rest, shape⟩ := List.head?_eq_some_iff.mp last
  have some : elements path ≠ [] := by simp [shape]
  rw [clean, relative, if_neg (by decide), if_neg some, shape]
  cases rest with
  | nil => exact .inl (join_singleton '/' up)
  | cons next rest =>
    right
    rw [join, List.intercalate_cons_cons]
    exact List.prefix_append _ _

theorem splitOn_clean (relative : isAbs path = false) (some : elements path ≠ []) :
    (clean path).splitOn '/' = elements path := by
  rw [clean, relative, if_neg (by decide), if_neg some, splitOn_join_elements some]

theorem ext_map {f : Char → Char} (dot : ∀ c, f c = '.' ↔ c = '.')
    (slash : ∀ c, f c = '/' ↔ c = '/')
    (path : List Char) : ext (path.map f) = (ext path).map f := by
  have until_ {stop : Char} (stops : ∀ c, f c = stop ↔ c = stop) (text : List Char) :
      (text.map f).takeWhile (· != stop) = (text.takeWhile (· != stop)).map f := by
    rw [List.takeWhile_map]
    congr 2
    funext c
    simp [bne, stops]
  have same : f '.' = '.' := (dot '.').mpr rfl
  simp only [ext, ← List.map_reverse, until_ slash, until_ dot, List.mem_map, dot, exists_eq_right]
  split
  · simp [same]
  · simp

theorem clean_clean (path : List Char) : clean (clean path) = clean path := by
  conv_lhs => rw [clean]
  rw [isAbs_clean, elements_clean]
  rfl

theorem mem_of_mem_push {kept : Element} (member : kept ∈ push rooted stack element) :
    kept ∈ stack ∨ kept = element := by
  unfold push at member
  split at member
  · exact .inl member
  · split at member
    · next back =>
        cases stack with
        | nil => cases rooted <;> simp_all
        | cons top below =>
          by_cases climbs : top = up
          · simp_all
          · simp only [if_neg climbs] at member
            exact .inl (List.mem_cons_of_mem _ member)
    · rcases List.mem_cons.mp member with same | member
      · exact .inr same
      · exact .inl member

theorem mem_of_mem_stackOf {parts : List Element} (member : element ∈ stackOf rooted parts) :
    element ∈ parts := by
  induction parts using List.reverseRecOn with
  | nil => cases member
  | append_singleton parts last ih =>
    rw [stackOf, List.foldl_append] at member
    rcases mem_of_mem_push member with earlier | same
    · simp [ih earlier]
    · simp [same]

theorem mem_of_mem_clean {c : Char} (member : c ∈ clean path) (dot : c ≠ '.') (slash : c ≠ '/') :
    c ∈ path := by
  have inside : c ∈ join '/' (elements path) := by
    unfold clean at member
    split at member
    · simpa [slash] using member
    · split at member
      · simp [dot] at member
      · exact member
  obtain ⟨element, among, member⟩ := mem_of_mem_join '/' inside slash
  have part : element ∈ path.splitOn '/' :=
    mem_of_mem_stackOf (List.mem_reverse.mp among)
  exact (splitOn_lines '/' part).2 member

end Paths
