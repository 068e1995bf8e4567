import Mathlib

/-!
Regular expressions with captures and the leftmost-first matching of backtracking engines.
-/

namespace Regex

variable {α β : Type}

inductive Re (α : Type) where
  | empty
  /-- One unit of a class. -/
  | one (class_ : α → Bool)
  /-- A word boundary. -/
  | boundary
  | seq (first second : Re α)
  /-- The first alternative is tried first. -/
  | alt (first second : Re α)
  /-- A greedy repetition tries one more round first, a lazy one none. -/
  | star (greedy : Bool) (body : Re α)
  | group (index : Nat) (body : Re α)

namespace Re

def all (res : List (Re α)) : Re α := res.foldr .seq .empty

def any : List (Re α) → Re α
  | [] => .one fun _ => false
  | [re] => re
  | re :: res => .alt re (any res)

def opt (re : Re α) : Re α := .alt re .empty

def many (re : Re α) : Re α := .star true re

def plus (re : Re α) : Re α := .seq re re.many

def times (n : Nat) (re : Re α) : Re α := all (List.replicate n re)

def atLeast (n : Nat) (re : Re α) : Re α := .seq (re.times n) re.many

end Re

/-- A position in the text, with what stands before it and the groups closed so far,
the last one first. -/
structure Cursor (α : Type) where
  prev : Option α
  rest : List α
  groups : List (Nat × List α)

namespace Cursor

def upTo (start stop : Cursor α) : List α :=
  start.rest.take (start.rest.length - stop.rest.length)

def close (start : Cursor α) (index : Nat) (stop : Cursor α) : Cursor α :=
  { stop with groups := (index, start.upTo stop) :: stop.groups }

/-- One side of the position is a word unit and the other is not. -/
def atBoundary (word : α → Bool) (cursor : Cursor α) : Bool :=
  cursor.prev.any word != cursor.rest.head?.any word

def matched (cursor : Cursor α) (index : Nat) : List α :=
  (cursor.groups.lookup index).getD []

end Cursor

def rounds (greedy : Bool) (body : Cursor α → (Cursor α → Option β) → Option β) :
    Nat → Cursor α → (Cursor α → Option β) → Option β
  | 0, cursor, next => next cursor
  | fuel + 1, cursor, next =>
    let again (_ : Unit) := body cursor fun later =>
      if later.rest.length < cursor.rest.length then rounds greedy body fuel later next else none
    if greedy then (again ()).orElse fun _ => next cursor else (next cursor).orElse again

def run (word : α → Bool) : Re α → Cursor α → (Cursor α → Option β) → Option β
  | .empty, cursor, next => next cursor
  | .one class_, cursor, next =>
    match cursor.rest with
    | [] => none
    | a :: rest => if class_ a then next { cursor with prev := some a, rest } else none
  | .boundary, cursor, next => if cursor.atBoundary word then next cursor else none
  | .seq first second, cursor, next => run word first cursor fun later => run word second later next
  | .alt first second, cursor, next =>
    (run word first cursor next).orElse fun _ => run word second cursor next
  | .star greedy body, cursor, next => rounds greedy (run word body) cursor.rest.length cursor next
  | .group index body, cursor, next =>
    run word body cursor fun later => next (cursor.close index later)

def matchAt (word : α → Bool) (re : Re α) (prev : Option α) (text : List α) : Option (Cursor α) :=
  run word re ⟨prev, text, []⟩ some

def find (word : α → Bool) (re : Re α) : Option α → List α → Option (Cursor α)
  | prev, [] => matchAt word re prev []
  | prev, a :: rest =>
    match matchAt word re prev (a :: rest) with
    | some found => some found
    | none => find word re (some a) rest

/-- Replace the matches, which never overlap, behind `skip` units of the last one. The
expression matches no empty text. -/
def replaceFrom (word : α → Bool) (re : Re α) (new : List α → Cursor α → List α) :
    Nat → Option α → List α → List α
  | _, _, [] => []
  | skip + 1, _, a :: rest => replaceFrom word re new skip (some a) rest
  | 0, prev, a :: rest =>
    match matchAt word re prev (a :: rest) with
    | some found =>
      let taken := (a :: rest).take ((a :: rest).length - found.rest.length)
      new taken found ++ replaceFrom word re new (taken.length - 1) (some a) rest
    | none => a :: replaceFrom word re new 0 (some a) rest

def replaceAll (word : α → Bool) (re : Re α) (new : List α → Cursor α → List α) (text : List α) :
    List α :=
  replaceFrom word re new 0 none text

/-- The matches, which never overlap, behind `skip` units of the last one. The expression matches
no empty text. -/
def findAllFrom (word : α → Bool) (re : Re α) : Nat → Option α → List α → List (List α)
  | _, _, [] => []
  | skip + 1, _, a :: rest => findAllFrom word re skip (some a) rest
  | 0, prev, a :: rest =>
    match matchAt word re prev (a :: rest) with
    | some found =>
      let taken := (a :: rest).take ((a :: rest).length - found.rest.length)
      taken :: findAllFrom word re (taken.length - 1) (some a) rest
    | none => findAllFrom word re 0 (some a) rest

def findAll (word : α → Bool) (re : Re α) (text : List α) : List (List α) :=
  findAllFrom word re 0 none text

variable {b : β} {re : Re α} {cursor later : Cursor α} {next : Cursor α → Option β}
  {unit : α → Prop} {prev : Option α} {text : List α} {word : α → Bool}

theorem orElse_eq_some {first : Option β} {second : Unit → Option β}
    (found : first.orElse second = some b) : first = some b ∨ second () = some b := by
  cases first with
  | none => exact .inr found
  | some _ => exact .inl found

section Invariant

/-- What a step over one unit and the end of a group keep. -/
structure Kept (holds : Cursor α → Prop) : Prop where
  step : ∀ cursor a rest, holds cursor → cursor.rest = a :: rest →
    holds { cursor with prev := some a, rest }
  close : ∀ start index stop, holds start → holds stop → holds (start.close index stop)

variable {word : α → Bool} {holds : Cursor α → Prop}

theorem rounds_keeps {greedy : Bool} {body : Cursor α → (Cursor α → Option β) → Option β}
    (each : ∀ cursor next b, holds cursor → body cursor next = some b →
      ∃ later, holds later ∧ next later = some b)
    {fuel : Nat} {cursor : Cursor α} {next : Cursor α → Option β} {b : β} (start : holds cursor)
    (found : rounds greedy body fuel cursor next = some b) :
    ∃ later, holds later ∧ next later = some b := by
  induction fuel generalizing cursor with
  | zero => exact ⟨cursor, start, found⟩
  | succ fuel ih =>
    have again : (body cursor fun later =>
          if later.rest.length < cursor.rest.length then rounds greedy body fuel later next
          else none) = some b → ∃ later, holds later ∧ next later = some b := by
      intro taken
      obtain ⟨later, kept, goes⟩ := each _ _ _ start taken
      split at goes
      · exact ih kept goes
      · cases goes
    unfold rounds at found
    cases greedy with
    | true => exact (orElse_eq_some found).elim again fun ends => ⟨cursor, start, ends⟩
    | false => exact (orElse_eq_some found).elim (fun ends => ⟨cursor, start, ends⟩) again

theorem run_keeps (kept : Kept holds) (start : holds cursor)
    (found : run word re cursor next = some b) : ∃ later, holds later ∧ next later = some b := by
  induction re generalizing cursor next b with
  | empty => exact ⟨cursor, start, found⟩
  | one class_ =>
    unfold run at found
    cases shape : cursor.rest with
    | nil => simp [shape] at found
    | cons a rest =>
      simp only [shape] at found
      split at found
      · exact ⟨_, kept.step cursor a rest start shape, found⟩
      · cases found
  | boundary =>
    unfold run at found
    split at found
    · exact ⟨cursor, start, found⟩
    · cases found
  | seq first second ihFirst ihSecond =>
    obtain ⟨later, middle, onward⟩ := ihFirst start found
    exact ihSecond middle onward
  | alt first second ihFirst ihSecond =>
    rcases orElse_eq_some found with one_ | other
    · exact ihFirst start one_
    · exact ihSecond start other
  | star greedy body ih =>
    exact rounds_keeps (fun cursor next b start found => ih start found) start found
  | group index body ih =>
    obtain ⟨later, middle, ends⟩ := ih start found
    exact ⟨_, kept.close cursor index later start middle, ends⟩

def Cursor.All (unit : α → Prop) (cursor : Cursor α) : Prop :=
  (∀ a ∈ cursor.rest, unit a) ∧ ∀ group ∈ cursor.groups, ∀ a ∈ group.2, unit a

theorem all_kept (unit : α → Prop) : Kept (Cursor.All unit) where
  step := by
    rintro cursor a rest ⟨units, groups⟩ shape
    exact ⟨fun b member => units b (by simp [shape, member]), groups⟩
  close := by
    rintro start index stop ⟨units, -⟩ ⟨later, groups⟩
    refine ⟨later, ?_⟩
    intro group member a inside
    rcases List.mem_cons.mp member with rfl | member
    · exact units a (List.mem_of_mem_take inside)
    · exact groups group member a inside

theorem matchAt_all {found : Cursor α} (units : ∀ a ∈ text, unit a)
    (matched : matchAt word re prev text = some found) : found.All unit := by
  obtain ⟨later, kept, same⟩ := run_keeps (all_kept unit) ⟨units, by simp⟩ matched
  cases same
  exact kept

theorem find_all {found : Cursor α} (units : ∀ a ∈ text, unit a)
    (matched : find word re prev text = some found) : found.All unit := by
  induction text generalizing prev with
  | nil => exact matchAt_all units matched
  | cons a rest ih =>
    unfold find at matched
    cases here : matchAt word re prev (a :: rest) with
    | some cursor =>
      simp only [here, Option.some.injEq] at matched
      exact matchAt_all units (matched ▸ here)
    | none =>
      simp only [here] at matched
      exact ih (fun b member => units b (List.mem_cons_of_mem a member)) matched

theorem Cursor.All.matched (all : cursor.All unit) (index : Nat) :
    ∀ a ∈ cursor.matched index, unit a := by
  intro a member
  unfold Cursor.matched at member
  cases found : cursor.groups.lookup index with
  | none => simp [found] at member
  | some group =>
    rw [found, Option.getD_some] at member
    obtain ⟨before, after, shape, -⟩ := List.lookup_eq_some_iff.mp found
    exact all.2 (index, group) (by simp [shape]) a member

theorem replaceFrom_all {new : List α → Cursor α → List α}
    (fresh : ∀ taken cursor, (∀ a ∈ taken, unit a) → cursor.All unit → ∀ a ∈ new taken cursor,
      unit a)
    {skip : Nat} (units : ∀ a ∈ text, unit a) :
    ∀ a ∈ replaceFrom word re new skip prev text, unit a := by
  induction text generalizing skip prev with
  | nil => cases skip <;> simp [replaceFrom]
  | cons b rest ih =>
    have later : ∀ a ∈ rest, unit a := fun a member => units a (List.mem_cons_of_mem b member)
    cases skip with
    | succ skip => exact ih later
    | zero =>
      intro a member
      unfold replaceFrom at member
      cases here : matchAt word re prev (b :: rest) with
      | none =>
        simp only [here, List.mem_cons] at member
        rcases member with rfl | member
        · exact units _ (by simp)
        · exact ih later a member
      | some cursor =>
        simp only [here, List.mem_append] at member
        rcases member with replaced | member
        · exact fresh _ _ (fun a member => units a (List.mem_of_mem_take member))
            (matchAt_all units here) a replaced
        · exact ih later a member

end Invariant

namespace Re

def nullable : Re α → Bool
  | .empty => true
  | .one _ => false
  | .boundary => true
  | .seq first second => first.nullable && second.nullable
  | .alt first second => first.nullable || second.nullable
  | .star _ _ => true
  | .group _ body => body.nullable

/-- A match that takes something may start with this unit. -/
def starts : Re α → α → Bool
  | .empty, _ => false
  | .one class_, a => class_ a
  | .boundary, _ => false
  | .seq first second, a => first.starts a || (first.nullable && second.starts a)
  | .alt first second, a => first.starts a || second.starts a
  | .star _ body, a => body.starts a
  | .group _ body, a => body.starts a

end Re

theorem rounds_starts {greedy : Bool} {body : Cursor α → (Cursor α → Option β) → Option β}
    {fuel : Nat} (found : rounds greedy body fuel cursor next = some b) :
    next cursor = some b ∨ ∃ onward : Cursor α → Option β,
      (∀ later, later.rest = cursor.rest → onward later = none) ∧ body cursor onward = some b := by
  cases fuel with
  | zero => exact .inl found
  | succ fuel =>
    have again : ∀ later : Cursor α, later.rest = cursor.rest →
        (if later.rest.length < cursor.rest.length then rounds greedy body fuel later next
          else none) = none := by
      intro later same
      rw [same, if_neg (Nat.lt_irrefl _)]
    unfold rounds at found
    cases greedy with
    | true =>
      rcases orElse_eq_some found with taken | over_
      · exact .inr ⟨_, again, taken⟩
      · exact .inl over_
    | false =>
      rcases orElse_eq_some found with over_ | taken
      · exact .inl over_
      · exact .inr ⟨_, again, taken⟩

theorem run_starts (found : run word re cursor next = some b) :
    (∃ a, cursor.rest.head? = some a ∧ re.starts a = true) ∨
      re.nullable = true ∧ ∃ later, later.prev = cursor.prev ∧ later.rest = cursor.rest ∧
        next later = some b := by
  induction re generalizing cursor next with
  | empty => exact .inr ⟨rfl, cursor, rfl, rfl, found⟩
  | one class_ =>
    left
    unfold run at found
    cases shape : cursor.rest with
    | nil => simp [shape] at found
    | cons a rest =>
      simp only [shape] at found
      split at found
      · next accepted => exact ⟨a, rfl, accepted⟩
      · cases found
  | boundary =>
    unfold run at found
    split at found
    · exact .inr ⟨rfl, cursor, rfl, rfl, found⟩
    · cases found
  | seq first second ihFirst ihSecond =>
    rcases ihFirst found with ⟨a, head, starts⟩ | ⟨empty, later, prev, rest, onward⟩
    · exact .inl ⟨a, head, by simp [Re.starts, starts]⟩
    · rcases ihSecond onward with ⟨a, head, starts⟩ | ⟨empty_, last, prev_, rest_, ends⟩
      · rw [rest] at head
        exact .inl ⟨a, head, by simp [Re.starts, starts, empty]⟩
      · exact .inr ⟨by simp [Re.nullable, empty, empty_], last, prev_.trans prev,
          rest_.trans rest, ends⟩
  | alt first second ihFirst ihSecond =>
    rcases orElse_eq_some found with one_ | other
    · rcases ihFirst one_ with ⟨a, head, starts⟩ | ⟨empty, later⟩
      · exact .inl ⟨a, head, by simp [Re.starts, starts]⟩
      · exact .inr ⟨by simp [Re.nullable, empty], later⟩
    · rcases ihSecond other with ⟨a, head, starts⟩ | ⟨empty, later⟩
      · exact .inl ⟨a, head, by simp [Re.starts, starts]⟩
      · exact .inr ⟨by simp [Re.nullable, empty], later⟩
  | star greedy body ih =>
    rcases rounds_starts found with over_ | ⟨onward, stuck, taken⟩
    · exact .inr ⟨rfl, cursor, rfl, rfl, over_⟩
    · rcases ih taken with starts | ⟨-, later, -, rest, goes⟩
      · exact .inl starts
      · rw [stuck later rest] at goes
        cases goes
  | group index body ih =>
    rcases ih found with starts | ⟨empty, later, prev, rest, ends⟩
    · exact .inl starts
    · exact .inr ⟨empty, cursor.close index later, prev, rest, ends⟩

theorem matchAt_eq_none {a : α} {rest : List α} (consumes : re.nullable = false)
    (cannot : re.starts a = false) :
    matchAt word re prev (a :: rest) = none := by
  cases found : matchAt word re prev (a :: rest) with
  | none => rfl
  | some cursor =>
    rcases run_starts found with ⟨first, head, starts⟩ | ⟨empty, -⟩
    · cases head
      rw [cannot] at starts
      cases starts
    · rw [consumes] at empty
      cases empty

theorem replaceFrom_copies {new : List α → Cursor α → List α} (consumes : re.nullable = false)
    {copied : List α} (cannot : ∀ a ∈ copied, re.starts a = false) (prev : Option α)
    (rest : List α) :
    replaceFrom word re new 0 prev (copied ++ rest) =
      copied ++ replaceFrom word re new 0 (copied.getLast?.or prev) rest := by
  induction copied generalizing prev with
  | nil => rfl
  | cons a copied ih =>
    rw [List.cons_append, replaceFrom, matchAt_eq_none consumes (cannot a (by simp))]
    simp only [List.cons_append, List.cons.injEq, true_and]
    rw [ih fun a member => cannot a (List.mem_cons_of_mem _ member)]
    cases copied with
    | nil => rfl
    | cons second copied =>
      rw [List.getLast?_cons_cons, List.getLast?_eq_some_getLast (List.cons_ne_nil second copied)]
      rfl

namespace Re

def uses : Re α → α → Bool
  | .empty, _ => false
  | .one class_, a => class_ a
  | .boundary, _ => false
  | .seq first second, a => first.uses a || second.uses a
  | .alt first second, a => first.uses a || second.uses a
  | .star _ body, a => body.uses a
  | .group _ body, a => body.uses a

end Re

@[simp]
theorem uses_all (res : List (Re α)) (a : α) : (Re.all res).uses a = res.any (·.uses a) := by
  induction res with
  | nil => rfl
  | cons re res ih =>
    rw [List.any_cons, ← ih]
    rfl

@[simp]
theorem uses_any (res : List (Re α)) (a : α) : (Re.any res).uses a = res.any (·.uses a) := by
  induction res with
  | nil => rfl
  | cons re res ih =>
    rw [List.any_cons, ← ih]
    cases res with
    | nil => simp [Re.any, Re.uses]
    | cons second res => rfl

def Takes (unit : α → Bool) (cursor later : Cursor α) : Prop :=
  ∃ taken, cursor.rest = taken ++ later.rest ∧ ∀ a ∈ taken, unit a = true

theorem Takes.refl {unit : α → Bool} : Takes unit cursor cursor := ⟨[], rfl, by simp⟩

theorem Takes.trans {unit : α → Bool} {middle : Cursor α} (first : Takes unit cursor middle)
    (second : Takes unit middle later) : Takes unit cursor later := by
  obtain ⟨front, shape, fronts⟩ := first
  obtain ⟨back, shape', backs⟩ := second
  refine ⟨front ++ back, by rw [shape, shape', List.append_assoc], ?_⟩
  intro a member
  rcases List.mem_append.mp member with early | late
  · exact fronts a early
  · exact backs a late

theorem Takes.mono {unit other : α → Bool} (takes : Takes unit cursor later)
    (weaker : ∀ a, unit a = true → other a = true) : Takes other cursor later := by
  obtain ⟨taken, shape, units⟩ := takes
  exact ⟨taken, shape, fun a member => weaker a (units a member)⟩

theorem Takes.length_le {unit : α → Bool} (takes : Takes unit cursor later) :
    later.rest.length ≤ cursor.rest.length := by
  obtain ⟨taken, shape, -⟩ := takes
  rw [shape, List.length_append]
  omega

theorem rounds_takes {unit : α → Bool} {greedy : Bool}
    {body : Cursor α → (Cursor α → Option β) → Option β}
    (each : ∀ cursor next b, body cursor next = some b → ∃ later, Takes unit cursor later ∧
      next later = some b)
    {fuel : Nat} {cursor : Cursor α} {next : Cursor α → Option β} {b : β}
    (found : rounds greedy body fuel cursor next = some b) :
    ∃ later, Takes unit cursor later ∧ next later = some b := by
  apply @rounds_keeps α β (Takes unit cursor) greedy body
  · intro middle next b start found
    obtain ⟨later, takes, ends⟩ := each middle next b found
    exact ⟨later, start.trans takes, ends⟩
  · exact .refl
  · exact found

theorem run_takes (found : run word re cursor next = some b) : ∃ later, Takes re.uses cursor later ∧
      (re.nullable = false → later.rest.length < cursor.rest.length) ∧ next later = some b := by
  induction re generalizing cursor next b with
  | empty => exact ⟨cursor, .refl, by simp [Re.nullable], found⟩
  | one class_ =>
    unfold run at found
    cases shape : cursor.rest with
    | nil => simp [shape] at found
    | cons a rest =>
      simp only [shape] at found
      split at found
      · next accepted =>
          refine ⟨{ cursor with prev := some a, rest }, ⟨[a], shape, ?_⟩, fun _ => ?_, found⟩
          · simpa [Re.uses] using accepted
          · simp
      · cases found
  | boundary =>
    unfold run at found
    split at found
    · exact ⟨cursor, .refl, by simp [Re.nullable], found⟩
    · cases found
  | seq first second ihFirst ihSecond =>
    obtain ⟨middle, takes, shorter, onward⟩ := ihFirst found
    obtain ⟨later, takes', shorter', ends⟩ := ihSecond onward
    have whole : Takes (Re.seq first second).uses cursor later :=
      (takes.mono fun a used => by simp [Re.uses, used]).trans
        (takes'.mono fun a used => by simp [Re.uses, used])
    refine ⟨later, whole, ?_, ends⟩
    intro consumes
    have shape := takes.length_le
    have shape' := takes'.length_le
    simp only [Re.nullable, Bool.and_eq_false_iff] at consumes
    rcases consumes with consumes | consumes
    · have := shorter consumes
      omega
    · have := shorter' consumes
      omega
  | alt first second ihFirst ihSecond =>
    rcases orElse_eq_some found with one_ | other
    · obtain ⟨later, takes, shorter, ends⟩ := ihFirst one_
      refine ⟨later, takes.mono fun a used => by simp [Re.uses, used], ?_, ends⟩
      intro consumes
      simp only [Re.nullable, Bool.or_eq_false_iff] at consumes
      exact shorter consumes.1
    · obtain ⟨later, takes, shorter, ends⟩ := ihSecond other
      refine ⟨later, takes.mono fun a used => by simp [Re.uses, used], ?_, ends⟩
      intro consumes
      simp only [Re.nullable, Bool.or_eq_false_iff] at consumes
      exact shorter consumes.2
  | star greedy body ih =>
    obtain ⟨later, takes, ends⟩ :=
      @rounds_takes α β body.uses greedy (run word body) (fun cursor next b found => by
      obtain ⟨later, takes, -, ends⟩ := ih found
      exact ⟨later, takes, ends⟩) _ cursor next b found
    exact ⟨later, takes, by simp [Re.nullable], ends⟩
  | group index body ih =>
    obtain ⟨later, takes, shorter, ends⟩ := ih found
    exact ⟨cursor.close index later, takes, shorter, ends⟩

theorem findAllFrom_parts (consumes : re.nullable = false) {skip : Nat} {part : List α}
    (member : part ∈ findAllFrom word re skip prev text) :
    part <:+: text ∧ part ≠ [] ∧ ∀ a ∈ part, re.uses a = true := by
  induction text generalizing skip prev with
  | nil => cases skip <;> simp [findAllFrom] at member
  | cons a rest ih =>
    have later {skip : Nat} (member : part ∈ findAllFrom word re skip (some a) rest) :
        part <:+: a :: rest ∧ part ≠ [] ∧ ∀ a ∈ part, re.uses a = true := by
      obtain ⟨inside, more⟩ := ih member
      exact ⟨inside.trans (List.suffix_cons a rest).isInfix, more⟩
    cases skip with
    | succ skip => exact later member
    | zero =>
      unfold findAllFrom at member
      cases here : matchAt word re prev (a :: rest) with
      | none =>
        simp only [here] at member
        exact later member
      | some cursor =>
        simp only [here, List.mem_cons] at member
        rcases member with rfl | member
        · obtain ⟨stop, ⟨taken, shape, used⟩, shorter, same⟩ := run_takes here
          cases same
          have short := shorter consumes
          simp only at shape short
          rw [shape, List.length_append, Nat.add_sub_cancel, List.take_left]
          refine ⟨(List.prefix_append _ _).isInfix, ?_, used⟩
          rintro rfl
          rw [shape] at short
          simp at short
        · exact later member

section Needs
variable {γ : Type} {f : α → γ} {keys : List (List γ)} {one two : Re α}

/-- Every match of the expression holds one of the keys, with `f` taken of its units. -/
def Needs (word : α → Bool) (f : α → γ) (keys : List (List γ)) (re : Re α) : Prop :=
  ∀ ⦃cursor : Cursor α⦄ ⦃next : Cursor α → Option (Cursor α)⦄ ⦃found⦄,
    run word re cursor next = some found → ∃ taken later, cursor.rest = taken ++ later.rest ∧
      (∃ key ∈ keys, key <:+: taken.map f) ∧ next later = some found

theorem Needs.first (needs : Needs word f keys one) : Needs word f keys (.seq one two) := by
  intro cursor next found ran
  obtain ⟨taken, middle, shape, ⟨key, among, inside⟩, onward⟩ := needs ran
  obtain ⟨later, ⟨more, shape', -⟩, -, ends⟩ := run_takes onward
  refine ⟨taken ++ more, later, by rw [shape, shape', List.append_assoc], ⟨key, among, ?_⟩, ends⟩
  rw [List.map_append]
  exact inside.trans (List.prefix_append _ _).isInfix

theorem Needs.second (needs : Needs word f keys two) : Needs word f keys (.seq one two) := by
  intro cursor next found ran
  have start : run word one cursor (fun later => run word two later next) = some found := ran
  obtain ⟨middle, ⟨before, shape, -⟩, -, onward⟩ := run_takes start
  obtain ⟨taken, later, shape', ⟨key, among, inside⟩, ends⟩ := needs onward
  refine ⟨before ++ taken, later, by rw [shape, shape', List.append_assoc], ⟨key, among, ?_⟩, ends⟩
  rw [List.map_append]
  exact inside.trans (List.suffix_append _ _).isInfix

theorem Needs.alt (left : Needs word f keys one) (right : Needs word f keys two) :
    Needs word f keys (.alt one two) :=
  fun _ _ _ ran => (orElse_eq_some ran).elim (left ·) (right ·)

theorem Needs.group {index : Nat} (needs : Needs word f keys re) :
    Needs word f keys (.group index re) := by
  intro cursor next found ran
  obtain ⟨taken, later, shape, holds, ends⟩ := needs ran
  exact ⟨taken, cursor.close index later, shape, holds, ends⟩

theorem Needs.any {res : List (Re α)} (each : ∀ re ∈ res, Needs word f keys re) :
    Needs word f keys (.any res) := by
  induction res with
  | nil =>
    intro cursor next found ran
    unfold Re.any run at ran
    split at ran <;> simp at ran
  | cons re res ih =>
    cases res with
    | nil => exact each re (by simp)
    | cons second res =>
      exact (each re (by simp)).alt (ih fun re member => each re (List.mem_cons_of_mem _ member))

/-- A row of classes that are each for one value of `f` spells these values. -/
theorem needs_spelled {δ : Type} {class_ : δ → α → Bool} {value : δ → γ}
    (exact_ : ∀ {d a}, class_ d a = true → f a = value d) {ds : List δ}
    (among : ∃ key ∈ keys, key <:+: ds.map value) :
    Needs word f keys (.all (ds.map fun d => .one (class_ d))) := by
  intro cursor next found ran
  suffices spelled : ∃ taken later, cursor.rest = taken ++ later.rest ∧
      taken.map f = ds.map value ∧ next later = some found by
    obtain ⟨taken, later, shape, same, ends⟩ := spelled
    exact ⟨taken, later, shape, same ▸ among, ends⟩
  clear among
  induction ds generalizing cursor with
  | nil => exact ⟨[], cursor, rfl, rfl, ran⟩
  | cons d ds ih =>
    cases shape : cursor.rest with
    | nil => simp [Re.all, run, shape] at ran
    | cons a rest =>
      simp only [List.map_cons, Re.all, List.foldr_cons, run, shape] at ran
      split at ran
      · next accepted =>
          obtain ⟨taken, later, shape', same, ends⟩ := ih ran
          exact ⟨a :: taken, later, by simp [← shape'], by simp [exact_ accepted, same], ends⟩
      · cases ran

theorem Needs.replaceFrom_eq (needs : Needs word f keys re) {new : List α → Cursor α → List α}
    (none_ : ∀ key ∈ keys, ¬ key <:+: text.map f) :
    replaceFrom word re new 0 prev text = text := by
  induction text generalizing prev with
  | nil => rfl
  | cons a rest ih =>
    have missing : matchAt word re prev (a :: rest) = none := by
      apply Option.eq_none_iff_forall_not_mem.mpr
      intro found matched
      obtain ⟨taken, later, shape, ⟨key, among, inside⟩, -⟩ := needs matched
      apply none_ key among
      rw [show a :: rest = taken ++ later.rest from shape, List.map_append]
      exact inside.trans (List.prefix_append _ _).isInfix
    rw [replaceFrom, missing]
    refine congrArg _ (ih fun key among inside => none_ key among ?_)
    exact inside.trans (List.suffix_cons _ _).isInfix

end Needs

end Regex
