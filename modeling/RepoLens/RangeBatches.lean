import RepoLens.RangeReading

/-!
The batch reader follows many ranges in one pass. Each range by itself goes through the lines as
the single reader does; what the other ranges ask for decides only how long the pass goes on.
-/

namespace RepoLens

open Lines

namespace BoundedRangeState

variable {query : RangeQuery} {before : List Bytes} {state : BoundedRangeState}

structure Delivered (query : RangeQuery) (before : List Bytes) (state : BoundedRangeState) :
    Prop where
  content : state.content = join newline (query.taken before)
  bytes : state.bytes = (join newline (query.taken before)).length
  hasLine : state.hasLine = decide (query.taken before ≠ [])
  done : state.done = true ↔
    (query.taken before).length < (query.selection before).length ∨
      query.requestedEnd ≤ before.length
  err : state.err =
    if (query.taken before).length < (query.selection before).length ∧
        join newline (query.taken before) = [] then some .lineTooLong
    else none

def overflows (query : RangeQuery) (line : Bytes) (tooLong : Bool) (state : BoundedRangeState) :
    Bool :=
  tooLong || decide (query.maxBytes < state.bytes + state.separatorBytes + line.length)

def received (query : RangeQuery) (lineNo : Nat) (line : Bytes) (tooLong : Bool)
    (state : BoundedRangeState) : BoundedRangeState :=
  if state.overflows query line tooLong then
    { state with done := true, err := if state.bytes = 0 then some .lineTooLong else none }
  else if query.requestedEnd ≤ lineNo then { state.append line with done := true, err := none }
  else state.append line

theorem delivered_nil (bounded : 0 < query.requestedEnd) : zero.Delivered query [] := by
  have none : query.taken [] = [] := by simp [RangeQuery.taken]
  refine ⟨?_, ?_, ?_, ?_, ?_⟩
  all_goals simp [zero, none]
  exact bounded

theorem Delivered.skip (delivered : state.Delivered query before) (proper : query.Proper)
    (bounded : 0 < query.requestedEnd) (line : Bytes)
    (passed : state.done = true ∨ ¬ query.Covers (before.length + 1)) :
    state.Delivered query (before ++ [line]) := by
  have more := RangeQuery.taken_concat proper before line
  have asked := RangeQuery.selection_concat proper before line
  have done := delivered.done
  have ordered := proper.ordered
  -- a range that is done has left a line out or has its last line behind it
  have closed : (query.taken before).length < (query.selection before).length ∨
      ¬ query.Covers (before.length + 1) := by
    rcases passed with finished | outside
    · rcases done.mp finished with short | reached
      · exact .inl short
      · right
        unfold RangeQuery.Covers
        push_cast
        omega
    · exact .inr outside
  have stays : query.taken (before ++ [line]) = query.taken before := by
    rw [more, if_neg]
    rintro ⟨inside, room, -⟩
    rcases closed with short | outside
    · omega
    · exact outside inside
  have cut : (query.taken before).length < (query.selection (before ++ [line])).length ↔
      (query.taken before).length < (query.selection before).length := by
    rw [asked]
    split
    · next inside =>
        rcases closed with short | outside
        · simp only [List.length_append, short, iff_true]
          omega
        · exact absurd inside outside
    · rw [List.append_nil]
  refine ⟨by rw [stays]; exact delivered.content, by rw [stays]; exact delivered.bytes,
    by rw [stays]; exact delivered.hasLine, ?_, ?_⟩
  · rw [stays, cut, done, List.length_append, List.length_singleton]
    constructor
    · rintro (short | reached)
      · exact .inl short
      · exact .inr (by push_cast; omega)
    · rintro (short | reached)
      · exact .inl short
      · rcases passed with finished | outside
        · exact done.mp finished
        · right
          unfold RangeQuery.Covers at outside
          push_cast at outside reached
          omega
  · rw [stays, delivered.err]
    simp only [cut]

theorem Delivered.skip_all (delivered : state.Delivered query before) (proper : query.Proper)
    (bounded : 0 < query.requestedEnd) (finished : state.done = true) (more : List Bytes) :
    state.Delivered query (before ++ more) := by
  induction more using List.reverseRecOn with
  | nil => rwa [List.append_nil]
  | append_singleton more line ih =>
    rw [← List.append_assoc]
    exact ih.skip proper bounded line (.inl finished)

theorem Delivered.receive (delivered : state.Delivered query before) (proper : query.Proper)
    (limited : 0 < query.maxBytes) (active : state.done = false)
    (inside : query.Covers (before.length + 1)) {line kept : Bytes} {tooLong : Bool}
    (held : if Within query.maxBytes line.length then tooLong = false ∧ kept = line
      else tooLong = true) :
    (state.received query (before.length + 1) kept tooLong).Delivered query (before ++ [line]) := by
  have open_ := mt delivered.done.mpr (by simp [active])
  rw [not_or] at open_
  obtain ⟨room, ahead⟩ := open_
  have same : query.taken before = query.selection before :=
    fitting_eq_of_length (Nat.not_lt.mp room)
  have asked := RangeQuery.selection_concat proper before line
  rw [if_pos inside] at asked
  have size := length_join_concat newline (query.taken before) line
  have separator : state.separatorBytes = if query.taken before = [] then 0 else 1 := by
    rw [separatorBytes, delivered.hasLine]
    by_cases none : query.taken before = [] <;> simp [none]
  -- the test of the source is on the size of the join
  have test : state.overflows query kept tooLong = true ↔
      ¬ Within query.maxBytes (join newline (query.selection before ++ [line])).length := by
    rw [← same, size, overflows]
    split at held
    · obtain ⟨rfl, rfl⟩ := held
      rw [separator, delivered.bytes, Bool.false_or, decide_eq_true_eq]
      unfold Within
      push_cast
      omega
    · next long =>
        subst held
        simp only [Bool.true_or, true_iff]
        exact fun fits => long (fits.mono (by omega))
  unfold received
  by_cases exceeds : state.overflows query kept tooLong = true
  · rw [if_pos exceeds]
    have left_out : query.taken (before ++ [line]) = query.taken before := by
      rw [RangeQuery.taken_concat proper, if_neg fun fits => test.mp exceeds fits.2.2]
    have cut : (query.taken before).length < (query.selection (before ++ [line])).length := by
      rw [asked, same]
      simp
    refine ⟨by rw [left_out]; exact delivered.content, by rw [left_out]; exact delivered.bytes,
      by rw [left_out]; exact delivered.hasLine, by simp [left_out, cut], ?_⟩
    rw [left_out]
    simp [cut, delivered.bytes]
  · have within := not_not.mp (mt test.mpr exceeds)
    have added : query.taken (before ++ [line]) = query.taken before ++ [line] := by
      rw [RangeQuery.taken_concat proper, if_pos ⟨inside, Nat.not_lt.mp room, within⟩, same]
    have whole : kept = line := by
      split at held
      · exact held.2
      · exact absurd (by simp [overflows, held]) exceeds
    have uncut : ¬ (query.taken (before ++ [line])).length <
        (query.selection (before ++ [line])).length := by
      simp [added, asked, same]
    -- content, bytes and separator grow by the line whether or not it is the last one
    have appended : (state.append kept).content = join newline (query.taken (before ++ [line])) ∧
        (state.append kept).bytes = (join newline (query.taken (before ++ [line]))).length := by
      rw [added, size, append, whole, separator, delivered.bytes]
      refine ⟨?_, by simp only; omega⟩
      by_cases none : query.taken before = []
      · simp [delivered.hasLine, delivered.content, none]
      · rw [join_concat newline none]
        simp [delivered.hasLine, delivered.content, none]
    have quiet : state.err = none := by
      rw [delivered.err, if_neg fun short => room short.1]
    rw [if_neg exceeds]
    split
    · next last =>
        refine ⟨appended.1, appended.2, by simp [append, added], ?_, ?_⟩
        · simp only [List.length_append, List.length_singleton, true_iff]
          exact .inr last
        · rw [if_neg fun short => uncut short.1]
    · next going =>
        refine ⟨appended.1, appended.2, by simp [append, added], ?_, ?_⟩
        · simp only [append, active, uncut, false_or, List.length_append, List.length_singleton]
          simpa using going
        · rw [if_neg fun short => uncut short.1]
          exact quiet

end BoundedRangeState

namespace RangesScan

variable {ranges : List LineRange} {maxBytes : Int} {scan : RangesScan}

def query (ranges : List LineRange) (maxBytes : Int) (index : Nat) : RangeQuery :=
  ⟨(rangeAt ranges index).startLine, (rangeAt ranges index).endLine, maxBytes, true⟩

def Counted (ranges : List LineRange) (scan : RangesScan) : Prop :=
  scan.completed =
    ((Finset.range ranges.length).filter fun index => (scan.states index).done = true).card

variable {index : Nat}

theorem finish_of_open (err : Option SnapshotErr) (active : (scan.states index).done = false) :
    scan.finish index err =
      { scan.setState index { scan.states index with done := true, err } with
        completed := scan.completed + 1 } := by
  simp [finish, active]

theorem deliver_eq (active : (scan.states index).done = false) :
    scan.deliver ranges maxBytes index =
      { scan.setState index ((scan.states index).received (query ranges maxBytes index)
          scan.lineNo scan.line scan.lineTooLong) with
        completed := scan.completed +
          if ((scan.states index).received (query ranges maxBytes index)
            scan.lineNo scan.line scan.lineTooLong).done then 1 else 0 } := by
  unfold deliver BoundedRangeState.received BoundedRangeState.overflows overflow query
  cases long : scan.lineTooLong with
  | true => simp [finish_of_open _ active]
  | false =>
    by_cases exceeds : maxBytes < (scan.states index).bytes +
        (scan.states index).separatorBytes + scan.line.length
    · simp [finish_of_open _ active, exceeds]
    · have still : ((scan.setState index ((scan.states index).append scan.line)).states
          index).done = false := by
        simpa [setState, BoundedRangeState.append] using active
      by_cases last : (rangeAt ranges index).endLine ≤ scan.lineNo
      · simp only [Bool.false_eq_true, if_false, exceeds, finish_of_open _ still]
        simp [setState, last]
      · simp [exceeds, setState, last, BoundedRangeState.append, active]

theorem counted_setState {state : BoundedRangeState} (counted : scan.Counted ranges)
    (inside : index < ranges.length) (active : (scan.states index).done = false) :
    { scan.setState index state with
      completed := scan.completed + if state.done then 1 else 0 }.Counted ranges := by
  unfold Counted at *
  simp only [setState, counted]
  by_cases done : state.done = true
  · -- the range joins those that are done
    rw [if_pos done, ← Finset.card_insert_of_notMem (a := index) (by simp [active])]
    congr 1
    ext other
    by_cases same : other = index
    · simp [same, inside, done]
    · simp [same]
  · rw [if_neg done, Nat.add_zero]
    congr 1
    ext other
    by_cases same : other = index
    · simp [same, active, done]
    · simp [same]

theorem foldl_deliver {active : List Nat} (distinct : active.Nodup)
    (open_ : ∀ index ∈ active, (scan.states index).done = false)
    (inside : ∀ index ∈ active, index < ranges.length) (counted : scan.Counted ranges) :
    (active.foldl (deliver ranges maxBytes) scan).Counted ranges ∧
    (active.foldl (deliver ranges maxBytes) scan).lineNo = scan.lineNo ∧
    (active.foldl (deliver ranges maxBytes) scan).waiting = scan.waiting ∧
    (active.foldl (deliver ranges maxBytes) scan).active = scan.active ∧
    ∀ index, (active.foldl (deliver ranges maxBytes) scan).states index =
      if index ∈ active then (scan.states index).received (query ranges maxBytes index)
        scan.lineNo scan.line scan.lineTooLong
      else scan.states index := by
  induction active generalizing scan with
  | nil => exact ⟨counted, rfl, rfl, rfl, fun _ => rfl⟩
  | cons first rest ih =>
    obtain ⟨fresh, distinct⟩ := List.nodup_cons.mp distinct
    have free := open_ first List.mem_cons_self
    rw [List.foldl_cons, deliver_eq free]
    have untouched (index : Nat) (member : index ∈ rest) : index ≠ first :=
      fun same => fresh (same ▸ member)
    obtain ⟨counted', lineNo, waiting, active, states⟩ := ih distinct
      (fun index member => by
        simpa [setState, untouched index member] using
          open_ index (List.mem_cons_of_mem _ member))
      (fun index member => inside index (List.mem_cons_of_mem _ member))
      (counted_setState counted (inside first List.mem_cons_self) free)
    refine ⟨counted', lineNo, waiting, active, fun index => ?_⟩
    rw [states index]
    by_cases same : index = first
    · subst same
      simp [fresh, setState]
    · simp [same, setState]

/-- The variables of the pass when the lines `before` are complete. -/
structure Tracks (ranges : List LineRange) (maxBytes : Int) (scan : RangesScan)
    (before : List Bytes) : Prop where
  lineNo : scan.lineNo = before.length + 1
  states : ∀ index < ranges.length,
    (scan.states index).Delivered (query ranges maxBytes index) before
  reached : ∀ index < ranges.length, (rangeAt ranges index).startLine ≤ before.length →
    (scan.states index).started = true
  started : ∀ index < ranges.length, (scan.states index).started = true →
    (rangeAt ranges index).startLine ≤ scan.lineNo
  unstarted : ∀ index < ranges.length, (scan.states index).started = false →
    index ∈ scan.waiting
  waiting : ∀ index ∈ scan.waiting, index < ranges.length ∧ (scan.states index).started = false
  sorted : scan.waiting.Pairwise fun i j =>
    (rangeAt ranges i).startLine ≤ (rangeAt ranges j).startLine
  distinct : (scan.active ++ scan.waiting).Nodup
  active : ∀ index ∈ scan.active, index < ranges.length ∧ (scan.states index).started = true
  wanted : ∀ index < ranges.length, (scan.states index).started = true →
    (scan.states index).done = false → (scan.lineNo : Int) ≤ (rangeAt ranges index).endLine →
    index ∈ scan.active
  counted : scan.Counted ranges

structure Admitted (ranges : List LineRange) (maxBytes : Int) (scan : RangesScan)
    (before : List Bytes) : Prop extends scan.Tracks ranges maxBytes before where
  begun : ∀ index < ranges.length, (rangeAt ranges index).startLine ≤ scan.lineNo →
    (scan.states index).started = true
  open_ : ∀ index ∈ scan.active, (scan.states index).done = false ∧
    (scan.lineNo : Int) ≤ (rangeAt ranges index).endLine

theorem mem_takeWhile_of_sorted {key : Nat → Int} {list : List Nat} {bound : Int}
    (sorted : list.Pairwise fun i j => key i ≤ key j) (member : index ∈ list)
    (le : key index ≤ bound) : index ∈ list.takeWhile fun i => decide (key i ≤ bound) := by
  induction list with
  | nil => exact member
  | cons first rest ih =>
    obtain ⟨least, sorted⟩ := List.pairwise_cons.mp sorted
    have head : key first ≤ bound := by
      rcases List.mem_cons.mp member with rfl | later
      · exact le
      · exact (least index later).trans le
    rw [List.takeWhile_cons_of_pos (by simpa using head)]
    rcases List.mem_cons.mp member with rfl | later
    · exact List.mem_cons_self
    · exact List.mem_cons_of_mem _ (ih sorted later)

def starting (ranges : List LineRange) (scan : RangesScan) : List Nat :=
  scan.waiting.takeWhile fun index =>
    decide ((rangeAt ranges index).startLine ≤ scan.lineNo)

theorem enlist_started (index : Nat) :
    ((scan.enlist ranges).states index).started =
      (decide (index ∈ scan.starting ranges) || (scan.states index).started) := by
  simp only [enlist, starting]
  split <;> simp [*]

theorem enlist_done (index : Nat) :
    ((scan.enlist ranges).states index).done = (scan.states index).done := by
  simp only [enlist]
  split <;> rfl

theorem enlist_delivered {query : RangeQuery} {before : List Bytes}
    (delivered : (scan.states index).Delivered query before) :
    ((scan.enlist ranges).states index).Delivered query before := by
  simp only [enlist]
  split
  · exact { delivered with }
  · exact delivered

theorem mem_enlist_active :
    index ∈ (scan.enlist ranges).active ↔
      (index ∈ scan.active ∨ index ∈ scan.starting ranges) ∧
        (scan.states index).done = false ∧
        (scan.lineNo : Int) ≤ (rangeAt ranges index).endLine := by
  change index ∈ (scan.active ++ scan.starting ranges).filter
    (fun i => !((scan.enlist ranges).states i).done &&
      decide ((scan.lineNo : Int) ≤ (rangeAt ranges i).endLine)) ↔ _
  simp [enlist_done, List.mem_filter, or_and_right]

theorem Tracks.enlist {before : List Bytes} (tracks : scan.Tracks ranges maxBytes before) :
    (scan.enlist ranges).Admitted ranges maxBytes before := by
  have parts : scan.waiting = scan.starting ranges ++ (scan.enlist ranges).waiting :=
    List.takeWhile_append_dropWhile.symm
  have due {index : Nat} (member : index ∈ scan.starting ranges) :
      (rangeAt ranges index).startLine ≤ scan.lineNo := by
    simpa using List.mem_takeWhile_imp member
  have separate := tracks.distinct
  rw [parts, ← List.append_assoc] at separate
  refine { lineNo := tracks.lineNo, states := ?_, reached := ?_, started := ?_, unstarted := ?_,
           waiting := ?_, sorted := ?_, distinct := ?_, active := ?_, wanted := ?_, counted := ?_,
           begun := ?_, open_ := ?_ }
  · exact fun index inside => enlist_delivered (tracks.states index inside)
  · intro index inside early
    simp [enlist_started, tracks.reached index inside early]
  · intro index inside
    rw [enlist_started, Bool.or_eq_true, decide_eq_true_eq]
    rintro (member | before)
    · exact due member
    · exact tracks.started index inside before
  · intro index inside
    rw [enlist_started, Bool.or_eq_false_iff, decide_eq_false_iff_not]
    rintro ⟨absent, idle⟩
    have member := tracks.unstarted index inside idle
    rw [parts, List.mem_append] at member
    exact member.resolve_left absent
  · intro index member
    have waits : index ∈ scan.waiting := parts ▸ List.mem_append_right _ member
    obtain ⟨inside, idle⟩ := tracks.waiting index waits
    refine ⟨inside, ?_⟩
    rw [enlist_started, idle, Bool.or_false, decide_eq_false_iff_not]
    intro early
    exact (List.nodup_append.mp separate).2.2 index (List.mem_append_right _ early) index member rfl
  · exact tracks.sorted.sublist (List.dropWhile_sublist _)
  · exact separate.sublist (List.filter_sublist.append (List.Sublist.refl _))
  · intro index member
    obtain ⟨early | late, -⟩ := mem_enlist_active.mp member
    · obtain ⟨inside, begun⟩ := tracks.active index early
      exact ⟨inside, by simp [enlist_started, begun]⟩
    · exact ⟨(tracks.waiting index (parts ▸ List.mem_append_left _ late)).1,
        by simp [enlist_started, late]⟩
  · intro index inside
    rw [enlist_started, enlist_done, Bool.or_eq_true, decide_eq_true_eq]
    rintro begun idle ahead
    refine mem_enlist_active.mpr ⟨?_, idle, ahead⟩
    rcases begun with member | before
    · exact .inr member
    · exact .inl (tracks.wanted index inside before idle ahead)
  · have counted := tracks.counted
    unfold Counted at counted ⊢
    simp only [enlist_done]
    exact counted
  · intro index inside early
    rw [enlist_started, Bool.or_eq_true, decide_eq_true_eq]
    cases begun : (scan.states index).started with
    | true => exact .inr rfl
    | false =>
      exact .inl (mem_takeWhile_of_sorted tracks.sorted
        (tracks.unstarted index inside begun) early)
  · intro index member
    rw [enlist_done]
    exact (mem_enlist_active.mp member).2

def Wanted (ranges : List LineRange) (maxBytes : Int) (scan : RangesScan) : Prop :=
  ∃ index < ranges.length, (scan.states index).done = false ∧
    (query ranges maxBytes index).Covers scan.lineNo

/-- The current line as far as it was read. -/
def Holds (ranges : List LineRange) (maxBytes : Int) (scan : RangesScan) (pending : Bytes) :
    Prop :=
  (scan.Wanted ranges maxBytes →
    if Within maxBytes pending.length then scan.lineTooLong = false ∧ scan.line = pending
    else scan.lineTooLong = true) ∧
  (¬ scan.Wanted ranges maxBytes → scan.lineTooLong = false ∧ scan.line = [])

/-- The ranges of the list are ones that `ReadFileRangesBounded` passes on. -/
structure Proper (ranges : List LineRange) (maxBytes : Int) : Prop where
  limited : 0 < maxBytes
  ordered : ∀ range ∈ ranges, 1 ≤ range.startLine ∧ range.startLine ≤ range.endLine

variable {before : List Bytes} {pending : Bytes}

theorem rangeAt_mem (inside : index < ranges.length) :
    rangeAt ranges index ∈ ranges := by
  rw [rangeAt, List.getD_eq_getElem _ _ inside]
  exact List.getElem_mem inside

theorem Proper.query (proper : Proper ranges maxBytes) (inside : index < ranges.length) :
    (query ranges maxBytes index).Proper ∧ 0 < (query ranges maxBytes index).requestedEnd := by
  obtain ⟨start, ordered⟩ := proper.ordered _ (rangeAt_mem inside)
  exact ⟨⟨start, .inr ordered⟩, by simp only [RangesScan.query]; omega⟩

theorem Admitted.mem_active_iff (proper : Proper ranges maxBytes)
    (admitted : scan.Admitted ranges maxBytes before) :
    index ∈ scan.active ↔ index < ranges.length ∧ (scan.states index).done = false ∧
      (RangesScan.query ranges maxBytes index).Covers scan.lineNo := by
  constructor
  · intro member
    obtain ⟨inside, begun⟩ := admitted.active index member
    obtain ⟨idle, ahead⟩ := admitted.open_ index member
    exact ⟨inside, idle, admitted.started index inside begun, .inr ahead⟩
  · rintro ⟨inside, idle, early, unbounded | ahead⟩
    · exact absurd unbounded (not_le.mpr (proper.query inside).2)
    · exact admitted.wanted index inside (admitted.begun index inside early) idle ahead

theorem Admitted.active_ne_nil_iff (proper : Proper ranges maxBytes)
    (admitted : scan.Admitted ranges maxBytes before) :
    scan.active ≠ [] ↔ scan.Wanted ranges maxBytes := by
  constructor
  · intro some
    obtain ⟨index, member⟩ := List.exists_mem_of_ne_nil _ some
    exact ⟨index, (admitted.mem_active_iff proper).mp member⟩
  · rintro ⟨index, waits⟩
    exact List.ne_nil_of_mem ((admitted.mem_active_iff proper).mpr waits)

theorem holds_nil (fresh : scan.lineTooLong = false) (empty : scan.line = []) :
    scan.Holds ranges maxBytes [] := by
  refine ⟨fun _ => ?_, fun _ => ⟨fresh, empty⟩⟩
  rw [List.length_nil, if_pos (Within.zero maxBytes)]
  exact ⟨fresh, empty⟩

theorem Holds.enlist (holds : scan.Holds ranges maxBytes pending) :
    (scan.enlist ranges).Holds ranges maxBytes pending := by
  have same : (scan.enlist ranges).Wanted ranges maxBytes ↔ scan.Wanted ranges maxBytes := by
    unfold Wanted
    simp only [enlist_done]
    rfl
  unfold Holds at *
  rw [same]
  exact holds

theorem Admitted.collect (proper : Proper ranges maxBytes)
    (admitted : scan.Admitted ranges maxBytes before)
    (holds : scan.Holds ranges maxBytes pending) (part : Bytes) :
    (scan.collect maxBytes part).Admitted ranges maxBytes before ∧
      (scan.collect maxBytes part).Holds ranges maxBytes (pending ++ part) := by
  have wanted := admitted.active_ne_nil_iff proper
  have limited := proper.limited
  unfold RangesScan.collect
  by_cases waits : scan.Wanted ranges maxBytes
  · have kept := holds.1 waits
    by_cases short : Within maxBytes pending.length
    · rw [if_pos short] at kept
      rw [if_pos ⟨wanted.mpr waits, kept.1⟩, kept.2]
      by_cases fits : Within maxBytes (pending ++ part).length
      · have room : ¬ maxBytes < pending.length + part.length := by
          rw [List.length_append] at fits
          unfold Within at fits
          push_cast at fits
          omega
        rw [if_neg room]
        refine ⟨{ admitted with }, fun _ => ?_, fun idle => absurd waits idle⟩
        rw [if_pos fits]
        exact ⟨kept.1, rfl⟩
      · have exceeds : maxBytes < pending.length + part.length := by
          rw [List.length_append] at fits
          unfold Within at fits
          push_cast at fits
          omega
        rw [if_pos exceeds]
        refine ⟨{ admitted with }, fun _ => ?_, fun idle => absurd waits idle⟩
        rw [if_neg fits]
    · rw [if_neg short] at kept
      rw [if_neg (by simp [kept])]
      refine ⟨admitted, fun _ => ?_, fun idle => absurd waits idle⟩
      rw [if_neg fun fits => short (fits.mono (by simp))]
      exact kept
  · rw [if_neg fun some => waits (wanted.mp some.1)]
    exact ⟨admitted, fun waits' => absurd waits' waits, holds.2⟩

theorem Admitted.complete (proper : Proper ranges maxBytes)
    (admitted : scan.Admitted ranges maxBytes before) (holds : scan.Holds ranges maxBytes pending) :
    (scan.complete ranges maxBytes).nextLine.Tracks ranges maxBytes (before ++ [pending]) ∧
      ∀ index < ranges.length, ((scan.complete ranges maxBytes).states index).started = true →
        (rangeAt ranges index).startLine ≤ (before ++ [pending]).length := by
  have separate := List.nodup_append.mp admitted.distinct
  obtain ⟨counted, lineNo, waiting, active, states⟩ := @foldl_deliver ranges maxBytes scan
    scan.active separate.1 (fun index member => (admitted.open_ index member).1)
    (fun index member => (admitted.active index member).1) admitted.counted
  -- the flag `started` of a range is left alone
  have flags (index : Nat) : ((scan.active.foldl (deliver ranges maxBytes) scan).states
      index).started = (scan.states index).started := by
    rw [states index]
    split
    · unfold BoundedRangeState.received
      split
      · rfl
      · split <;> rfl
    · rfl
  have now := admitted.lineNo
  refine ⟨?_, fun index inside begun => ?_⟩
  rotate_left
  · have early := admitted.started index inside ((flags index).symm.trans begun)
    rw [now] at early
    rwa [List.length_append, List.length_singleton]
  refine { lineNo := ?_, states := ?_, reached := ?_, started := ?_, unstarted := ?_,
           waiting := ?_, sorted := ?_, distinct := ?_, active := ?_, wanted := ?_,
           counted := counted }
  · simp [RangesScan.complete, nextLine, lineNo, now]
  · intro index inside
    obtain ⟨ranged, bounded⟩ := proper.query inside
    change ((scan.active.foldl (deliver ranges maxBytes) scan).states index).Delivered _ _
    rw [states index]
    have delivered := admitted.states index inside
    split
    · next member =>
        have waits := (admitted.mem_active_iff proper).mp member
        rw [now] at waits ⊢
        refine delivered.receive ranged proper.limited waits.2.1 waits.2.2 ?_
        have kept := holds.1 ⟨index, (admitted.mem_active_iff proper).mp member⟩
        split
        · next short =>
            rw [if_pos (by exact short)] at kept
            exact kept
        · next long =>
            rw [if_neg (by exact long)] at kept
            exact kept
    · next absent =>
        apply delivered.skip ranged bounded
        by_contra neither
        rw [not_or, not_not, Bool.not_eq_true] at neither
        exact absent ((admitted.mem_active_iff proper).mpr ⟨inside, neither.1, now ▸ neither.2⟩)
  · intro index inside early
    rw [List.length_append, List.length_singleton] at early
    exact (flags index).trans (admitted.begun index inside (by rw [now]; exact early))
  · intro index inside begun
    have early := admitted.started index inside ((flags index).symm.trans begun)
    simp only [RangesScan.complete, nextLine, lineNo]
    push_cast
    omega
  · intro index inside idle
    change index ∈ (scan.active.foldl (deliver ranges maxBytes) scan).waiting
    rw [waiting]
    exact admitted.unstarted index inside ((flags index).symm.trans idle)
  · intro index member
    change index ∈ (scan.active.foldl (deliver ranges maxBytes) scan).waiting at member
    rw [waiting] at member
    obtain ⟨inside, idle⟩ := admitted.waiting index member
    exact ⟨inside, (flags index).trans idle⟩
  · change (scan.active.foldl (deliver ranges maxBytes) scan).waiting.Pairwise _
    rw [waiting]
    exact admitted.sorted
  · change ((scan.active.foldl (deliver ranges maxBytes) scan).active ++
      (scan.active.foldl (deliver ranges maxBytes) scan).waiting).Nodup
    rw [waiting, active]
    exact admitted.distinct
  · intro index member
    change index ∈ (scan.active.foldl (deliver ranges maxBytes) scan).active at member
    rw [active] at member
    obtain ⟨inside, begun⟩ := admitted.active index member
    exact ⟨inside, (flags index).trans begun⟩
  · intro index inside begun idle ahead
    change index ∈ (scan.active.foldl (deliver ranges maxBytes) scan).active
    change ((scan.active.foldl (deliver ranges maxBytes) scan).states index).done = false at idle
    rw [active]
    rw [states index] at idle
    by_contra absent
    rw [if_neg absent] at idle
    simp only [RangesScan.complete, nextLine, lineNo] at ahead
    push_cast at ahead
    exact absent (admitted.wanted index inside ((flags index).symm.trans begun) idle (by omega))

structure Finished (ranges : List LineRange) (maxBytes : Int) (scan : RangesScan)
    (lines : List Bytes) : Prop where
  states : ∀ index < ranges.length,
    (scan.states index).Delivered (RangesScan.query ranges maxBytes index) lines
  started : ∀ index < ranges.length, ((scan.states index).started = true ↔
    (rangeAt ranges index).startLine ≤ lines.length)
  total : ∀ index < ranges.length, (scan.states index).started = false →
    scan.lineNo = lines.length

theorem Tracks.finished_of_completed (proper : Proper ranges maxBytes)
    (tracks : scan.Tracks ranges maxBytes before) (all : scan.completed = ranges.length)
    (more : List Bytes) : scan.Finished ranges maxBytes (before ++ more) := by
  have done (index : Nat) (inside : index < ranges.length) :
      (scan.states index).done = true := by
    have whole := tracks.counted
    unfold Counted at whole
    rw [all] at whole
    have full := Finset.card_filter_eq_iff.mp (whole.symm.trans (Finset.card_range _).symm)
    exact full index (Finset.mem_range.mpr inside)
  have early (index : Nat) (inside : index < ranges.length) :
      (rangeAt ranges index).startLine ≤ before.length := by
    rcases (tracks.states index inside).done.mp (done index inside) with short | reached
    · by_contra beyond
      rw [RangeQuery.selection_eq_nil_of_lt (not_le.mp beyond)] at short
      exact absurd short (Nat.not_lt_zero _)
    · exact (proper.ordered _ (rangeAt_mem inside)).2.trans reached
  have begun (index : Nat) (inside : index < ranges.length) :
      (scan.states index).started = true :=
    tracks.reached index inside (early index inside)
  refine ⟨fun index inside => ?_, fun index inside => ?_, fun index inside idle => ?_⟩
  · obtain ⟨ranged, bounded⟩ := proper.query inside
    exact (tracks.states index inside).skip_all ranged bounded (done index inside) more
  · have before_ := early index inside
    rw [begun index inside, List.length_append]
    simp only [true_iff]
    push_cast
    omega
  · rw [begun index inside] at idle
    cases idle

theorem scanRanges_finishes (proper : Proper ranges maxBytes) {reader : Reader} {content : Bytes}
    (reads : reader.Reads content) (tracks : scan.Tracks ranges maxBytes before)
    (holds : scan.Holds ranges maxBytes pending) (plain : newline ∉ pending) :
    ∃ last, scanRanges ranges maxBytes reader scan = .ok last ∧
      last.Finished ranges maxBytes (before ++ (pending ++ content).splitOn newline) := by
  induction reads generalizing scan before pending with
  | @eof part free =>
    obtain ⟨admitted, held⟩ := tracks.enlist.collect proper holds.enlist part
    obtain ⟨tracked, begun⟩ := admitted.complete proper held
    rw [splitOn_last newline plain free]
    refine ⟨_, rfl, tracked.states, fun index inside => ⟨begun index inside, ?_⟩, ?_⟩
    · exact tracked.reached index inside
    · intro index inside idle
      simpa [nextLine] using tracked.lineNo
  | @line part content rest free reads ih =>
    obtain ⟨admitted, held⟩ := tracks.enlist.collect proper holds.enlist part
    obtain ⟨tracked, -⟩ := admitted.complete proper held
    have whole : before ++ (pending ++ (part ++ newline :: content)).splitOn newline =
        (before ++ [pending ++ part]) ++ content.splitOn newline := by
      rw [splitOn_line newline plain free, List.append_assoc, List.singleton_append]
    rw [whole, scanRanges]
    split
    · next all => exact ⟨_, rfl, tracked.finished_of_completed proper all _⟩
    · have continues := ih tracked (holds_nil rfl rfl) List.not_mem_nil
      rwa [List.nil_append] at continues
  | @full part content rest free reads ih =>
    obtain ⟨admitted, held⟩ := tracks.enlist.collect proper holds.enlist part
    rw [scanRanges, ← List.append_assoc]
    exact ih admitted.toTracks held (by simp [plain, free])

theorem sorted_order (ranges : List LineRange) :
    (order ranges).Pairwise fun i j =>
      (rangeAt ranges i).startLine ≤ (rangeAt ranges j).startLine := by
  have : Std.Total fun i j => (rangeAt ranges i).startLine ≤ (rangeAt ranges j).startLine :=
    ⟨fun i j => le_total _ _⟩
  have : IsTrans Nat fun i j => (rangeAt ranges i).startLine ≤ (rangeAt ranges j).startLine :=
    ⟨fun i j k => le_trans⟩
  exact List.pairwise_insertionSort _ _

theorem mem_order : index ∈ order ranges ↔ index < ranges.length := by
  rw [order, List.mem_insertionSort, List.mem_range]

theorem tracks_init (proper : Proper ranges maxBytes) :
    (init ranges).Tracks ranges maxBytes [] := by
  refine { lineNo := rfl, states := ?_, reached := ?_, started := ?_, unstarted := ?_,
           waiting := ?_, sorted := sorted_order ranges, distinct := ?_, active := ?_,
           wanted := ?_, counted := ?_ }
  · intro index inside
    obtain ⟨ranged, bounded⟩ := proper.query inside
    exact BoundedRangeState.delivered_nil bounded
  · intro index inside early
    have start := (proper.ordered _ (rangeAt_mem inside)).1
    rw [List.length_nil] at early
    omega
  · intro index _ begun
    cases begun
  · exact fun index inside _ => mem_order.mpr inside
  · exact fun index member => ⟨mem_order.mp member, rfl⟩
  · rw [init, List.nil_append]
    exact ((List.perm_insertionSort _ _).nodup_iff).mpr List.nodup_range
  · intro index member
    cases member
  · intro index _ begun
    cases begun
  · simp [Counted, init, BoundedRangeState.zero]

end RangesScan

def RangeQuery.batched (query : RangeQuery) (lines : List Bytes) : BoundedLineRangeResult where
  content := join newline (query.taken lines)
  err :=
    if (lines.length : Int) < query.startLine then
      some (.message (rangeText query.startLine query.requestedEnd ++
        " (total lines " ++ toString lines.length ++ ")"))
    else if (query.taken lines).length < (query.selection lines).length ∧
        join newline (query.taken lines) = [] then some .lineTooLong
    else none

theorem readBoundedRanges_eq {ranges : List LineRange} {maxBytes : Int}
    (proper : RangesScan.Proper ranges maxBytes) {reader : Reader} {content : Bytes}
    (reads : reader.Reads content) :
    readBoundedRanges reader ranges maxBytes =
      .ok (ranges.map fun range =>
        RangeQuery.batched ⟨range.startLine, range.endLine, maxBytes, true⟩
          (content.splitOn newline)) := by
  unfold readBoundedRanges
  split
  · next none => simp [none]
  · obtain ⟨last, ends, finished⟩ := RangesScan.scanRanges_finishes proper reads
      (RangesScan.tracks_init proper) (RangesScan.holds_nil rfl rfl) List.not_mem_nil
    rw [List.nil_append, List.nil_append] at finished
    rw [ends]
    simp only [Except.map, Except.ok.injEq]
    apply List.ext_getElem (by simp)
    intro index inside _
    rw [List.length_map, List.length_range] at inside
    have at_ : RangesScan.rangeAt ranges index = ranges[index] := by
      rw [RangesScan.rangeAt, List.getD_eq_getElem _ _ inside]
    have delivered := finished.states index inside
    simp only [RangesScan.query, at_] at delivered
    simp only [List.getElem_map, List.getElem_range, RangesScan.result, RangeQuery.batched, at_,
      delivered.content, delivered.err, BoundedLineRangeResult.mk.injEq, true_and]
    have begun := finished.started index inside
    rw [at_] at begun
    cases started : (last.states index).started with
    | true =>
      rw [if_pos rfl, if_neg (not_lt.mpr (begun.mp started))]
    | false =>
      have beyond : ((content.splitOn newline).length : Int) < ranges[index].startLine := by
        by_contra inside_
        rw [begun.mpr (not_lt.mp inside_)] at started
        cases started
      rw [if_neg Bool.false_ne_true, if_pos beyond, finished.total index inside started]

/-- The kinds of errors that callers tell apart. -/
inductive RangeErrClass where
  | none | lineTooLong | pastEnd
  deriving DecidableEq, Repr

def SnapshotErr.rangeClass : SnapshotErr → RangeErrClass
  | .lineTooLong => .lineTooLong
  | .message _ => .pastEnd

def BoundedLineRangeResult.seen (result : BoundedLineRangeResult) : Bytes × RangeErrClass :=
  (result.content, (result.err.map SnapshotErr.rangeClass).getD .none)

def rangeSeen : Except SnapshotErr FileRange → Bytes × RangeErrClass
  | .ok range => (range.content, .none)
  | .error err => ([], err.rangeClass)

def RangeQuery.BlankThenLong (query : RangeQuery) (lines : List Bytes) : Prop :=
  ∃ second rest, query.selection lines = [] :: second :: rest ∧
    query.maxBytes < 1 + second.length

theorem RangeQuery.blankThenLong_iff {query : RangeQuery} {lines : List Bytes}
    (limited : 0 < query.maxBytes) :
    query.BlankThenLong lines ↔ query.taken lines ≠ [] ∧
      (query.taken lines).length < (query.selection lines).length ∧
      join newline (query.taken lines) = [] := by
  unfold BlankThenLong taken
  generalize query.selection lines = asked
  have within (size : Nat) : Within query.maxBytes size ↔ (size : Int) ≤ query.maxBytes := by
    unfold Within
    omega
  constructor
  · rintro ⟨second, rest, rfl, exceeds⟩
    have first : Within query.maxBytes 0 := Within.zero _
    have next : ¬ Within query.maxBytes (1 + second.length) := by
      rw [within]
      push_cast
      omega
    simp [fitting, fittingFrom, first, next]
  · rintro ⟨some, short, empty⟩
    obtain ⟨first, rest, rfl⟩ : ∃ first rest, asked = first :: rest := by
      cases asked with
      | nil => exact absurd rfl some
      | cons first rest => exact ⟨first, rest, rfl⟩
    have begins : Within query.maxBytes first.length := by
      by_contra long
      simp [fitting, fittingFrom, long] at some
    rw [fitting, fittingFrom, Nat.zero_add, if_pos begins] at short empty
    obtain ⟨rfl, stops⟩ := (join_cons_eq_nil newline).mp empty
    rw [stops] at short
    cases rest with
    | nil => simp at short
    | cons second rest =>
      refine ⟨second, rest, rfl, ?_⟩
      rw [fittingFrom] at stops
      split at stops
      · cases stops
      · next long =>
          rw [within] at long
          simp only [List.length_nil] at long
          push_cast at long
          omega

theorem RangeQuery.batched_seen_iff {query : RangeQuery} (limited : 0 < query.maxBytes)
    (lines : List Bytes) (path text : String) :
    (query.batched lines).seen = rangeSeen
        (if (lines.length : Int) < query.startLine then .error (.message text)
        else if query.taken lines = [] ∧ query.selection lines ≠ [] then .error .lineTooLong
        else .ok (query.found path lines)) ↔ ¬ query.BlankThenLong lines := by
  rw [blankThenLong_iff limited]
  by_cases beyond : (lines.length : Int) < query.startLine
  · have none : query.taken lines = [] := by
      simp [taken, selection_eq_nil_of_lt beyond]
    simp [batched, BoundedLineRangeResult.seen, rangeSeen, beyond, none, SnapshotErr.rangeClass]
  · by_cases long : query.taken lines = [] ∧ query.selection lines ≠ []
    · have some : 0 < (query.selection lines).length := List.length_pos_iff.mpr long.2
      simp [batched, BoundedLineRangeResult.seen, rangeSeen, beyond, long, some,
        SnapshotErr.rangeClass]
    · -- both readers return the lines; they differ in the error that goes with them
      have begun (short : (query.taken lines).length < (query.selection lines).length) :
          query.taken lines ≠ [] := by
        intro none
        refine long ⟨none, fun empty => ?_⟩
        rw [empty] at short
        exact absurd short (Nat.not_lt_zero _)
      simp only [batched, BoundedLineRangeResult.seen, rangeSeen, beyond, long, found, if_false,
        Prod.mk.injEq, true_and]
      by_cases cut : (query.taken lines).length < (query.selection lines).length ∧
          join newline (query.taken lines) = []
      · simp [cut, begun cut.1, SnapshotErr.rangeClass]
      · rw [if_neg cut]
        simp only [Option.map_none, Option.getD_none, true_iff]
        exact fun blank => cut blank.2

/-- The batch reader returns the content and the kind of error of the single reader, except where a
range starts with an empty line and the next line does not fit. -/
theorem readBoundedRanges_agrees {content : Bytes} {reader : Reader} {ranges : List LineRange}
    {maxBytes : Int} (reads : reader.Reads content) (limited : 0 < maxBytes)
    (ordered : ∀ range ∈ ranges, 1 ≤ range.startLine ∧ range.startLine ≤ range.endLine) :
    ∃ results, readBoundedRanges reader ranges maxBytes = .ok results ∧
      List.Forall₂ (fun range result => ∀ alone path, alone.Reads content →
        (result.seen = rangeSeen
            (readRange alone path range.startLine range.endLine maxBytes true) ↔
          ¬ RangeQuery.BlankThenLong ⟨range.startLine, range.endLine, maxBytes, true⟩
            (content.splitOn newline))) ranges results := by
  refine ⟨_, readBoundedRanges_eq ⟨limited, ordered⟩ reads, ?_⟩
  rw [List.forall₂_map_right_iff, List.forall₂_same]
  intro range member alone path others
  obtain ⟨start, ends⟩ := ordered range member
  have single := @readRange_eq ⟨range.startLine, range.endLine, maxBytes, true⟩
    ⟨start, .inr ends⟩ alone content others path
  simp only at single
  rw [single]
  exact RangeQuery.batched_seen_iff limited _ path _

/-- A file with an empty first line and three bytes in the second, read with a limit of
three bytes. -/
theorem readBoundedRanges_blank_first_line :
    (Reader.line [] (.eof [97, 98, 99])).Reads [10, 97, 98, 99] ∧
    readBoundedRanges (.line [] (.eof [97, 98, 99])) [⟨1, 2⟩] 3 =
      .ok [⟨[], some .lineTooLong⟩] ∧
    readRange (.line [] (.eof [97, 98, 99])) "main.go" 1 2 3 true =
      .ok ⟨"main.go", 1, 1, 2, [], true⟩ :=
  ⟨.line (by decide) (.eof (by decide)), by decide, by decide⟩

theorem readBoundedRanges_agrees_two_ranges :
    ∃ results, readBoundedRanges (.line [97] (.eof [98])) [⟨2, 2⟩, ⟨1, 2⟩] 3 = .ok results ∧
      List.Forall₂ (fun (range : LineRange) result => ∀ alone path, alone.Reads [97, 10, 98] →
        (result.seen = rangeSeen
            (readRange alone path range.startLine range.endLine 3 true) ↔
          ¬ RangeQuery.BlankThenLong ⟨range.startLine, range.endLine, 3, true⟩
            [[97], [98]])) [⟨2, 2⟩, ⟨1, 2⟩] results :=
  readBoundedRanges_agrees (.line (by decide) (.eof (by decide))) (by decide) (by decide)

end RepoLens
