import RepoLens.ExpansionPlacement

/-!
The list that comes out of the structural expansion. The comparison of the merged results is a
strict weak order and tells all of them apart, so there is one list for every order of the
store's rows and every sort.
-/

namespace RepoLens

open Utf8 Ranking
open Evidence (ExpansionReason ExpansionResultTrace)

namespace Retrieval

theorem ExpansionCandidate.less_weakOrder : WeakOrder ExpansionCandidate.less := by
  have byReason := weakOrder_key fun c : ExpansionCandidate => c.reasonCode
  have byConfidence := byReason.lex fun c : ExpansionCandidate => OrderDual.toDual c.confidence
  have byHash := byConfidence.lex fun c : ExpansionCandidate => c.symbol.symbolKeyHash
  exact byHash.lex fun c : ExpansionCandidate => relationPriority c.relationType.text

theorem ExpansionCandidate.eq_of_not_less {buildID : Int} {a b : ExpansionCandidate}
    (valid : a.valid buildID = true) (valid_ : b.valid buildID = true)
    (determined : a.symbol.codeIndexBuildID = b.symbol.codeIndexBuildID →
      a.symbol.symbolKeyHash = b.symbol.symbolKeyHash → a.symbol = b.symbol)
    (before : a.less b = false) (after : b.less a = false) : a = b := by
  have sound {c : ExpansionCandidate} (valid : c.valid buildID = true) :
      c.symbol.codeIndexBuildID = buildID ∧ c.resolutionKind = .semantic ∧
        ((c.relationType = .callCandidate ∧ c.direction = .forward) ∨
          c.relationType = .testRelation ∧ c.direction = .reverse) := by
    unfold ExpansionCandidate.valid at valid
    simp only at valid
    split at valid
    · cases valid
    · next fields =>
        simp only [not_or, not_not] at fields
        refine ⟨fields.2.1, fields.2.2.2.2.2.2.2.2.1, ?_⟩
        simp only [Bool.or_eq_true, Bool.and_eq_true, decide_eq_true_eq] at valid
        exact valid.imp_right (·.1)
  have keys : relationPriority a.relationType.text = relationPriority b.relationType.text ∧
      a.symbol.symbolKeyHash = b.symbol.symbolKeyHash ∧ a.confidence = b.confidence ∧
        a.reasonCode = b.reasonCode := by
    unfold ExpansionCandidate.less at before after
    grind
  obtain ⟨build, kind, use⟩ := sound valid
  obtain ⟨build_, kind_, use_⟩ := sound valid_
  have symbol := determined (build.trans build_.symm) keys.2.1
  have relation : a.relationType = b.relationType ∧ a.direction = b.direction := by
    rcases use with ⟨call, forward⟩ | ⟨test, reverse⟩ <;>
      rcases use_ with ⟨call_, forward_⟩ | ⟨test_, reverse_⟩
    · exact ⟨call.trans call_.symm, forward.trans forward_.symm⟩
    · exact absurd keys.1 (by rw [call, test_]; decide)
    · exact absurd keys.1 (by rw [test, call_]; decide)
    · exact ⟨test.trans test_.symm, reverse.trans reverse_.symm⟩
  obtain ⟨_, _, _, _, _, _⟩ := a
  obtain ⟨_, _, _, _, _, _⟩ := b
  simp only [ExpansionCandidate.mk.injEq] at *
  exact ⟨symbol, relation.1, relation.2, kind.trans kind_.symm, keys.2.2⟩

namespace ExpansionResult

variable {K : Type}

def reasonPlace (reason : ExpansionReason) : Int ×ₗ Nat :=
  toLex (reason.seedBM25Rank, relationPriority reason.relationType)

theorem better_eq (one two : ExpansionReason) :
    betterExpansionReason one two = decide (reasonPlace one < reasonPlace two) := by
  unfold betterExpansionReason reasonPlace
  by_cases same : one.seedBM25Rank = two.seedBM25Rank <;> simp [same, Prod.Lex.toLex_lt_toLex]

def seedPlace (result : ExpansionResult K) : Int ×ₗ Nat :=
  if result.trace.expanded then reasonPlace (result.trace.bestSeed.getD default) else toLex (0, 0)

theorem less_eq (one two : ExpansionResult K) : one.less two =
    if one.trace.effectiveRank ≠ two.trace.effectiveRank then
      decide (one.trace.effectiveRank < two.trace.effectiveRank)
    else if one.trace.expanded ≠ two.trace.expanded then
      decide (one.trace.expanded < two.trace.expanded)
    else if one.seedPlace ≠ two.seedPlace then decide (one.seedPlace < two.seedPlace)
    else decide (one.key < two.key) := by
  unfold less seedPlace key
  simp only [better_eq]
  cases one.trace.expanded <;> cases two.trace.expanded
  · simp
  · simp
  · simp [show ¬ true < false by decide]
  · generalize reasonPlace (one.trace.bestSeed.getD default) = first
    generalize reasonPlace (two.trace.bestSeed.getD default) = second
    rcases lt_trichotomy first second with lt | rfl | gt
    · simp [lt, lt.ne]
    · simp
    · simp [gt, gt.ne', gt.not_gt]

theorem less_weakOrder : WeakOrder fun one two : ExpansionResult K => one.less two := by
  have byKey := weakOrder_key fun result : ExpansionResult K => result.key
  have bySeed := byKey.lex fun result : ExpansionResult K => result.seedPlace
  have byKind := bySeed.lex fun result : ExpansionResult K => result.trace.expanded
  have byRank := byKind.lex fun result : ExpansionResult K => result.trace.effectiveRank
  simp only [less_eq]
  exact byRank

theorem keys_of_not_less {one two : ExpansionResult K} (before : one.less two = false)
    (after : two.less one = false) :
    one.trace.effectiveRank = two.trace.effectiveRank ∧ one.trace.expanded = two.trace.expanded ∧
      one.key = two.key := by
  rw [less_eq] at before after
  grind

def rankedAt (result : ExpansionResult K) (i : Nat) : ExpansionResult K :=
  { result with trace := { result.trace with finalRank := (i + 1 : Nat) } }

theorem getElem?_rankedFinally (results : List (ExpansionResult K)) (i : Nat) :
    (rankedFinally results)[i]? = results[i]?.map (·.rankedAt i) := List.getElem?_mapIdx

theorem map_rankedFinally {β : Type} (view : ExpansionResult K → β)
    (same : ∀ (result : ExpansionResult K) (i : Nat), view (result.rankedAt i) = view result)
    (results : List (ExpansionResult K)) : (rankedFinally results).map view = results.map view := by
  apply List.ext_getElem?
  intro i
  simp only [List.getElem?_map, getElem?_rankedFinally, Option.map_map, Function.comp_def, same]

theorem countP_rankedFinally (p : ExpansionResult K → Bool)
    (same : ∀ (result : ExpansionResult K) (i : Nat), p (result.rankedAt i) = p result)
    (results : List (ExpansionResult K)) : (rankedFinally results).countP p = results.countP p := by
  have views := congrArg (List.countP id) (map_rankedFinally p same results)
  simpa [List.countP_map] using views

theorem finalRanks (results : List (ExpansionResult K)) :
    (rankedFinally results).map (·.trace.finalRank) =
      (List.range (rankedFinally results).length).map fun i => ((i + 1 : Nat) : Int) := by
  apply List.ext_getElem?
  intro i
  have length : (rankedFinally results).length = results.length := List.length_mapIdx
  simp only [List.getElem?_map, getElem?_rankedFinally, Option.map_map, Function.comp_def, length]
  by_cases inside : i < results.length
  · simp [inside, rankedAt]
  · simp [inside]

theorem mem_rankedFinally {results : List (ExpansionResult K)} {ranked : ExpansionResult K}
    (member : ranked ∈ rankedFinally results) :
    ∃ i, ∃ result ∈ results, results[i]? = some result ∧ ranked = result.rankedAt i := by
  obtain ⟨i, found⟩ := List.mem_iff_getElem?.mp member
  rw [getElem?_rankedFinally, Option.map_eq_some_iff] at found
  obtain ⟨result, found, rfl⟩ := found
  exact ⟨i, result, List.mem_of_getElem? found, found, rfl⟩

theorem finalRank_lt {results : List (ExpansionResult K)}
    (sorted : results.Pairwise fun one two => two.less one = false) {one two : ExpansionResult K}
    (member : one ∈ rankedFinally results) (member_ : two ∈ rankedFinally results)
    (smaller : one.less two = true) : one.trace.finalRank < two.trace.finalRank := by
  obtain ⟨i, first, _, here, rfl⟩ := mem_rankedFinally member
  obtain ⟨j, second, _, there, rfl⟩ := mem_rankedFinally member_
  replace smaller : first.less second = true := smaller
  rcases lt_trichotomy i j with lt | rfl | gt
  · exact Int.ofNat_lt.mpr (Nat.succ_lt_succ lt)
  · rw [here, Option.some.injEq] at there
    have never : second.less second = false := (less_weakOrder.asymm second second).elim id id
    rw [there, never] at smaller
    cases smaller
  · obtain ⟨inside, rfl⟩ := List.getElem?_eq_some_iff.mp here
    obtain ⟨inside_, rfl⟩ := List.getElem?_eq_some_iff.mp there
    rw [List.pairwise_iff_getElem.mp sorted j i inside_ inside gt] at smaller
    cases smaller

end ExpansionResult

theorem Index.Searches.rising {K : Type} [Field K] [LinearOrder K] {log : K → K} {u : Unicode}
    {index : Index K} {query : Bytes} {topK : Int} {base : List (SearchResult K)}
    (searched : index.Searches log u query topK base) : base.Pairwise fun one two =>
      one.rank < two.rank := by
  unfold Index.Searches at searched
  split at searched
  · rw [searched]
    exact .nil
  · obtain ⟨_, sorted, _, _, rfl⟩ := searched
    rw [← @List.pairwise_map _ _ (fun result : SearchResult K => result.rank) (· < ·),
      numbered_ranks, List.pairwise_map]
    exact List.pairwise_lt_range.imp Nat.succ_lt_succ

namespace ExpansionEngine

variable {K : Type}

structure Placement (base : List (SearchResult K)) (merged : List (ExpansionResult K))
    (trace : ExpansionSearchTrace) : Prop where
  apart : merged.Pairwise fun one two => one.key = two.key → one.key = ""
  seeds : trace.seedCount ≤ seedBudget
  perSeed : ∀ seed, merged.countP (fun result => result.trace.expanded ∧
    result.origin = some seed) ≤ perSeedBudget
  total : merged.countP (·.trace.expanded) ≤ expansionBudget
  hits : ∀ result ∈ merged, result.trace.expanded = false →
    ∃ hit ∈ base, result.document = hit.document ∧ result.baseScore = hit.score ∧
      result.trace.baseBM25Rank = hit.rank
  order : ∀ one ∈ merged, ∀ two ∈ merged, one.trace.expanded = false → two.trace.expanded = false →
    one.trace.baseBM25Rank < two.trace.baseBM25Rank → one.trace.finalRank < two.trace.finalRank
  place : ∀ result ∈ merged, result.trace.expanded = true → ∃ best ∈ result.trace.reasons,
    (∀ reason ∈ result.trace.reasons, best.seedBM25Rank ≤ reason.seedBM25Rank) ∧
      ∀ hit ∈ merged, hit.trace.expanded = false →
        (hit.trace.baseBM25Rank ≤ best.seedBM25Rank + 1 →
          hit.trace.finalRank < result.trace.finalRank) ∧
        (best.seedBM25Rank + 2 ≤ hit.trace.baseBM25Rank →
          result.trace.finalRank < hit.trace.finalRank)
  ranks : merged.map (·.trace.finalRank) = (List.range merged.length).map fun i =>
    ((i + 1 : Nat) : Int)

section Placing

variable {base hits : List (SearchResult K)} {added sorted : List (ExpansionResult K)}
    {state : Expanding K}
  (sub : hits.Sublist base) (sound : Expanding.Sound (hits.map .ofHit) state added)
  (sorts : Sorts ExpansionResult.less state.merged sorted)

include sub sound sorts

theorem merged_cases {result : ExpansionResult K}
    (member : result ∈ ExpansionResult.rankedFinally sorted) :
    (∃ hit ∈ base, ∃ i, result = (ExpansionResult.ofHit hit).rankedAt i) ∨ ∃ best,
      result.Added best := by
  obtain ⟨i, old, inside, _, rfl⟩ := ExpansionResult.mem_rankedFinally member
  have inside := sorts.perm.subset inside
  rw [sound.merged, List.mem_append, List.mem_map] at inside
  rcases inside with ⟨hit, kept, rfl⟩ | new
  · exact .inl ⟨hit, sub.subset kept, i, rfl⟩
  · obtain ⟨best, is⟩ := sound.each old new
    exact .inr ⟨best, is.expanded, is.key, is.bestSeed, is.among, is.least, is.place⟩

theorem lexical_rank {result : ExpansionResult K}
    (member : result ∈ ExpansionResult.rankedFinally sorted)
    (lexical : result.trace.expanded = false) : result.trace.effectiveRank =
      result.trace.baseBM25Rank := by
  rcases merged_cases sub sound sorts member with ⟨hit, _, i, rfl⟩ | ⟨best, is⟩
  · rfl
  · rw [is.expanded] at lexical
    cases lexical

omit sub in
theorem countP_added (p : ExpansionResult K → Bool)
    (same : ∀ (result : ExpansionResult K) (i : Nat), p (result.rankedAt i) = p result)
    (only : ∀ hit : SearchResult K, p (.ofHit hit) = false) :
    (ExpansionResult.rankedFinally sorted).countP p = added.countP p := by
  have none_ : (hits.map ExpansionResult.ofHit).countP p = 0 := by
    apply List.countP_eq_zero.mpr
    intro result member
    obtain ⟨hit, _, rfl⟩ := List.mem_map.mp member
    simp [only hit]
  rw [ExpansionResult.countP_rankedFinally p same, sorts.perm.countP_eq, sound.merged,
    List.countP_append, none_, Nat.zero_add]

theorem placement {trace : ExpansionSearchTrace} (seeds : trace.seedCount ≤ seedBudget) :
    Placement base (ExpansionResult.rankedFinally sorted) trace := by
  refine ⟨?_, seeds, ?_, ?_, ?_, ?_, ?_, ExpansionResult.finalRanks sorted⟩
  · change ExpansionResult.Apart _
    rw [ExpansionResult.apart_iff, ExpansionResult.map_rankedFinally (·.key) (fun _ _ => rfl),
      ← ExpansionResult.apart_iff]
    apply (List.Perm.pairwise_iff _ sorts.perm).mpr sound.apart
    intro one two apart same
    rw [same, apart same.symm]
  · intro seed
    rw [countP_added sound sorts _ (fun _ _ => rfl) (fun _ => rfl)]
    exact (List.countP_mono_left
      fun result _ both => by simpa using (of_decide_eq_true both).2).trans
      (sound.perSeed seed)
  · rw [countP_added sound sorts _ (fun _ _ => rfl) (fun _ => rfl)]
    exact List.countP_le_length.trans sound.budget
  · intro result member lexical
    rcases merged_cases sub sound sorts member with ⟨hit, inside, i, rfl⟩ | ⟨best, is⟩
    · exact ⟨hit, inside, rfl, rfl, rfl⟩
    · rw [is.expanded] at lexical
      cases lexical
  · intro one member two member_ lexical lexical_ lt
    apply ExpansionResult.finalRank_lt sorts.sorted member member_
    rw [← lexical_rank sub sound sorts member lexical,
      ← lexical_rank sub sound sorts member_ lexical_] at lt
    simp [ExpansionResult.less_eq, lt, lt.ne]
  · intro result member expanded
    rcases merged_cases sub sound sorts member with ⟨hit, _, i, rfl⟩ | ⟨best, is⟩
    · cases expanded
    · refine ⟨best, is.among, is.least, ?_⟩
      intro hit inside lexical
      have place := is.place
      have rank := lexical_rank sub sound sorts inside lexical
      constructor
      · intro before
        apply ExpansionResult.finalRank_lt sorts.sorted inside member
        rw [← rank, ← place] at before
        rcases before.lt_or_eq with lt | eq
        · simp [ExpansionResult.less_eq, lt, lt.ne]
        · simp [ExpansionResult.less_eq, eq, lexical, expanded]
      · intro after
        apply ExpansionResult.finalRank_lt sorts.sorted member inside
        have lt : result.trace.effectiveRank < hit.trace.effectiveRank := by omega
        simp [ExpansionResult.less_eq, lt, lt.ne]

end Placing

/-- The same answer with its rows in another order. -/
structure Reordered (one two : ExpansionCandidates) : Prop where
  perm : two.candidates.Perm one.candidates
  symbolQueries : two.symbolQueries = one.symbolQueries
  relationQueries : two.relationQueries = one.relationQueries
  relationsExamined : two.relationsExamined = one.relationsExamined

/-- Every answer of the other store is a reordered one, and nothing else differs. -/
structure ReordersRows (world other : ExpansionWorld) : Prop where
  contextErr : other.contextErr = world.contextErr
  rows : ∀ key, Reordered (world.list key).1 (other.list key).1
  err : ∀ key, (other.list key).2 = (world.list key).2

def SymbolsDetermined (world : ExpansionWorld) : Prop :=
  ∀ key key_, ∀ a ∈ (world.list key).1.candidates, ∀ b ∈ (world.list key_).1.candidates,
    a.symbol.codeIndexBuildID = b.symbol.codeIndexBuildID →
      a.symbol.symbolKeyHash = b.symbol.symbolKeyHash →
      a.symbol = b.symbol

section Rows

variable [Zero K] {engine : ExpansionEngine K} {world other : ExpansionWorld}

theorem foldl_consider (seed : SearchResult K) (rows : List ExpansionCandidate)
    (state : Expanding K × Nat) :
    rows.foldl (engine.consider seed) state =
      (rows.filter (·.valid engine.buildID)).foldl (engine.consider seed) state := by
  induction rows generalizing state with
  | nil => rfl
  | cons row rows ih =>
    by_cases valid : row.valid engine.buildID = true
    · rw [List.filter_cons_of_pos valid, List.foldl_cons, List.foldl_cons, ih]
    · have skipped : engine.consider seed state row = state := by simp [consider, valid]
      rw [List.filter_cons_of_neg valid, List.foldl_cons, skipped, ih]

variable (reorders : ReordersRows world other) (determined : SymbolsDetermined world)
    (slice : SortSlice)

include reorders determined

theorem expandSeed_reordered (seed : SearchResult K) (state : Expanding K) (key : String) :
    ({ engine with world := some other, slice := slice } : ExpansionEngine K).expandSeed seed
      (other.list key).1 state = engine.expandSeed seed (world.list key).1 state := by
  have first := (engine.slice.sorts ExpansionCandidate.less_weakOrder
    (world.list key).1.candidates).filter (·.valid engine.buildID)
  have second := (slice.sorts ExpansionCandidate.less_weakOrder
    (other.list key).1.candidates).filter (·.valid engine.buildID)
  have same := Sorts.unique ((reorders.rows key).perm.filter _) (by
    intro a member b member_ before after
    rw [List.mem_filter] at member member_
    apply ExpansionCandidate.eq_of_not_less member.2 member_.2 _ before after
    apply determined key key
    · exact (reorders.rows key).perm.subset member.1
    · exact (reorders.rows key).perm.subset member_.1) second first
  unfold expandSeed
  rw [foldl_consider seed (slice.sort _ _), foldl_consider seed (engine.slice.sort _ _)]
  exact congrArg (fun rows => (List.foldl (engine.consider seed) (state, 0) rows).1) same

theorem expandSeeds_reordered (position : Nat) (seeds : List (SearchResult K))
    (state : Expanding K) :
    ({ engine with world := some other, slice := slice } : ExpansionEngine K).expandSeeds other
      position seeds
      state = engine.expandSeeds world position seeds state := by
  induction seeds generalizing position state with
  | nil => rfl
  | cons seed seeds ih =>
    unfold expandSeeds
    simp only [reorders.contextErr, reorders.err, (reorders.rows _).symbolQueries,
      (reorders.rows _).relationQueries, (reorders.rows _).relationsExamined, ih,
      expandSeed_reordered reorders determined slice]

theorem merge_reordered (store : engine.world = some world) (base : List (SearchResult K)) :
    ({ engine with world := some other, slice := slice } : ExpansionEngine K).merge base =
      engine.merge base := by
  unfold merge
  simp only [store, expandSeeds_reordered reorders determined slice]

end Rows

theorem eq_of_not_less {base hits : List (SearchResult K)} {added : List (ExpansionResult K)}
    {state : Expanding K} (rising : base.Pairwise fun one two => one.rank < two.rank)
    (sub : hits.Sublist base) (sound : Expanding.Sound (hits.map .ofHit) state added) :
    ∀ a ∈ state.merged, ∀ b ∈ state.merged, a.less b = false → b.less a = false → a = b := by
  intro a member b member_ before after
  obtain ⟨rank, kind, key⟩ := ExpansionResult.keys_of_not_less before after
  rw [sound.merged, List.mem_append, List.mem_map] at member member_
  rcases member with ⟨hit, inside, rfl⟩ | new
  · rcases member_ with ⟨hit_, inside_, rfl⟩ | new_
    · -- hits have ranks of their own
      have rank : hit.rank = hit_.rank := Int.ofNat_inj.mp rank
      have ranks : (hits.map (·.rank)).Nodup :=
        List.pairwise_map.mpr ((rising.sublist sub).imp Nat.ne_of_lt)
      rw [List.inj_on_of_nodup_map ranks inside inside_ rank]
    · obtain ⟨best, is⟩ := sound.each b new_
      rw [is.expanded] at kind
      cases kind
  · rcases member_ with ⟨hit_, inside_, rfl⟩ | new_
    · obtain ⟨best, is⟩ := sound.each a new
      rw [is.expanded] at kind
      cases kind
    · -- added results have symbols of their own
      obtain ⟨best, is⟩ := sound.each a new
      by_contra differ
      have apart := sound.apart
      rw [sound.merged] at apart
      have apart := (List.pairwise_append.mp apart).2.1
      have symmetric : Std.Symm fun one two : ExpansionResult K =>
          one.key = two.key → one.key = "" :=
        ⟨fun one two apart same => by rw [same, apart same.symm]⟩
      exact is.key (apart.forall new new_ differ key)

section Search

variable [Zero K] {engine : ExpansionEngine K} {base : List (SearchResult K)}

theorem search_ok {k : Int} {results : List (ExpansionResult K)} {trace : ExpansionSearchTrace}
    (ran : engine.search base k = .ok (results, trace)) :
    (base = [] ∧ results = [] ∧ trace = newTrace) ∨ ∃ state, engine.merge base = .ok state ∧
      let merged :=
        ExpansionResult.rankedFinally (engine.slice.sort ExpansionResult.less state.merged)
      results = merged.take (topK k).toNat ∧
        trace = { state.trace with candidates := merged.map (·.trace) } := by
  unfold search at ran
  split at ran
  · next empty =>
      cases ran
      exact .inl ⟨empty, rfl, rfl⟩
  · cases merged : engine.merge base with
    | error err =>
      rw [merged] at ran
      cases ran
    | ok state =>
      rw [merged] at ran
      cases ran
      exact .inr ⟨state, rfl, rfl, rfl⟩

theorem search_reordered {world other : ExpansionWorld}
    (rising : base.Pairwise fun one two => one.rank < two.rank)
    (store : engine.world = some world) (determined : SymbolsDetermined world)
    (reorders : ReordersRows world other) (slice : SortSlice) (k : Int) :
    ({ engine with world := some other, slice := slice } : ExpansionEngine K).search base k =
      engine.search base k := by
  unfold search
  rw [merge_reordered reorders determined slice store]
  split
  · rfl
  · cases merged : engine.merge base with
    | error err => rfl
    | ok state =>
      obtain ⟨hits, added, sub, sound, _⟩ := merge_sound merged
      have same := Sorts.unique (List.Perm.refl _) (eq_of_not_less rising sub sound)
        (slice.sorts ExpansionResult.less_weakOrder state.merged)
        (engine.slice.sorts ExpansionResult.less_weakOrder state.merged)
      change Except.ok _ = Except.ok _
      rw [same]

end Search

/-- Where the expansion places its results, for every answer of the lexical search and every order
of the store's rows: no symbol twice, within the budgets, the hits in their order, an added result
right behind its best seed, ranks without gaps. -/
theorem expansion_placement [Field K] [LinearOrder K] (log : K → K) (u : Unicode)
    (engine : ExpansionEngine K) (query : Bytes) (k : Int) (base : List (SearchResult K))
    (searched : engine.index.Searches log u query (baseLimit k) base) :
    (∀ results trace, engine.search base k = .ok (results, trace) →
      ∃ merged : List (ExpansionResult K),
      trace.candidates = merged.map (·.trace) ∧ results = merged.take (topK k).toNat ∧
        Placement base merged trace) ∧
      ∀ world other slice, engine.world = some world → SymbolsDetermined world →
        ReordersRows world other →
        ({ engine with world := some other, slice := slice } : ExpansionEngine K).search base k =
          engine.search base k := by
  constructor
  · intro results trace ran
    rcases search_ok ran with ⟨_, rfl, rfl⟩ | ⟨state, merged, rfl, rfl⟩
    · exact ⟨[], rfl, List.take_nil.symm, by constructor <;> simp [newTrace]⟩
    · obtain ⟨hits, added, sub, sound, seeds⟩ := merge_sound merged
      exact ⟨_, rfl, rfl, placement sub sound (engine.slice.sorts ExpansionResult.less_weakOrder _)
        seeds⟩
  · intro world other slice store determined reorders
    exact search_reordered searched.rising store determined reorders slice k

def sampleEngine : ExpansionEngine ℚ where
  index := ([{ sampleDocument "go" "Run" with symbolKeyHash := "k1" },
    { sampleDocument "go" "help" with symbolKeyHash := "k2" }].foldl
      (Index.addDocument Unicode.ascii)
      (newIndex (6 / 5) (3 / 4))).build
  world := some
    { contextErr := fun _ => none
      list := fun key =>
        (⟨if key = "k1" then [⟨⟨2, 1, "a.go", "raw", "k2", "help", 1, 1⟩, .callCandidate, .forward,
          .semantic, 1,
          ""⟩] else [], 1, 1, 1⟩, none) }
  buildID := 1
  slice := .insertion

theorem expansion_placement_one :
    ∃ results trace, sampleEngine.search
        (sampleEngine.index.search id Unicode.ascii (ofString "Run") (baseLimit 2)) 2 =
          .ok (results, trace) ∧
      results.length = 2 ∧ ∃ merged : List (ExpansionResult ℚ),
        trace.candidates = merged.map (·.trace) ∧
        Placement (sampleEngine.index.search id Unicode.ascii (ofString "Run") (baseLimit 2)) merged
          trace := by
  have ran : (sampleEngine.search
    (sampleEngine.index.search id Unicode.ascii (ofString "Run") (baseLimit 2))
      2).toOption.map (fun outcome => outcome.1.length) = some 2 := by decide +kernel
  have placed := (expansion_placement id Unicode.ascii sampleEngine (ofString "Run") 2 _
    (Index.searches_search id Unicode.ascii _ _ _)).1
  cases found : sampleEngine.search
      (sampleEngine.index.search id Unicode.ascii (ofString "Run") (baseLimit 2)) 2 with
  | error err =>
      rw [found] at ran
      cases ran
  | ok outcome =>
      rw [found] at ran
      obtain ⟨merged, candidates, _, holds⟩ := placed outcome.1 outcome.2 found
      exact ⟨outcome.1, outcome.2, rfl, Option.some.inj ran, merged, candidates, holds⟩

end ExpansionEngine

end Retrieval

end RepoLens
