import RepoLens.Expansion

/-!
Where the structural expansion places its results. Adding keeps an invariant of the merged list:
the lexical hits stay as they are, and every added result carries its reasons with the best of
them.
-/

namespace RepoLens

open Ranking
open Evidence (ExpansionReason ExpansionResultTrace)

namespace Retrieval

namespace ExpansionResult

variable {K : Type}

def Apart (results : List (ExpansionResult K)) : Prop :=
  results.Pairwise fun one two => one.key = two.key → one.key = ""

structure Added (result : ExpansionResult K) (best : ExpansionReason) : Prop where
  expanded : result.trace.expanded = true
  key : result.key ≠ ""
  bestSeed : result.trace.bestSeed = some best
  among : best ∈ result.trace.reasons
  least : ∀ reason ∈ result.trace.reasons, best.seedBM25Rank ≤ reason.seedBM25Rank
  place : result.trace.effectiveRank = best.seedBM25Rank + 1

def origin (result : ExpansionResult K) : Option String :=
  result.trace.reasons.head?.map (·.seedSymbolKeyHash)

theorem justify_key (rank : Nat) (reason : ExpansionReason) (result : ExpansionResult K) :
    (result.justify rank reason).key = result.key := by
  unfold justify key
  simp only
  split <;> split <;> rfl

theorem justify_expanded (rank : Nat) (reason : ExpansionReason) (result : ExpansionResult K) :
    (result.justify rank reason).trace.expanded = result.trace.expanded := by
  unfold justify
  simp only
  split <;> split <;> rfl

theorem justify_reasons (rank : Nat) (reason : ExpansionReason) (result : ExpansionResult K) :
    (result.justify rank reason).trace.reasons =
      if reason ∈ result.trace.reasons then
        result.trace.reasons else result.trace.reasons ++ [reason] := by
  unfold justify containsExpansionReason
  by_cases known : reason ∈ result.trace.reasons
  · simp only [List.contains_iff_mem.mpr known, known, if_true]
    split <;> rfl
  · simp only [known, List.contains_iff_mem, if_false]
    split <;> rfl

theorem not_better_self (reason : ExpansionReason) :
    betterExpansionReason reason reason = false := by
  simp [betterExpansionReason]

theorem rank_le_of_better {one two : ExpansionReason}
    (better : betterExpansionReason one two = true) :
    one.seedBM25Rank ≤ two.seedBM25Rank := by
  unfold betterExpansionReason at better
  split at better
  · exact (of_decide_eq_true better).le
  · next same => exact (not_not.mp same).le

theorem rank_le_of_not_better {one two : ExpansionReason}
    (worse : betterExpansionReason one two = false) :
    two.seedBM25Rank ≤ one.seedBM25Rank := by
  unfold betterExpansionReason at worse
  split at worse
  · simpa using worse
  · next same => exact (not_not.mp same).ge

variable {result : ExpansionResult K} {best : ExpansionReason}

theorem Added.justify {reason : ExpansionReason} {rank : Nat} (added : result.Added best)
    (seed : reason.seedBM25Rank = rank) :
    ∃ best', (result.justify rank reason).Added best' := by
  have reasons := justify_reasons rank reason result
  have inside : reason ∈ (result.justify rank reason).trace.reasons := by
    rw [reasons]
    split
    · assumption
    · simp
  have kept : ∀ other ∈ result.trace.reasons,
      other ∈ (result.justify rank reason).trace.reasons := by
    intro other member
    rw [reasons]
    split
    · exact member
    · exact List.mem_append_left _ member
  have known : ∀ other ∈ (result.justify rank reason).trace.reasons,
      other ∈ result.trace.reasons ∨ other = reason := by
    intro other member
    rw [reasons] at member
    split at member
    · exact .inl member
    · simpa using member
  have trace : (result.justify rank reason).trace.bestSeed =
        (if betterExpansionReason reason best then some reason else some best) ∧
      (result.justify rank reason).trace.effectiveRank =
        if betterExpansionReason reason best then (rank : Int) + 1 else best.seedBM25Rank + 1 := by
    unfold ExpansionResult.justify
    by_cases better : betterExpansionReason reason best = true <;>
      by_cases contained : containsExpansionReason result.trace.reasons reason = true <;>
        simp [contained, added.bestSeed, better, added.place]
  by_cases better : betterExpansionReason reason best = true
  · refine ⟨reason, ?_, ?_, ?_, inside, ?_, ?_⟩
    · rw [justify_expanded, added.expanded]
    · rw [justify_key]
      exact added.key
    · rw [trace.1, if_pos better]
    · intro other member
      rcases known other member with old | rfl
      · exact (rank_le_of_better better).trans (added.least other old)
      · exact le_rfl
    · rw [trace.2, if_pos better, seed]
  · refine ⟨best, ?_, ?_, ?_, kept best added.among, ?_, ?_⟩
    · rw [justify_expanded, added.expanded]
    · rw [justify_key]
      exact added.key
    · rw [trace.1, if_neg better]
    · intro other member
      rcases known other member with old | rfl
      · exact added.least other old
      · exact rank_le_of_not_better (by simpa using better)
    · rw [trace.2, if_neg better]

theorem Added.justify_origin (added : result.Added best) (rank : Nat) (reason : ExpansionReason) :
    (result.justify rank reason).origin = result.origin := by
  have some := List.ne_nil_of_mem added.among
  rw [origin, justify_reasons]
  split
  · rfl
  · rw [List.head?_append_of_ne_nil _ some]
    rfl

theorem ofNeighbor_key [Zero K] (doc : Document) (rank : Nat) (reason : ExpansionReason) :
    (ofNeighbor doc rank reason : ExpansionResult K).key = doc.symbolKeyHash := rfl

theorem ofNeighbor_added [Zero K] {doc : Document} {rank : Nat} {reason : ExpansionReason}
    (symbol : doc.symbolKeyHash ≠ "") (seed : reason.seedBM25Rank = rank) :
    ((ofNeighbor doc rank reason : ExpansionResult K).justify rank reason).Added reason ∧
      ((ofNeighbor doc rank reason : ExpansionResult K).justify rank reason).origin =
        some reason.seedSymbolKeyHash := by
  have trace : ((ofNeighbor doc rank reason : ExpansionResult K).justify rank reason).trace =
      { (ofNeighbor doc rank reason : ExpansionResult K).trace with reasons := [reason] } := by
    simp [ExpansionResult.justify, ofNeighbor, containsExpansionReason, not_better_self]
  constructor
  · constructor
    · rw [trace]
      rfl
    · rw [justify_key]
      exact symbol
    · rw [trace]
      rfl
    · rw [trace]
      exact List.mem_singleton_self _
    · rw [trace]
      intro other member
      rw [List.mem_singleton.mp member]
    · rw [trace, seed]
      rfl
  · rw [origin, trace]
    rfl

section JustifyAt

variable (symbolKeyHash : String) (rank : Nat) (reason : ExpansionReason)

theorem justifyAt_key (result : ExpansionResult K) :
    (result.justifyAt symbolKeyHash rank reason).key = result.key := by
  unfold justifyAt
  split
  · exact justify_key _ _ _
  · rfl

theorem map_justifyAt_keys (results : List (ExpansionResult K)) :
    (results.map (·.justifyAt symbolKeyHash rank reason)).map (·.key) = results.map (·.key) := by
  simp only [List.map_map, Function.comp_def, justifyAt_key]

variable {symbolKeyHash rank reason}

theorem map_justifyAt_of_notMem {results : List (ExpansionResult K)}
    (absent : symbolKeyHash ∉ results.map (·.key)) :
    results.map (·.justifyAt symbolKeyHash rank reason) = results := by
  have each : ∀ result ∈ results, result.justifyAt symbolKeyHash rank reason = result := by
    intro result member
    unfold justifyAt
    rw [if_neg]
    rintro rfl
    exact absent (List.mem_map.mpr ⟨result, member, rfl⟩)
  rw [List.map_congr_left each, List.map_id']

theorem Added.justifyAt (added : result.Added best) (seed : reason.seedBM25Rank = rank) :
    (∃ best', (result.justifyAt symbolKeyHash rank reason).Added best') ∧
      (result.justifyAt symbolKeyHash rank reason).origin = result.origin := by
  unfold ExpansionResult.justifyAt
  split
  · exact ⟨added.justify seed, added.justify_origin rank reason⟩
  · exact ⟨⟨best, added⟩, rfl⟩

end JustifyAt

theorem apart_iff {results : List (ExpansionResult K)} :
    Apart results ↔ (results.map (·.key)).Pairwise fun one two => one = two → one = "" := by
  rw [List.pairwise_map]
  rfl

theorem Apart.append {results : List (ExpansionResult K)} (apart : Apart results)
    (fresh : result.key = "" ∨ result.key ∉ results.map (·.key)) : Apart (results ++ [result]) := by
  unfold Apart
  rw [List.pairwise_append]
  refine ⟨apart, List.pairwise_singleton _ _, ?_⟩
  intro one member two single same
  rw [List.mem_singleton.mp single] at same
  rcases fresh with empty | absent
  · rw [same, empty]
  · exact absurd (List.mem_map.mpr ⟨one, member, same⟩) absent

end ExpansionResult

namespace Expanding

variable {K : Type}

structure Sound (lexical : List (ExpansionResult K)) (state : Expanding K)
    (added : List (ExpansionResult K)) : Prop where
  merged : state.merged = lexical ++ added
  apart : ExpansionResult.Apart state.merged
  each : ∀ result ∈ added, ∃ best, result.Added best
  count : added.length = state.trace.expandedCandidates
  budget : added.length ≤ expansionBudget
  origins : ∀ result ∈ added, ∃ key ∈ state.seenSeeds, result.origin = some key
  perSeed : ∀ key, added.countP (·.origin = some key) ≤ perSeedBudget
  seeds : state.trace.seedCount = state.seenSeeds.length

structure SeedSound (lexical : List (ExpansionResult K)) (seed : String) (state : Expanding K × Nat)
    (added : List (ExpansionResult K)) : Prop extends Sound lexical state.1 added where
  seen : seed ∈ state.1.seenSeeds
  new : added.countP (·.origin = some seed) = state.2

variable {lexical added : List (ExpansionResult K)} {seed : String} {state : Expanding K × Nat}

theorem SeedSound.justify (sound : SeedSound lexical seed state added) {symbolKeyHash : String}
    {rank : Nat} {reason : ExpansionReason} (absent : symbolKeyHash ∉ lexical.map (·.key))
    (placed : reason.seedBM25Rank = rank) :
    SeedSound lexical seed
      ({ state.1 with merged := state.1.merged.map (·.justifyAt symbolKeyHash rank reason) },
        state.2)
      (added.map (·.justifyAt symbolKeyHash rank reason)) := by
  have origins : ∀ result ∈ added,
      (result.justifyAt symbolKeyHash rank reason).origin = result.origin := by
    intro result member
    obtain ⟨best, is⟩ := sound.each result member
    exact (is.justifyAt placed).2
  have counts (key : String) : (added.map (·.justifyAt symbolKeyHash rank reason)).countP
      (·.origin = some key) = added.countP (·.origin = some key) := by
    rw [List.countP_map]
    apply List.countP_congr
    intro result member
    simp [origins result member]
  refine ⟨⟨?_, ?_, ?_, ?_, ?_, ?_, ?_, sound.seeds⟩, sound.seen, ?_⟩
  · rw [sound.merged, List.map_append, ExpansionResult.map_justifyAt_of_notMem absent]
  · rw [ExpansionResult.apart_iff, ExpansionResult.map_justifyAt_keys, ← ExpansionResult.apart_iff]
    exact sound.apart
  · intro result member
    obtain ⟨old, inside, rfl⟩ := List.mem_map.mp member
    obtain ⟨best, is⟩ := sound.each old inside
    exact (is.justifyAt placed).1
  · rw [List.length_map]
    exact sound.count
  · rw [List.length_map]
    exact sound.budget
  · intro result member
    obtain ⟨old, inside, rfl⟩ := List.mem_map.mp member
    rw [origins old inside]
    exact sound.origins old inside
  · intro key
    rw [counts]
    exact sound.perSeed key
  · rw [counts]
    exact sound.new

theorem SeedSound.add [Zero K] (sound : SeedSound lexical seed state added) {doc : Document}
    {rank : Nat} {reason : ExpansionReason} (symbol : doc.symbolKeyHash ≠ "")
    (placed : reason.seedBM25Rank = rank) (from_ : reason.seedSymbolKeyHash = seed)
    (fresh : doc.symbolKeyHash ∉ state.1.merged.map (·.key)) (room : state.2 < perSeedBudget)
    (space : state.1.trace.expandedCandidates < expansionBudget) :
    SeedSound lexical seed
      ({ state.1 with
          merged := (state.1.merged ++ [ExpansionResult.ofNeighbor doc rank reason]).map
            (ExpansionResult.justifyAt doc.symbolKeyHash rank reason)
          trace := { state.1.trace with
            expandedCandidates := state.1.trace.expandedCandidates + 1 } }, state.2 + 1)
      (added ++ [(ExpansionResult.ofNeighbor doc rank reason).justify rank reason]) := by
  obtain ⟨is, origin⟩ := @ExpansionResult.ofNeighbor_added K _ doc rank reason symbol placed
  rw [from_] at origin
  have merged : (state.1.merged ++ [ExpansionResult.ofNeighbor doc rank reason]).map
      (ExpansionResult.justifyAt doc.symbolKeyHash rank reason) =
        state.1.merged ++ [(ExpansionResult.ofNeighbor doc rank reason).justify rank reason] := by
    rw [List.map_append,
      show state.1.merged.map (ExpansionResult.justifyAt doc.symbolKeyHash rank reason) =
      state.1.merged from ExpansionResult.map_justifyAt_of_notMem fresh, List.map_singleton,
      ExpansionResult.justifyAt, if_pos (ExpansionResult.ofNeighbor_key doc rank reason)]
  have count := sound.count
  have counts (key : String) :
      (added ++ [(ExpansionResult.ofNeighbor doc rank reason).justify rank reason]).countP
        (fun result : ExpansionResult K => result.origin = some key) =
          added.countP (·.origin = some key) + if seed = key then 1 else 0 := by
    rw [List.countP_append, List.countP_singleton, origin]
    simp
  refine ⟨⟨?_, ?_, ?_, ?_, ?_, ?_, ?_, sound.seeds⟩, sound.seen, ?_⟩
  · rw [merged, sound.merged, List.append_assoc]
  · rw [merged]
    apply sound.apart.append
    rw [ExpansionResult.justify_key]
    exact .inr fresh
  · intro result member
    rcases List.mem_append.mp member with old | new
    · exact sound.each result old
    · rw [List.mem_singleton.mp new]
      exact ⟨reason, is⟩
  · simp [count]
  · rw [List.length_append, List.length_singleton]
    omega
  · intro result member
    rcases List.mem_append.mp member with old | new
    · exact sound.origins result old
    · rw [List.mem_singleton.mp new]
      exact ⟨seed, sound.seen, origin⟩
  · intro key
    rw [counts]
    split
    · next same =>
        have new := sound.new
        rw [same] at new
        omega
    · exact sound.perSeed key
  · rw [counts, if_pos rfl, sound.new]

end Expanding

namespace ExpansionEngine

variable {K : Type} [Zero K] {engine : ExpansionEngine K} {lexical added : List (ExpansionResult K)}

theorem valid_key {buildID : Int} {c : ExpansionCandidate} (valid : c.valid buildID = true) :
    c.symbol.symbolKeyHash ≠ "" := by
  unfold ExpansionCandidate.valid at valid
  simp only at valid
  split at valid
  · cases valid
  · next holds => exact fun empty => holds (by simp [empty])

omit [Zero K] in
theorem documentOf_key {symbolKeyHash : String} {doc : Document}
    (found : engine.documentOf symbolKeyHash = some doc) : doc.symbolKeyHash = symbolKeyHash := by
  unfold documentOf at found
  simpa using List.find?_some found

theorem consider_sound (plain : ∀ result ∈ lexical, result.trace.expanded = false)
    {seed : SearchResult K} {state : Expanding K × Nat} {neighbor : ExpansionCandidate}
    (sound : Expanding.SeedSound lexical seed.document.symbolKeyHash state added) :
    ∃ added', Expanding.SeedSound lexical seed.document.symbolKeyHash
      (engine.consider seed state neighbor) added' := by
  unfold consider
  split
  · exact ⟨added, sound⟩
  next valid =>
  split
  · exact ⟨added, sound⟩
  next doc found =>
  have key := documentOf_key found
  have symbol : doc.symbolKeyHash ≠ "" := by
    rw [key]
    exact valid_key (by simpa using valid)
  split
  · exact ⟨added, sound⟩
  simp only
  split
  · next candidate candidateFound =>
      split
      · exact ⟨added, sound⟩
      next expanded =>
      refine ⟨_, sound.justify ?_ rfl⟩
      -- a lexical result of the symbol would have been found instead
      intro member
      obtain ⟨result, inside, same⟩ := List.mem_map.mp member
      rw [sound.merged, List.find?_append] at candidateFound
      cases first : lexical.find? (·.key == doc.symbolKeyHash) with
      | none => exact absurd (List.find?_eq_none.mp first result inside) (by simp [same])
      | some other =>
        rw [first, Option.some_or, Option.some.injEq] at candidateFound
        rw [← candidateFound, plain other (List.mem_of_find?_eq_some first)] at expanded
        simp at expanded
  · next absent =>
      split
      · exact ⟨added, sound⟩
      next room =>
      have fresh : doc.symbolKeyHash ∉ state.1.merged.map (·.key) := by
        intro member
        obtain ⟨result, inside, same⟩ := List.mem_map.mp member
        exact absurd (List.find?_eq_none.mp absent result inside) (by simp [same])
      exact ⟨_, sound.add symbol rfl rfl fresh (by omega) (by omega)⟩

theorem consider_seeds (seed : SearchResult K) (state : Expanding K × Nat)
    (neighbor : ExpansionCandidate) :
    (engine.consider seed state neighbor).1.seenSeeds = state.1.seenSeeds ∧
      (engine.consider seed state neighbor).1.trace.seedCount = state.1.trace.seedCount := by
  unfold consider
  split
  · exact ⟨rfl, rfl⟩
  split
  · exact ⟨rfl, rfl⟩
  split
  · exact ⟨rfl, rfl⟩
  simp only
  split
  · split <;> exact ⟨rfl, rfl⟩
  · split <;> exact ⟨rfl, rfl⟩

theorem expandSeed_sound (plain : ∀ result ∈ lexical, result.trace.expanded = false)
    {seed : SearchResult K} {neighbors : ExpansionCandidates} {state : Expanding K}
    (sound : Expanding.SeedSound lexical seed.document.symbolKeyHash (state, 0) added) :
    (∃ added', Expanding.Sound lexical (engine.expandSeed seed neighbors state) added') ∧
      (engine.expandSeed seed neighbors state).trace.seedCount = state.trace.seedCount := by
  have run
    (rows : List
    ExpansionCandidate) : ∀ (state : Expanding K × Nat) (added : List (ExpansionResult K)),
      Expanding.SeedSound lexical seed.document.symbolKeyHash state added →
        (∃ added', Expanding.SeedSound lexical seed.document.symbolKeyHash
          (rows.foldl (engine.consider seed) state) added') ∧
        (rows.foldl (engine.consider seed) state).1.trace.seedCount = state.1.trace.seedCount := by
    induction rows with
    | nil => exact fun state added sound => ⟨⟨added, sound⟩, rfl⟩
    | cons row rows ih =>
      intro state added sound
      obtain ⟨next, kept⟩ := @consider_sound _ _ engine _ _ plain _ _ row sound
      obtain ⟨later, count⟩ := ih _ _ kept
      exact ⟨later, count.trans (consider_seeds seed state row).2⟩
  obtain ⟨⟨added', kept⟩, count⟩ :=
    run (engine.slice.sort ExpansionCandidate.less neighbors.candidates) _ _ sound
  exact ⟨⟨added', kept.toSound⟩, count⟩

theorem expandSeeds_sound (plain : ∀ result ∈ lexical, result.trace.expanded = false)
    {world : ExpansionWorld} {position : Nat} {seeds : List (SearchResult K)}
    {state final : Expanding K} (sound : Expanding.Sound lexical state added)
    (ran : engine.expandSeeds world position seeds state = .ok final) :
    (∃ added', Expanding.Sound lexical final added') ∧
      final.trace.seedCount ≤ state.trace.seedCount + seeds.length := by
  induction seeds generalizing position state added with
  | nil =>
    cases ran
    exact ⟨⟨added, sound⟩, by simp⟩
  | cons seed seeds ih =>
    unfold expandSeeds at ran
    split at ran
    · cases ran
    · simp only at ran
      split at ran
      · obtain ⟨kept, count⟩ := ih sound ran
        refine ⟨kept, ?_⟩
        rw [List.length_cons]
        omega
      · next fresh =>
          split at ran
          · cases ran
          · rw [not_or] at fresh
            -- the seed has added nothing yet
            have none_ : added.countP (·.origin = some seed.document.symbolKeyHash) = 0 := by
              apply List.countP_eq_zero.mpr
              intro result member
              obtain ⟨key, seen, origin⟩ := sound.origins result member
              rw [origin, decide_eq_true_eq, Option.some.injEq]
              rintro rfl
              exact fresh.2 seen
            have start (trace : ExpansionSearchTrace)
                (expanded : trace.expandedCandidates = state.trace.expandedCandidates)
                (counted : trace.seedCount = state.trace.seedCount + 1) :
                Expanding.SeedSound lexical seed.document.symbolKeyHash
                  (⟨state.merged, seed.document.symbolKeyHash :: state.seenSeeds, trace⟩,
                    0) added := by
              refine ⟨⟨sound.merged, sound.apart, sound.each, ?_, sound.budget, ?_, sound.perSeed,
                ?_⟩,
                List.mem_cons_self, none_⟩
              · rw [expanded]
                exact sound.count
              · intro result member
                obtain ⟨key, seen, origin⟩ := sound.origins result member
                exact ⟨key, List.mem_cons_of_mem _ seen, origin⟩
              · rw [counted, sound.seeds, List.length_cons]
            generalize neighbors : (world.list seed.document.symbolKeyHash).1 = found at ran
            obtain ⟨⟨next, kept⟩, count⟩ := @expandSeed_sound _ _ engine _ _ plain seed found _
              (start { state.trace with
                seedCount := state.trace.seedCount + 1
                symbolQueries := state.trace.symbolQueries + found.symbolQueries
                relationQueries := state.trace.relationQueries + found.relationQueries
                relationsExamined := state.trace.relationsExamined + found.relationsExamined } rfl
                  rfl)
            obtain ⟨later, total⟩ := ih kept ran
            refine ⟨later, ?_⟩
            rw [count] at total
            simp only [List.length_cons] at total ⊢
            omega

omit [Zero K] in
theorem lexical_spec (hits : List (SearchResult K)) (merged : List (ExpansionResult K)) :
    ∃ kept : List (SearchResult K), kept.Sublist hits ∧
      ExpansionEngine.lexical hits merged = merged ++ kept.map .ofHit ∧
      (ExpansionResult.Apart merged →
        ExpansionResult.Apart (ExpansionEngine.lexical hits merged)) := by
  induction hits generalizing merged with
  | nil => exact ⟨[], .slnil, by simp [ExpansionEngine.lexical], id⟩
  | cons hit hits ih =>
    unfold ExpansionEngine.lexical
    split
    · obtain ⟨kept, sub, same, apart⟩ := ih merged
      exact ⟨kept, .cons _ sub, same, apart⟩
    · next fresh =>
        obtain ⟨kept, sub, same, apart⟩ := ih (merged ++ [.ofHit hit])
        refine ⟨hit :: kept, .cons_cons _ sub, by simp [same], ?_⟩
        intro before
        apply apart
        apply before.append
        rw [not_and_or, not_not] at fresh
        exact fresh

theorem merge_sound {base : List (SearchResult K)} {state : Expanding K}
    (ran : engine.merge base = .ok state) :
    ∃ (hits : List (SearchResult K)) (added : List (ExpansionResult K)),
      hits.Sublist base ∧ Expanding.Sound (hits.map .ofHit) state added ∧
      state.trace.seedCount ≤ seedBudget := by
  obtain ⟨hits, sub, same, apart⟩ := lexical_spec base []
  have plain : ∀ result ∈ hits.map (@ExpansionResult.ofHit K), result.trace.expanded = false := by
    intro result member
    obtain ⟨hit, _, rfl⟩ := List.mem_map.mp member
    rfl
  have start : Expanding.Sound (hits.map .ofHit) ⟨ExpansionEngine.lexical base [], [],
      newTrace⟩ [] := by
    constructor
    · simpa using same
    · exact apart .nil
    · simp
    · rfl
    · simp
    · simp
    · simp
    · rfl
  unfold merge at ran
  simp only at ran
  split at ran
  · cases ran
    exact ⟨hits, [], sub, start, Nat.zero_le _⟩
  · split at ran
    · obtain ⟨⟨added, kept⟩, count⟩ := expandSeeds_sound plain start ran
      refine ⟨hits, added, sub, kept, count.trans ?_⟩
      simp [newTrace]
    · cases ran
      exact ⟨hits, [], sub, start, Nat.zero_le _⟩

end ExpansionEngine

end Retrieval

end RepoLens
