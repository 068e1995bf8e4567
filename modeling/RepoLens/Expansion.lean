import RepoLens.Bm25Search
import RepoLens.EvidencePacket
import RepoLens.SymbolModel

/-!
`internal/retrieval/structural/expansion.go`: the results of a lexical search are the seeds, and
the neighbours of the seeds in the code graph are added to them.
-/

namespace RepoLens

open Ranking
open CodeIntel (RelationType ResolutionKind)
open Evidence (ExpansionReason ExpansionResultTrace wrap)

namespace Retrieval

inductive Direction where
  | forward
  | reverse
  deriving DecidableEq

def Direction.text : Direction → String
  | .forward => "FORWARD"
  | .reverse => "REVERSE"

structure SymbolRow where
  id : Int
  codeIndexBuildID : Int
  filePath : String
  symbolKeyRaw : String
  symbolKeyHash : String
  name : String
  startLine : Int
  endLine : Int
  deriving DecidableEq

structure ExpansionCandidate where
  symbol : SymbolRow
  relationType : RelationType
  direction : Direction
  resolutionKind : ResolutionKind
  confidence : Rat
  reasonCode : String
  deriving DecidableEq

structure ExpansionCandidates where
  candidates : List ExpansionCandidate
  symbolQueries : Int
  relationQueries : Int
  relationsExamined : Int

def seedBudget : Nat := 8

def perSeedBudget : Nat := 1

def expansionBudget : Nat := 4

/-- The `float64` of 0.95 -/
def minConfidence : Rat := 4278419646001971 / 4503599627370496

def relationPriority (kind : String) : Nat :=
  if kind = RelationType.callCandidate.text then 0 else 1

namespace ExpansionCandidate

def valid (buildID : Int) (c : ExpansionCandidate) : Bool :=
  let s := c.symbol
  if s.id ≤ 0 ∨ s.codeIndexBuildID ≠ buildID ∨ s.symbolKeyHash = "" ∨ s.symbolKeyRaw = "" ∨
    s.name = "" ∨
      s.filePath = "" ∨ s.startLine < 1 ∨ s.endLine < s.startLine ∨ c.resolutionKind ≠ .semantic ∨
      ¬ c.confidence ≥ minConfidence then false
  else (c.relationType = .callCandidate && c.direction = .forward) ||
    (c.relationType = .testRelation && c.direction = .reverse && c.reasonCode =
      "DIRECT_SEMANTIC_USAGE")

def less (a b : ExpansionCandidate) : Bool :=
  if relationPriority a.relationType.text ≠ relationPriority b.relationType.text then
    decide (relationPriority a.relationType.text < relationPriority b.relationType.text)
  else if a.symbol.symbolKeyHash ≠ b.symbol.symbolKeyHash then
    decide (a.symbol.symbolKeyHash < b.symbol.symbolKeyHash)
  else if a.confidence ≠ b.confidence then decide (a.confidence > b.confidence)
  else decide (a.reasonCode < b.reasonCode)

end ExpansionCandidate

deriving instance DecidableEq for ExpansionReason

instance : Inhabited ExpansionReason := ⟨⟨"", "", 0, "", "", "", .finite 0, "", ""⟩⟩

def betterExpansionReason (a b : ExpansionReason) : Bool :=
  if a.seedBM25Rank ≠ b.seedBM25Rank then decide (a.seedBM25Rank < b.seedBM25Rank)
  else decide (relationPriority a.relationType < relationPriority b.relationType)

def containsExpansionReason (reasons : List ExpansionReason) (reason : ExpansionReason) : Bool :=
  reasons.contains reason

structure ExpansionResult (K : Type) where
  document : Document
  baseScore : K
  trace : ExpansionResultTrace

structure ExpansionSearchTrace where
  source : String
  depth : Nat
  seedCount : Nat
  symbolQueries : Int
  relationQueries : Int
  relationsExamined : Int
  expandedCandidates : Nat
  candidates : List ExpansionResultTrace

structure SortSlice where
  sort : {α : Type} → (α → α → Bool) → List α → List α
  sorts : ∀ {α : Type} {less : α → α → Bool}, WeakOrder less → ∀ entries,
    Sorts less entries (sort less entries)

def SortSlice.insertion : SortSlice where
  sort := sortBy
  sorts := WeakOrder.sorts

def ExpansionCandidate.reasonFor {K : Type} (seed : SearchResult K)
    (neighbor : ExpansionCandidate) :
    ExpansionReason where
  seedSymbolKeyHash := seed.document.symbolKeyHash
  seedSymbol := seed.document.symbolName
  seedBM25Rank := seed.rank
  relationType := neighbor.relationType.text
  direction := neighbor.direction.text
  resolutionKind := neighbor.resolutionKind.text
  confidence := .finite neighbor.confidence
  reasonCode := neighbor.reasonCode
  reason := if neighbor.relationType = .testRelation then "DIRECT_TEST_IMPLEMENTATION_EXPANSION"
    else "SEMANTIC_CALL_EXPANSION"

namespace ExpansionResult

variable {K : Type}

def key (result : ExpansionResult K) : String := result.trace.symbolKeyHash

def ofHit (hit : SearchResult K) : ExpansionResult K where
  document := hit.document
  baseScore := hit.score
  trace :=
    { symbolKeyHash := hit.document.symbolKeyHash
      symbol := hit.document.symbolName
      path := hit.document.filePath
      baseBM25Rank := hit.rank
      expanded := false
      effectiveRank := hit.rank
      finalRank := 0
      bestSeed := none
      reasons := [] }

def ofNeighbor [Zero K] (doc : Document) (rank : Nat) (reason : ExpansionReason) :
    ExpansionResult K where
  document := doc
  baseScore := 0
  trace :=
    { symbolKeyHash := doc.symbolKeyHash
      symbol := doc.symbolName
      path := doc.filePath
      baseBM25Rank := 0
      expanded := true
      effectiveRank := rank + 1
      finalRank := 0
      bestSeed := some reason
      reasons := [] }

def justify (rank : Nat) (reason : ExpansionReason) (result : ExpansionResult K) :
    ExpansionResult K :=
  let trace := if containsExpansionReason result.trace.reasons reason then result.trace
    else { result.trace with reasons := result.trace.reasons ++ [reason] }
  let trace := if betterExpansionReason reason (trace.bestSeed.getD default) then
    { trace with bestSeed := some reason, effectiveRank := rank + 1 } else trace
  { result with trace }

def justifyAt (symbolKeyHash : String) (rank : Nat) (reason : ExpansionReason)
    (result : ExpansionResult K) :
    ExpansionResult K :=
  if result.key = symbolKeyHash then result.justify rank reason else result

def less (one two : ExpansionResult K) : Bool :=
  let a := one.trace
  let b := two.trace
  if a.effectiveRank ≠ b.effectiveRank then decide (a.effectiveRank < b.effectiveRank)
  else if a.expanded ≠ b.expanded then !a.expanded
  else if a.expanded && b.expanded &&
      betterExpansionReason (a.bestSeed.getD default) (b.bestSeed.getD default) then true
  else if a.expanded && b.expanded &&
      betterExpansionReason (b.bestSeed.getD default) (a.bestSeed.getD default) then false
  else decide (a.symbolKeyHash < b.symbolKeyHash)

def rankedFinally (results : List (ExpansionResult K)) : List (ExpansionResult K) :=
  results.mapIdx fun i result =>
    { result with trace := { result.trace with finalRank := (i + 1 : Nat) } }

end ExpansionResult

/-- What the search asks for: the context before every seed, and the store. -/
structure ExpansionWorld where
  contextErr : Nat → Option String
  list : String → ExpansionCandidates × Option String

/-- `ExpansionEngine`; there may be no store. -/
structure ExpansionEngine (K : Type) where
  index : Index K
  world : Option ExpansionWorld
  buildID : Int
  slice : SortSlice

structure Expanding (K : Type) where
  merged : List (ExpansionResult K)
  seenSeeds : List String
  trace : ExpansionSearchTrace

namespace ExpansionEngine

variable {K : Type} (engine : ExpansionEngine K)

def documentOf (symbolKeyHash : String) : Option Document :=
  engine.index.documents.find? (·.symbolKeyHash == symbolKeyHash)

def lexical : List (SearchResult K) → List (ExpansionResult K) → List (ExpansionResult K)
  | [], merged => merged
  | hit :: hits, merged =>
    if hit.document.symbolKeyHash ≠ "" ∧ hit.document.symbolKeyHash ∈ merged.map (·.key) then
      lexical hits merged
    else lexical hits (merged ++ [.ofHit hit])

def matchesRow (doc : Document) (symbol : SymbolRow) : Bool :=
  doc.filePath = symbol.filePath && doc.symbolName = symbol.name &&
    doc.startLine = symbol.startLine && doc.endLine = symbol.endLine

def consider [Zero K] (seed : SearchResult K) (state : Expanding K × Nat)
    (neighbor : ExpansionCandidate) :
    Expanding K × Nat :=
  if !neighbor.valid engine.buildID then state
  else
    match engine.documentOf neighbor.symbol.symbolKeyHash with
    | none => state
    | some doc =>
      if !matchesRow doc neighbor.symbol then state
      else
        let reason := neighbor.reasonFor seed
        let justified (merged : List (ExpansionResult K)) :=
          merged.map (·.justifyAt doc.symbolKeyHash seed.rank reason)
        match state.1.merged.find? (·.key == doc.symbolKeyHash) with
        | some candidate =>
          -- a lexical neighbour gets no better place
          if !candidate.trace.expanded then state
          else ({ state.1 with merged := justified state.1.merged }, state.2)
        | none =>
          if state.2 ≥ perSeedBudget ∨ state.1.trace.expandedCandidates ≥ expansionBudget then state
          else
            ({ state.1 with
                merged := justified (state.1.merged ++ [.ofNeighbor doc seed.rank reason])
                trace := { state.1.trace with
                  expandedCandidates := state.1.trace.expandedCandidates + 1 } },
              state.2 + 1)

def expandSeed [Zero K] (seed : SearchResult K) (neighbors : ExpansionCandidates)
    (state : Expanding K) :
    Expanding K :=
  ((engine.slice.sort ExpansionCandidate.less neighbors.candidates).foldl (engine.consider seed)
    (state, 0)).1

def expandSeeds [Zero K] (world : ExpansionWorld) : Nat → List (SearchResult K) → Expanding K →
    Except (String × ExpansionSearchTrace) (Expanding K)
  | _, [], state => .ok state
  | position, seed :: seeds, state =>
    match world.contextErr position with
    | some err => .error (err, state.trace)
    | none =>
      let key := seed.document.symbolKeyHash
      if key = "" ∨ key ∈ state.seenSeeds then expandSeeds world (position + 1) seeds state
      else
        let (neighbors, err) := world.list key
        let state := { state with
          seenSeeds := key :: state.seenSeeds
          trace := { state.trace with
            seedCount := state.trace.seedCount + 1
            symbolQueries := state.trace.symbolQueries + neighbors.symbolQueries
            relationQueries := state.trace.relationQueries + neighbors.relationQueries
            relationsExamined := state.trace.relationsExamined + neighbors.relationsExamined } }
        match err with
        | some err => .error ("V2 expansion for seed " ++ key ++ ": " ++ err, state.trace)
        | none => expandSeeds world (position + 1) seeds (engine.expandSeed seed neighbors state)

def newTrace : ExpansionSearchTrace := ⟨"symbol_bm25_structural_v2", 1, 0, 0, 0, 0, 0, []⟩

def merge [Zero K] (base : List (SearchResult K)) :
    Except (String × ExpansionSearchTrace) (Expanding K) :=
  let state : Expanding K := ⟨lexical base [], [], newTrace⟩
  match engine.world with
  | none => .ok state
  | some world =>
    if engine.buildID > 0 then
      engine.expandSeeds world 0 (base.take seedBudget) state else .ok state

def topK (topK : Int) : Int := if topK ≤ 0 then 20 else topK

/-- The number of hits that the lexical search is asked for. -/
def baseLimit (k : Int) : Int := wrap (topK k * 2)

def search [Zero K] (base : List (SearchResult K)) (k : Int) :
    Except (String × ExpansionSearchTrace) (List (ExpansionResult K) × ExpansionSearchTrace) :=
  if base = [] then .ok ([], newTrace)
  else do
    let state ← engine.merge base
    let merged :=
      ExpansionResult.rankedFinally (engine.slice.sort ExpansionResult.less state.merged)
    return (merged.take (topK k).toNat, { state.trace with candidates := merged.map (·.trace) })

end ExpansionEngine

end Retrieval

end RepoLens
