import RepoLens.SnapshotRanges

/-!
`internal/indexing/chunk.go`: a file is cut into chunks of lines that overlap. The loop may leave
the lines, which is a panic, or never end, so it runs with fuel.
-/

namespace RepoLens

open Lines

namespace Indexing

structure CodeChunk where
  id : String
  snapshotID : String
  path : String
  language : String
  symbol : String
  startLine : Int
  endLine : Int
  content : Bytes
  contentHash : String
  deriving DecidableEq

structure CodeChunker where
  targetChunkLines : Int
  overlapLines : Int

def newCodeChunker (targetLines overlap : Int) : CodeChunker :=
  let targetLines := if targetLines ≤ 0 then 60 else targetLines
  let overlap := if overlap < 0 ∨ overlap ≥ targetLines then 10 else overlap
  ⟨targetLines, overlap⟩

/-- What a chunk gets from elsewhere: a fresh id, the language of a path, the first symbol of a
text and the digest of a text. -/
structure Labels where
  newID : Nat → String
  detectLanguage : String → String
  extractSymbol : Bytes → String → String
  sha256Hex : Bytes → String

inductive Panic where
  | sliceBounds
  deriving DecidableEq

def sliceLines (lines : List Bytes) (start stop : Int) : Except Panic (List Bytes) :=
  if 0 ≤ start ∧ start ≤ stop ∧ stop ≤ lines.length then
    .ok ((lines.take stop.toNat).drop start.toNat)
  else .error .sliceBounds

section Chunks

variable (labels : Labels) (snapshotID relPath : String)

def newChunk (number : Nat) (chunkLines : List Bytes) (startLine endLine : Int) : CodeChunk :=
  let chunkContent := join newline chunkLines
  { id := labels.newID number
    snapshotID := snapshotID
    path := relPath
    language := labels.detectLanguage relPath
    symbol := labels.extractSymbol chunkContent (labels.detectLanguage relPath)
    startLine := startLine
    endLine := endLine
    content := chunkContent
    contentHash := labels.sha256Hex chunkContent }

variable (chunker : CodeChunker) (lines : List Bytes)

def stopOf (start : Int) : Int := min (start + chunker.targetChunkLines) lines.length

def chunkLoop : Nat → Int → List CodeChunk → Option (Except Panic (List CodeChunk))
  | 0, _, _ => none
  | fuel + 1, start, chunks =>
    if ¬ start < lines.length then some (.ok chunks)
    else
      let stop := stopOf chunker lines start
      match sliceLines lines start stop with
      | .error panic => some (.error panic)
      | .ok chunkLines =>
        let chunks :=
          chunks ++ [newChunk labels snapshotID relPath chunks.length chunkLines (start + 1) stop]
        if stop = lines.length then some (.ok chunks)
        else chunkLoop fuel (start + (chunker.targetChunkLines - chunker.overlapLines)) chunks

end Chunks

def chunkFile (labels : Labels) (chunker : CodeChunker) (snapshotID relPath : String)
    (content : Bytes)
    (fuel : Nat) : Option (Except Panic (List CodeChunk)) :=
  let lines := content.splitOn newline
  if lines.length = 0 then some (.ok [])
  else if lines.length ≤ chunker.targetChunkLines then
    some (.ok [newChunk labels snapshotID relPath 0 lines 1 lines.length])
  else chunkLoop labels snapshotID relPath chunker lines fuel 0 []

structure OfLines (lines : List Bytes) (chunk : CodeChunk) : Prop where
  first : 1 ≤ chunk.startLine
  ordered : chunk.startLine ≤ chunk.endLine
  inside : chunk.endLine ≤ lines.length
  content : chunk.content =
    join newline ((lines.take chunk.endLine.toNat).drop (chunk.startLine.toNat - 1))

inductive Tiles (target overlap : Int) (lines : List Bytes) : Int → List CodeChunk → Prop where
  | last {start : Int} {chunk : CodeChunk} : OfLines lines chunk → chunk.startLine = start →
      chunk.endLine = lines.length → Tiles target overlap lines start [chunk]
  | more {start : Int} {chunk : CodeChunk} {rest : List CodeChunk} : OfLines lines chunk →
      chunk.startLine = start → chunk.endLine = start + target - 1 →
        Tiles target overlap lines (chunk.endLine - overlap + 1) rest →
          Tiles target overlap lines start (chunk :: rest)

structure Covered (target overlap : Int) (lines : List Bytes) (chunks : List CodeChunk) : Prop where
  each : ∀ chunk ∈ chunks, OfLines lines chunk
  first : chunks.head?.map (·.startLine) = some 1
  last : chunks.getLast?.map (·.endLine) = some (lines.length : Int)
  every : ∀ line : Int, 1 ≤ line → line ≤ lines.length →
    ∃ chunk ∈ chunks, chunk.startLine ≤ line ∧ line ≤ chunk.endLine
  full : ∀ chunk ∈ chunks.dropLast, chunk.endLine - chunk.startLine + 1 = target
  overlapping : chunks.IsChain fun chunk next => next.startLine = chunk.endLine - overlap + 1

section Tiling

variable {target overlap start : Int} {lines : List Bytes} {chunks : List CodeChunk}

theorem Tiles.ne_nil (tiles : Tiles target overlap lines start chunks) : chunks ≠ [] := by
  cases tiles <;> simp

theorem Tiles.head (tiles : Tiles target overlap lines start chunks) :
    chunks.head?.map (·.startLine) = some start := by
  cases tiles with
  | last _ starts _ => simp [starts]
  | more _ starts _ _ => simp [starts]

theorem Tiles.each (tiles : Tiles target overlap lines start chunks) :
    ∀ chunk ∈ chunks, OfLines lines chunk := by
  induction tiles with
  | last lines _ _ => simpa using lines
  | more lines _ _ _ ih =>
    intro chunk member
    rcases List.mem_cons.mp member with rfl | later
    · exact lines
    · exact ih chunk later

theorem Tiles.last_line (tiles : Tiles target overlap lines start chunks) :
    chunks.getLast?.map (·.endLine) = some (lines.length : Int) := by
  induction tiles with
  | last _ _ ends => simp [ends]
  | more _ _ _ rest ih =>
    rw [List.getLast?_cons_of_ne_nil rest.ne_nil]
    exact ih

theorem Tiles.full (tiles : Tiles target overlap lines start chunks) :
    ∀ chunk ∈ chunks.dropLast, chunk.endLine - chunk.startLine + 1 = target := by
  induction tiles with
  | last _ _ _ => simp
  | more _ starts ends rest ih =>
    intro chunk member
    rw [List.dropLast_cons_of_ne_nil rest.ne_nil] at member
    rcases List.mem_cons.mp member with rfl | later
    · omega
    · exact ih chunk later

theorem Tiles.overlapping (tiles : Tiles target overlap lines start chunks) :
    chunks.IsChain fun chunk next => next.startLine = chunk.endLine - overlap + 1 := by
  induction tiles with
  | last _ _ _ => exact .singleton _
  | more _ _ _ rest ih =>
    have head := rest.head
    cases rest with
    | last _ starts _ => exact .cons_cons starts (.singleton _)
    | more _ starts _ _ => exact .cons_cons starts ih

theorem Tiles.every (tiles : Tiles target overlap lines start chunks) (nonneg : 0 ≤ overlap) :
    ∀ line, start ≤ line → line ≤ lines.length → ∃ chunk ∈ chunks, chunk.startLine ≤ line ∧
      line ≤ chunk.endLine := by
  induction tiles with
  | last _ starts ends =>
    intro line low high
    exact ⟨_, List.mem_singleton_self _, by omega, by omega⟩
  | @more start chunk rest _ starts ends _ ih =>
    intro line low high
    by_cases here : line ≤ chunk.endLine
    · exact ⟨chunk, List.mem_cons_self, by omega, here⟩
    · obtain ⟨later, member, holds⟩ := ih line (by omega) high
      exact ⟨later, List.mem_cons_of_mem _ member, holds⟩

theorem Tiles.covered (tiles : Tiles target overlap lines 1 chunks) (nonneg : 0 ≤ overlap) :
    Covered target overlap lines chunks :=
  ⟨tiles.each, tiles.head, tiles.last_line, tiles.every nonneg, tiles.full, tiles.overlapping⟩

end Tiling

section Loop

variable {labels : Labels} {snapshotID relPath : String} {chunker : CodeChunker}
    {lines : List Bytes}

theorem sliceLines_ok {start stop : Int} (low : 0 ≤ start) (ordered : start ≤ stop)
    (high : stop ≤ lines.length) :
    sliceLines lines start stop = .ok ((lines.take stop.toNat).drop start.toNat) :=
  if_pos ⟨low, ordered, high⟩

theorem newChunk_ofLines (number : Nat) {start stop : Int} (low : 0 ≤ start)
    (ordered : start < stop)
    (high : stop ≤ lines.length) : OfLines lines (newChunk labels snapshotID relPath number
      ((lines.take stop.toNat).drop start.toNat) (start + 1) stop) := by
  have index : (start + 1).toNat - 1 = start.toNat := by omega
  constructor
  · exact (by omega : 1 ≤ start + 1)
  · exact (by omega : start + 1 ≤ stop)
  · exact high
  · simp only [newChunk, index]

theorem chunkLoop_tiles (nonneg : 0 ≤ chunker.overlapLines)
    (progress : chunker.overlapLines < chunker.targetChunkLines) (left : Nat) (start : Int)
    (chunks : List CodeChunk) (low : 0 ≤ start) (high : start < lines.length)
    (enough : lines.length - start ≤ left) :
    ∃ rest, (∀ fuel ≥ left,
        chunkLoop labels snapshotID relPath chunker lines fuel start chunks =
          some (.ok (chunks ++ rest))) ∧
      Tiles chunker.targetChunkLines chunker.overlapLines lines (start + 1) rest := by
  -- a round moves on by at least one line, so the lines left bound the rounds
  induction left generalizing start chunks with
  | zero => omega
  | succ left ih =>
    have stopHigh : stopOf chunker lines start ≤ lines.length := Int.min_le_right _ _
    have stopLow : start < stopOf chunker lines start := by
      unfold stopOf
      omega
    have slice := sliceLines_ok low (by omega) stopHigh
    have ofLines :=
      @newChunk_ofLines labels snapshotID relPath lines chunks.length _ _ low stopLow stopHigh
    generalize chunk_eq : newChunk labels snapshotID relPath chunks.length _ (start + 1)
      (stopOf chunker lines start) = chunk at ofLines
    have starts : chunk.startLine = start + 1 := by rw [← chunk_eq]; rfl
    have ends : chunk.endLine = stopOf chunker lines start := by rw [← chunk_eq]; rfl
    by_cases last : stopOf chunker lines start = lines.length
    · refine ⟨[chunk], ?_, .last ofLines starts (ends.trans last)⟩
      intro fuel fueled
      obtain ⟨fuel, rfl⟩ := Nat.exists_eq_add_of_le' fueled
      simp only [chunkLoop, high, not_true_eq_false, if_false, slice, chunk_eq]
      exact if_pos last
    · have stop : stopOf chunker lines start = start + chunker.targetChunkLines := by
        unfold stopOf at last ⊢
        omega
      obtain ⟨rest, returns, tiles⟩ :=
        ih (start + (chunker.targetChunkLines - chunker.overlapLines))
        (chunks ++ [chunk]) (by omega) (by omega) (by omega)
      refine ⟨chunk :: rest, ?_, .more ofLines starts (by omega) ?_⟩
      · intro fuel fueled
        obtain ⟨fuel, rfl⟩ := Nat.exists_eq_add_of_le' fueled
        simp only [chunkLoop, high, not_true_eq_false, if_false, slice, chunk_eq, last]
        rw [List.append_cons _ _ rest]
        exact returns _ (Nat.le_add_left left fuel)
      · have next : chunk.endLine - chunker.overlapLines + 1 =
            start + (chunker.targetChunkLines - chunker.overlapLines) + 1 := by omega
        exact next ▸ tiles

theorem chunkLoop_ne_ok (positive : 0 < chunker.targetChunkLines)
    (stuck : chunker.targetChunkLines ≤ chunker.overlapLines)
    (long : chunker.targetChunkLines < lines.length) (fuel : Nat) (start : Int)
    (chunks result : List CodeChunk)
    (low : start ≤ 0) : chunkLoop labels snapshotID relPath chunker lines fuel start chunks ≠
      some (.ok result) := by
  induction fuel generalizing start chunks with
  | zero => simp [chunkLoop]
  | succ fuel ih =>
    have inside : start < lines.length := by omega
    have notLast : stopOf chunker lines start ≠ lines.length := by
      unfold stopOf
      omega
    simp only [chunkLoop, inside, not_true_eq_false, if_false, notLast]
    cases slice : sliceLines lines start (stopOf chunker lines start) with
    | error panic => simp
    | ok chunkLines => exact ih _ _ (by omega)

theorem newChunk_tiles {target overlap : Int} {number : Nat} (some_line : 0 < lines.length) :
    Tiles target overlap lines 1
      [newChunk labels snapshotID relPath number lines 1 lines.length] := by
  apply Tiles.last
  · have whole :=
      @newChunk_ofLines labels snapshotID relPath lines number 0 lines.length le_rfl (by omega)
      le_rfl
    simpa using whole
  · rfl
  · rfl

theorem chunkFile_eq {content : Bytes} {fuel : Nat} (split : content.splitOn newline = lines) :
    chunkFile labels chunker snapshotID relPath content fuel =
      if lines.length ≤ chunker.targetChunkLines then
        some (.ok [newChunk labels snapshotID relPath 0 lines 1 lines.length])
      else chunkLoop labels snapshotID relPath chunker lines fuel 0 [] := by
  have some_line : lines.length ≠ 0 := by
    rw [← split]
    exact (List.length_pos_iff.mpr (List.splitOn_ne_nil _ _)).ne'
  simp only [chunkFile, split, some_line, if_false]

variable (labels snapshotID relPath) in

theorem chunkFile_tiles {content : Bytes} (split : content.splitOn newline = lines)
    (nonneg : 0 ≤ chunker.overlapLines) (progress : chunker.overlapLines < chunker.targetChunkLines)
    (long : ¬ lines.length ≤ chunker.targetChunkLines) :
    ∃ chunks, (∀ fuel ≥ lines.length,
        chunkFile labels chunker snapshotID relPath content fuel = some (.ok chunks)) ∧
      Tiles chunker.targetChunkLines chunker.overlapLines lines 1 chunks := by
  obtain ⟨chunks, returns, tiles⟩ :=
    @chunkLoop_tiles labels snapshotID relPath chunker lines nonneg progress lines.length 0
    [] le_rfl (by omega) (by omega)
  refine ⟨chunks, ?_, tiles⟩
  intro fuel enough
  rw [chunkFile_eq split, if_neg long]
  exact returns fuel enough

end Loop

theorem newCodeChunker_progress_iff (targetLines overlap : Int) :
    (newCodeChunker targetLines overlap).overlapLines <
      (newCodeChunker targetLines overlap).targetChunkLines ↔
      targetLines ≤ 0 ∨ 10 < targetLines ∨ 0 ≤ overlap ∧ overlap < targetLines := by
  simp only [newCodeChunker]
  split <;> split <;> omega

theorem newCodeChunker_target (targetLines overlap : Int) :
    (newCodeChunker targetLines overlap).targetChunkLines = if targetLines ≤ 0 then
      60 else targetLines := rfl

theorem newCodeChunker_overlap_nonneg (targetLines overlap : Int) :
    0 ≤ (newCodeChunker targetLines overlap).overlapLines := by
  simp only [newCodeChunker]
  split <;> omega

/-- With enough fuel the chunks cover the file exactly when the overlap that the constructor settles
on is below the target, or the file fits into one chunk. -/
theorem chunkFile_covered_iff (labels : Labels) (targetLines overlap : Int)
    (snapshotID relPath : String) (content : Bytes) :
    (∃ enough chunks, (∀ fuel ≥ enough,
      chunkFile labels (newCodeChunker targetLines overlap) snapshotID relPath
          content fuel = some (.ok chunks)) ∧
        Covered (newCodeChunker targetLines overlap).targetChunkLines
          (newCodeChunker targetLines overlap).overlapLines
          (content.splitOn newline) chunks) ↔
      targetLines ≤ 0 ∨ 10 < targetLines ∨ 0 ≤ overlap ∧ overlap < targetLines ∨
        (content.splitOn newline).length ≤ targetLines := by
  have nonneg := newCodeChunker_overlap_nonneg targetLines overlap
  have progress := newCodeChunker_progress_iff targetLines overlap
  have target := newCodeChunker_target targetLines overlap
  have some_line : 0 < (content.splitOn newline).length :=
    List.length_pos_iff.mpr (List.splitOn_ne_nil _ _)
  generalize newCodeChunker targetLines overlap = chunker at nonneg progress target ⊢
  generalize split : content.splitOn newline = lines at some_line ⊢
  constructor
  · rintro ⟨enough, chunks, returns, _⟩
    by_contra bad
    have result := returns enough le_rfl
    rw [chunkFile_eq split, if_neg (by omega)] at result
    exact chunkLoop_ne_ok (by omega) (by omega) (by omega) enough 0 [] chunks le_rfl result
  · intro good
    by_cases small : (lines.length : Int) ≤ chunker.targetChunkLines
    · refine ⟨0, [newChunk labels snapshotID relPath 0 lines 1 lines.length], ?_, ?_⟩
      · intro fuel _
        rw [chunkFile_eq split, if_pos small]
      · exact (newChunk_tiles some_line).covered nonneg
    · obtain ⟨chunks, returns, tiles⟩ :=
        chunkFile_tiles labels snapshotID relPath split nonneg (by omega) small
      exact ⟨lines.length, chunks, returns, tiles.covered nonneg⟩

/-- Ten lines with ten lines of overlap: the loop never leaves the first line. With nine it leaves
the file. -/
theorem chunkFile_unbounded :
    (∀ fuel, chunkFile ⟨fun _ => "", fun _ => "", fun _ _ => "",
      fun _ => ""⟩ (newCodeChunker 10 10) "s" "a.txt"
        (List.replicate 10 newline) fuel = none) ∧
      chunkFile ⟨fun _ => "", fun _ => "", fun _ _ => "",
        fun _ => ""⟩ (newCodeChunker 9 10) "s" "a.txt"
        (List.replicate 10 newline) 2 = some (.error .sliceBounds) := by
  constructor
  · intro fuel
    rw [chunkFile_eq (by decide : _ = List.replicate 11 []), if_neg (by decide)]
    generalize ([] : List CodeChunk) = chunks
    induction fuel generalizing chunks with
    | zero => rfl
    | succ fuel ih => exact ih _
  · decide

end Indexing

end RepoLens
