import RepoLens.Lib.Lines

/-!
The line ranges that `internal/platform/snapshotstore` reads from a snapshot file.
-/

namespace RepoLens

abbrev Bytes := List UInt8

def newline : UInt8 := 10

/-- An error of the snapshot store. -/
inductive SnapshotErr where
  | lineTooLong
  | message (text : String)
  deriving DecidableEq, Repr

def SnapshotErr.error : SnapshotErr → String
  | .lineTooLong => "snapshot file line exceeds the configured range limit"
  | .message text => text

/-- The answers of `reader.ReadSlice('\n')` in a loop that first looks at the
context. -/
inductive Reader where
  /-- `io.EOF` with what was left. -/
  | eof (part : Bytes)
  /-- No error: `part` and a newline. -/
  | line (part : Bytes) (rest : Reader)
  /-- `bufio.ErrBufferFull`. -/
  | full (part : Bytes) (rest : Reader)
  /-- Any other error. -/
  | failed (part : Bytes) (err : SnapshotErr)
  /-- The context is done before the call. -/
  | cancelled (err : SnapshotErr)
  deriving DecidableEq, Repr

/-- The reader hands out exactly this content, without an error: a slice is cut at
the first newline or, anywhere before it, where the buffer is full. -/
inductive Reader.Reads : Reader → Bytes → Prop
  | eof {part : Bytes} : newline ∉ part → Reads (.eof part) part
  | line {part content : Bytes} {rest : Reader} :
      newline ∉ part → Reads rest content → Reads (.line part rest) (part ++ newline :: content)
  | full {part content : Bytes} {rest : Reader} :
      newline ∉ part → Reads rest content → Reads (.full part rest) (part ++ content)

structure FileRange where
  path : String
  startLine : Int
  endLine : Int
  totalLines : Nat
  content : Bytes
  truncated : Bool
  deriving DecidableEq, Repr

/-- The arguments of `readBoundedLines`. -/
structure RangeQuery where
  startLine : Int
  requestedEnd : Int
  maxBytes : Int
  stopAtEnd : Bool
  deriving DecidableEq, Repr

/-- The local variables of `readBoundedLines`. -/
structure LineScan where
  content : Bytes
  lineNo : Nat
  totalLines : Nat
  selectedLines : Nat
  currentLine : Bytes
  currentLineTooLong : Bool
  truncated : Bool
  actualEndLine : Int
  deriving DecidableEq, Repr

/-- What `readBoundedLines` returns when it returns no error. -/
structure BoundedLines where
  content : Bytes
  endLine : Int
  totalLines : Nat
  truncated : Bool
  totalKnown : Bool
  deriving DecidableEq, Repr

namespace LineScan

variable (query : RangeQuery)

def init : LineScan := ⟨[], 1, 1, 0, [], false, false, query.startLine - 1⟩

def selected (scan : LineScan) : Bool :=
  decide (query.startLine ≤ scan.lineNo) &&
    (decide (query.requestedEnd ≤ 0) || decide ((scan.lineNo : Int) ≤ query.requestedEnd)) &&
    !scan.truncated

def collect (scan : LineScan) (part : Bytes) :
    Except SnapshotErr BoundedLines ⊕ LineScan :=
  if scan.selected query && !scan.currentLineTooLong then
    if 0 < query.maxBytes ∧ query.maxBytes < scan.currentLine.length + part.length then
      if query.stopAtEnd then
        if scan.selectedLines = 0 then .inl (.error .lineTooLong)
        else .inl (.ok ⟨scan.content, scan.actualEndLine, 0, true, false⟩)
      else .inr { scan with currentLineTooLong := true, currentLine := [] }
    else .inr { scan with currentLine := scan.currentLine ++ part }
  else .inr scan

def separatorBytes (scan : LineScan) : Nat := if 0 < scan.selectedLines then 1 else 0

def overflows (scan : LineScan) : Bool :=
  scan.currentLineTooLong ||
    decide (0 < query.maxBytes ∧
      query.maxBytes < scan.content.length + scan.separatorBytes + scan.currentLine.length)

def complete (scan : LineScan) : Except SnapshotErr LineScan :=
  let reset (scan : LineScan) : LineScan :=
    { scan with currentLine := [], currentLineTooLong := false }
  if scan.selected query then
    if scan.overflows query then
      if scan.selectedLines = 0 then .error .lineTooLong
      else .ok (reset { scan with truncated := true })
    else
      .ok (reset { scan with
        content :=
          (if 0 < scan.selectedLines then scan.content ++ [newline] else scan.content) ++
            scan.currentLine
        selectedLines := scan.selectedLines + 1
        actualEndLine := scan.lineNo })
  else .ok (reset scan)

def nextLine (scan : LineScan) : LineScan :=
  { scan with lineNo := scan.lineNo + 1, totalLines := scan.totalLines + 1 }

def stops (scan : LineScan) : Bool :=
  query.stopAtEnd &&
    ((decide (0 < query.requestedEnd) && decide (query.requestedEnd < scan.lineNo)) ||
      scan.truncated)

def result (totalKnown : Bool) (scan : LineScan) : BoundedLines :=
  ⟨scan.content, scan.actualEndLine, scan.totalLines, scan.truncated, totalKnown⟩

end LineScan

def scanLines (query : RangeQuery) : Reader → LineScan → Except SnapshotErr BoundedLines
  | .cancelled err, _ => .error err
  | .failed part err, scan =>
    match scan.collect query part with
    | .inl returned => returned
    | .inr _ => .error err
  | .full part rest, scan =>
    match scan.collect query part with
    | .inl returned => returned
    | .inr scan => scanLines query rest scan
  | .eof part, scan =>
    match scan.collect query part with
    | .inl returned => returned
    | .inr scan => (scan.complete query).map (LineScan.result true)
  | .line part rest, scan =>
    match scan.collect query part with
    | .inl returned => returned
    | .inr scan =>
      match scan.complete query with
      | .error err => .error err
      | .ok scan =>
        if scan.nextLine.stops query then .ok (scan.nextLine.result false)
        else scanLines query rest scan.nextLine

def readBoundedLines (reader : Reader) (query : RangeQuery) : Except SnapshotErr BoundedLines :=
  scanLines query reader (.init query)

def rangeText (startLine endLine : Int) : String :=
  "invalid line range: " ++ toString startLine ++ " to " ++ toString endLine

def readRange (reader : Reader) (path : String) (startLine endLine maxBytes : Int)
    (stopAtEnd : Bool) : Except SnapshotErr FileRange := do
  let startLine := if startLine ≤ 0 then 1 else startLine
  if 0 < endLine ∧ endLine < startLine then
    throw (.message (rangeText startLine endLine))
  let lines ← readBoundedLines reader ⟨startLine, endLine, maxBytes, stopAtEnd⟩
  if lines.totalKnown && decide ((lines.totalLines : Int) < startLine) then
    throw (.message (rangeText startLine endLine ++
      " (total lines " ++ toString lines.totalLines ++ ")"))
  return {
    path
    startLine
    endLine := lines.endLine
    totalLines := if lines.totalKnown then lines.totalLines else 0
    content := lines.content
    truncated := lines.truncated }

structure LineRange where
  startLine : Int
  endLine : Int
  deriving DecidableEq, Repr

structure BoundedLineRangeResult where
  content : Bytes
  err : Option SnapshotErr
  deriving DecidableEq, Repr

structure BoundedRangeState where
  content : Bytes
  bytes : Nat
  hasLine : Bool
  started : Bool
  done : Bool
  err : Option SnapshotErr
  deriving DecidableEq, Repr

namespace BoundedRangeState

def zero : BoundedRangeState := ⟨[], 0, false, false, false, none⟩

def separatorBytes (state : BoundedRangeState) : Nat := if state.hasLine then 1 else 0

def append (state : BoundedRangeState) (line : Bytes) : BoundedRangeState :=
  { state with
    content := (if state.hasLine then state.content ++ [newline] else state.content) ++ line
    bytes := state.bytes + (state.separatorBytes + line.length)
    hasLine := true }

end BoundedRangeState

/-- The local variables of `readBoundedRanges`. -/
structure RangesScan where
  states : Nat → BoundedRangeState
  active : List Nat
  waiting : List Nat
  completed : Nat
  lineNo : Nat
  line : Bytes
  lineTooLong : Bool

namespace RangesScan

variable (ranges : List LineRange) (maxBytes : Int)

def rangeAt (index : Nat) : LineRange := ranges.getD index ⟨0, 0⟩

def order : List Nat :=
  (List.range ranges.length).insertionSort fun i j =>
    (rangeAt ranges i).startLine ≤ (rangeAt ranges j).startLine

def init : RangesScan := ⟨fun _ => .zero, [], order ranges, 0, 1, [], false⟩

def enlist (scan : RangesScan) : RangesScan :=
  let reached (index : Nat) : Bool := decide ((rangeAt ranges index).startLine ≤ scan.lineNo)
  let starting := scan.waiting.takeWhile reached
  let states (index : Nat) : BoundedRangeState :=
    if index ∈ starting then { scan.states index with started := true } else scan.states index
  { scan with
    states
    active := (scan.active ++ starting).filter fun index =>
      !(states index).done && decide ((scan.lineNo : Int) ≤ (rangeAt ranges index).endLine)
    waiting := scan.waiting.dropWhile reached }

def collect (scan : RangesScan) (part : Bytes) : RangesScan :=
  if scan.active ≠ [] ∧ scan.lineTooLong = false then
    if maxBytes < scan.line.length + part.length then
      { scan with lineTooLong := true, line := [] }
    else { scan with line := scan.line ++ part }
  else scan

def setState (scan : RangesScan) (index : Nat) (state : BoundedRangeState) : RangesScan :=
  { scan with states := Function.update scan.states index state }

def finish (scan : RangesScan) (index : Nat) (err : Option SnapshotErr) : RangesScan :=
  if (scan.states index).done then scan
  else
    { scan.setState index { scan.states index with done := true, err } with
      completed := scan.completed + 1 }

def overflow (scan : RangesScan) (index : Nat) : RangesScan :=
  scan.finish index (if (scan.states index).bytes = 0 then some .lineTooLong else none)

def deliver (scan : RangesScan) (index : Nat) : RangesScan :=
  let state := scan.states index
  if scan.lineTooLong then scan.overflow index
  else if maxBytes < state.bytes + state.separatorBytes + scan.line.length then
    scan.overflow index
  else
    let scan := scan.setState index (state.append scan.line)
    if (rangeAt ranges index).endLine ≤ scan.lineNo then scan.finish index none else scan

def complete (scan : RangesScan) : RangesScan :=
  { scan.active.foldl (deliver ranges maxBytes) scan with line := [], lineTooLong := false }

def nextLine (scan : RangesScan) : RangesScan := { scan with lineNo := scan.lineNo + 1 }

def result (scan : RangesScan) (index : Nat) : BoundedLineRangeResult where
  content := (scan.states index).content
  err :=
    if (scan.states index).started then (scan.states index).err
    else some (.message (rangeText (rangeAt ranges index).startLine
      (rangeAt ranges index).endLine ++
      " (total lines " ++ toString scan.lineNo ++ ")"))

end RangesScan

def scanRanges (ranges : List LineRange) (maxBytes : Int) :
    Reader → RangesScan → Except SnapshotErr RangesScan
  | .cancelled err, _ => .error err
  | .failed _ err, _ => .error err
  | .full part rest, scan =>
    scanRanges ranges maxBytes rest ((scan.enlist ranges).collect maxBytes part)
  | .eof part, scan =>
    .ok (((scan.enlist ranges).collect maxBytes part).complete ranges maxBytes)
  | .line part rest, scan =>
    let scan :=
      (((scan.enlist ranges).collect maxBytes part).complete ranges maxBytes).nextLine
    if scan.completed = ranges.length then .ok scan else scanRanges ranges maxBytes rest scan

def readBoundedRanges (reader : Reader) (ranges : List LineRange) (maxBytes : Int) :
    Except SnapshotErr (List BoundedLineRangeResult) :=
  if ranges = [] then .ok []
  else
    (scanRanges ranges maxBytes reader (.init ranges)).map fun scan =>
      (List.range ranges.length).map (scan.result ranges)

end RepoLens
