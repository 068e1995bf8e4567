import RepoLens.SearchCode

/-!
`internal/retrieval/query.go`: the packet of initial evidence.
-/

namespace RepoLens

open Utf8

namespace Evidence

/-- The value of an `int`, which has 64 bits. -/
def wrap (n : Int) : Int := n.bmod (2 ^ 64)

/-- `itoa`: the loop over the digits does not start for a negative number. -/
def itoa (value : Int) : List Char := if value < 0 then [] else Nat.toDigits 10 value.toNat

/-- A number without sign at four digits behind the point, exactly half way to the even one. -/
def roundFour (value : Rat) : Nat :=
  let scaled := value * 10000
  let below := scaled.floor.toNat
  let rest := scaled - below
  if 1 / 2 < rest ∨ (rest = 1 / 2 ∧ below % 2 = 1) then below + 1 else below

def fourDigits (n : Nat) : List Char :=
  [n / 1000 % 10, n / 100 % 10, n / 10 % 10, n % 10].map Nat.digitChar

/-- `strconv.FormatFloat(value, 'f', 4, 64)` -/
def fmtFloat : Float64 → List Char
  | .finite value =>
    let n := roundFour |value|
    (if value < 0 then ['-'] else []) ++ Nat.toDigits 10 (n / 10000) ++ '.' ::
      fourDigits (n % 10000)
  | .nan => "NaN".toList
  | .infinite negative => (if negative then "-Inf" else "+Inf").toList

def trimRight (cut : Char) (text : List Char) : List Char :=
  (text.reverse.dropWhile (· == cut)).reverse

def formatScore (value : Float64) : List Char := trimRight '.' (trimRight '0' (fmtFloat value))

namespace SearchResult

def resultLineKey (result : SearchResult) : List Char :=
  itoa result.startLine ++ '-' :: itoa result.endLine

def key (result : SearchResult) : List Char := result.path.toList ++ ':' :: result.resultLineKey

def reason (result : SearchResult) : String :=
  if result.retrievalReason = "" then result.retrievalSource else result.retrievalReason

def entry (result : SearchResult) : Bytes :=
  ofString ("- evidence_id=" ++ result.evidenceID ++ " " ++ String.ofList result.key ++ " score=" ++
    String.ofList (formatScore result.score) ++ " reason=" ++ result.reason ++ " matched_terms=" ++
    ",".intercalate result.matchedTerms ++ " symbol_keys=" ++ ",".intercalate result.symbolKeys ++
      "\n") ++
    result.snippet ++ ofString "\n"

/-- The body of the loop of `overlapsAccepted`. -/
def overlaps (candidate previous : SearchResult) : Bool :=
  if previous.path ≠ candidate.path then false
  else
    let start := if candidate.startLine > previous.startLine then candidate.startLine
      else previous.startLine
    let stop := if candidate.endLine < previous.endLine then candidate.endLine else previous.endLine
    if stop < start then false
    else
      let overlap := wrap (stop - start + 1)
      let previousLength := wrap (previous.endLine - previous.startLine + 1)
      let candidateLength := wrap (candidate.endLine - candidate.startLine + 1)
      let shorter := if candidateLength < previousLength then candidateLength else previousLength
      decide (shorter > 0 ∧ wrap (overlap * 2) ≥ shorter)

end SearchResult

def overlapsAccepted (candidate : SearchResult) (accepted : List SearchResult) : Bool :=
  accepted.any candidate.overlaps

/-- The variables of the loop of `BuildEvidencePacket`. -/
structure Packet where
  seen : List (List Char)
  accepted : List SearchResult
  builder : Bytes

def Packet.accept (packet : Packet) (result : SearchResult) : Packet where
  seen := result.key :: packet.seen
  accepted := packet.accepted ++ [result]
  builder := packet.builder ++ result.entry

def collect (maxBytes : Int) : List SearchResult → Packet → Packet
  | [], packet => packet
  | result :: results, packet =>
    if result.key ∈ packet.seen then collect maxBytes results packet
    else if overlapsAccepted result packet.accepted then collect maxBytes results packet
    else if packet.builder.length + result.entry.length > maxBytes then packet
    else collect maxBytes results (packet.accept result)

def packetLimit (maxBytes : Int) : Int := if maxBytes ≤ 0 then 32 * 1024 else maxBytes

def buildEvidencePacket (results : List SearchResult) (maxBytes : Int) : Bytes :=
  (collect (packetLimit maxBytes) results ⟨[], [], []⟩).builder

namespace SearchResult

noncomputable def lines (result : SearchResult) : Finset Int :=
  Finset.Icc result.startLine result.endLine

def HalfShared (one two : SearchResult) : Prop :=
  one.path = two.path ∧ min one.lines.card two.lines.card ≤ 2 * (one.lines ∩ two.lines).card

/-- The lines of a file; a file has far fewer than `2 ^ 62` of them. -/
structure Placed (result : SearchResult) : Prop where
  first : 1 ≤ result.startLine
  last : result.startLine ≤ result.endLine
  bounded : result.endLine < 2 ^ 62

end SearchResult

theorem wrap_eq {n : Int} (low : 0 ≤ n) (high : n < 2 ^ 63) : wrap n = n := by
  unfold wrap
  exact Int.bmod_eq_of_le (by omega) (by omega)

theorem colon_notMem_itoa (n : Int) : ':' ∉ itoa n := by
  unfold itoa
  split
  · simp
  · intro member
    exact absurd (Nat.isDigit_of_mem_toDigits (by decide) (by decide) member) (by decide)

theorem dash_notMem_itoa (n : Int) : '-' ∉ itoa n := by
  unfold itoa
  split
  · simp
  · intro member
    exact absurd (Nat.isDigit_of_mem_toDigits (by decide) (by decide) member) (by decide)

theorem itoa_inj {n m : Int} (left : 0 ≤ n) (right : 0 ≤ m) (same : itoa n = itoa m) : n = m := by
  unfold itoa at same
  rw [if_neg (by omega), if_neg (by omega)] at same
  have values : n.toNat = m.toNat := by
    rw [← Nat.toList_repr, ← Nat.toList_repr, String.toList_inj] at same
    exact Nat.repr_inj.mp same
  omega

namespace SearchResult
variable {result : SearchResult}

theorem card_lines (placed : result.Placed) :
    (result.lines.card : Int) = result.endLine - result.startLine + 1 := by
  have last := placed.last
  rw [lines, Int.card_Icc, Int.toNat_of_nonneg (by omega)]
  ring

theorem card_shared (one two : SearchResult) : ((one.lines ∩ two.lines).card : Int) =
    max 0 (min one.endLine two.endLine - max one.startLine two.startLine + 1) := by
  have shared : one.lines ∩ two.lines =
      Finset.Icc (max one.startLine two.startLine) (min one.endLine two.endLine) := by
    ext line
    simp only [lines, Finset.mem_inter, Finset.mem_Icc]
    omega
  rw [shared, Int.card_Icc]
  omega

theorem overlaps_iff {candidate previous : SearchResult} (placed : candidate.Placed)
    (before : previous.Placed) : candidate.overlaps previous = true ↔
      HalfShared previous candidate := by
  have lengths := card_lines placed
  have lengths_ := card_lines before
  have shared := card_shared previous candidate
  obtain ⟨first, last, bounded⟩ := placed
  obtain ⟨first_, last_, bounded_⟩ := before
  unfold overlaps HalfShared
  by_cases path : previous.path = candidate.path
  · simp only [path, ne_eq, not_true_eq_false, if_false, true_and]
    have start : (if candidate.startLine > previous.startLine then candidate.startLine
        else previous.startLine) = max previous.startLine candidate.startLine := by
      split_ifs <;> omega
    have stop : (if candidate.endLine < previous.endLine then candidate.endLine
        else previous.endLine) = min previous.endLine candidate.endLine := by
      split_ifs <;> omega
    rw [start, stop, @wrap_eq (previous.endLine - previous.startLine + 1) (by omega) (by omega),
      @wrap_eq (candidate.endLine - candidate.startLine + 1) (by omega) (by omega)]
    by_cases apart : min previous.endLine candidate.endLine <
      max previous.startLine candidate.startLine
    · rw [if_pos apart]
      simp only [Bool.false_eq_true, false_iff]
      omega
    · -- the doubled overlap stays below `2 ^ 63`
      have overlap : wrap (min previous.endLine candidate.endLine -
          max previous.startLine candidate.startLine + 1) =
            min previous.endLine candidate.endLine - max previous.startLine candidate.startLine +
              1 :=
        wrap_eq (by omega) (by omega)
      rw [if_neg apart, overlap, wrap_eq (by omega) (by omega), decide_eq_true_eq]
      omega
  · simp [path]

theorem eq_of_key_eq {one two : SearchResult} (placed : one.Placed) (placed_ : two.Placed)
    (same : one.key = two.key) : one.path = two.path ∧ one.lines = two.lines := by
  have plain (result : SearchResult) : ':' ∉ result.resultLineKey := by
    simp [resultLineKey, colon_notMem_itoa]
  have pieces := congrArg (List.splitOn ':') same
  rw [key, key, Lines.splitOn_append_last ':' (plain one),
    Lines.splitOn_append_last ':' (plain two)] at pieces
  obtain ⟨paths, ranges⟩ := List.append_inj' pieces rfl
  have path : one.path = two.path := String.toList_inj.mp ((Lines.splitOn_inj ':').mp paths)
  have range : one.resultLineKey = two.resultLineKey := List.singleton_inj.mp ranges
  rw [resultLineKey, resultLineKey,
    List.append_cons_inj_of_notMem (dash_notMem_itoa _) (dash_notMem_itoa _)] at range
  have first := placed.first
  have first_ := placed_.first
  have last := placed.last
  have last_ := placed_.last
  rw [lines, lines, itoa_inj (by omega) (by omega) range.1,
    itoa_inj (by omega) (by omega) range.2.2]
  exact ⟨path, rfl⟩

end SearchResult

structure Selection (results : List SearchResult) (selected : List (SearchResult × Nat)) :
    Prop where
  among : selected.Sublist results.zipIdx
  apart : selected.Pairwise fun one two => ¬ one.1.HalfShared two.1
  covered : ∀ row ∈ results.zipIdx, row ∈ selected ∨
    ∃ earlier ∈ selected, earlier.2 < row.2 ∧ earlier.1.HalfShared row.1

def packetText (selected : List (SearchResult × Nat)) : Bytes := selected.flatMap (·.1.entry)

def Stopped (limit : Int) (selected : List (SearchResult × Nat)) : List SearchResult → Prop
  | [] => True
  | result :: _ => (∀ row ∈ selected, ¬ row.1.HalfShared result) ∧
      limit < (packetText selected).length + result.entry.length

structure Packet.Holds (packet : Packet) (limit : Int) (selected : List (SearchResult × Nat)) :
    Prop where
  seen : packet.seen = (selected.map (·.1.key)).reverse
  accepted : packet.accepted = selected.map (·.1)
  builder : packet.builder = packetText selected
  within : packet.builder.length ≤ limit

theorem Selection.skip {done : List SearchResult} {selected : List (SearchResult × Nat)}
    (selection : Selection done selected) (repeats : ∃ row ∈ selected, row.1.HalfShared result) :
    Selection (done ++ [result]) selected := by
  have places : (done ++ [result]).zipIdx = done.zipIdx ++ [(result, done.length)] := by
    simp [List.zipIdx_append]
  refine ⟨?_, selection.apart, ?_⟩
  · rw [places]
    exact selection.among.trans (List.sublist_append_left _ _)
  · intro row member
    rw [places, List.mem_append, List.mem_singleton] at member
    rcases member with before | rfl
    · exact selection.covered row before
    · obtain ⟨earlier, chosen, half⟩ := repeats
      have place := (List.mem_zipIdx (selection.among.subset chosen)).2.1
      exact .inr ⟨earlier, chosen, by omega, half⟩

theorem Selection.take {done : List SearchResult} {selected : List (SearchResult × Nat)}
    (selection : Selection done selected) (fresh : ∀ row ∈ selected, ¬ row.1.HalfShared result) :
    Selection (done ++ [result]) (selected ++ [(result, done.length)]) := by
  have places : (done ++ [result]).zipIdx = done.zipIdx ++ [(result, done.length)] := by
    simp [List.zipIdx_append]
  constructor
  · rw [places]
    exact selection.among.append (List.Sublist.refl _)
  · rw [List.pairwise_append]
    exact ⟨selection.apart, List.pairwise_singleton _ _, fun row member last single => by
      rw [List.mem_singleton.mp single]
      exact fresh row member⟩
  · intro row member
    rw [places, List.mem_append, List.mem_singleton] at member
    rcases member with before | rfl
    · rcases selection.covered row before with chosen | ⟨earlier, chosen, half⟩
      · exact .inl (List.mem_append_left _ chosen)
      · exact .inr ⟨earlier, List.mem_append_left _ chosen, half⟩
    · exact .inl (List.mem_append_right _ (List.mem_singleton_self _))

namespace Packet

variable {packet : Packet} {limit : Int} {selected : List (SearchResult × Nat)}
    {result : SearchResult}

theorem Holds.overlaps_iff (holds : packet.Holds limit selected) (placed : result.Placed)
    (before : ∀ row ∈ selected, row.1.Placed) : overlapsAccepted result packet.accepted = true ↔
      ∃ row ∈ selected, row.1.HalfShared result := by
  rw [overlapsAccepted, holds.accepted, List.any_map, List.any_eq_true]
  apply exists_congr
  intro row
  apply and_congr_right
  intro member
  exact SearchResult.overlaps_iff placed (before row member)

theorem Holds.seen_repeats (holds : packet.Holds limit selected) (placed : result.Placed)
    (before : ∀ row ∈ selected, row.1.Placed) (seen : result.key ∈ packet.seen) :
    ∃ row ∈ selected, row.1.HalfShared result := by
  rw [holds.seen, List.mem_reverse, List.mem_map] at seen
  obtain ⟨row, member, same⟩ := seen
  obtain ⟨path, lines⟩ := SearchResult.eq_of_key_eq (before row member) placed same
  refine ⟨row, member, path, ?_⟩
  rw [lines, Finset.inter_self, min_self]
  omega

theorem Holds.accept (holds : packet.Holds limit selected) (place : Nat)
    (fits : packet.builder.length + result.entry.length ≤ limit) :
    (packet.accept result).Holds limit (selected ++ [(result, place)]) := by
  constructor
  · simp [Packet.accept, holds.seen]
  · simp [Packet.accept, holds.accepted]
  · simp [Packet.accept, holds.builder, packetText]
  · rw [Packet.accept, List.length_append]
    omega

end Packet

theorem collect_selection {limit : Int} {rest done : List SearchResult} {packet : Packet}
    {selected : List (SearchResult × Nat)} (placed : ∀ result ∈ done ++ rest, result.Placed)
    (selection : Selection done selected) (holds : packet.Holds limit selected) :
    ∃ before after chosen, done ++ rest = before ++ after ∧ Selection before chosen ∧
      Stopped limit chosen after ∧ (collect limit rest packet).Holds limit chosen := by
  induction rest generalizing done packet selected with
  | nil => exact ⟨done, [], selected, rfl, selection, trivial, holds⟩
  | cons result rest ih =>
    have here : result.Placed := placed result (by simp)
    have chosen : ∀ row ∈ selected, row.1.Placed := by
      intro row member
      have inside := (List.mem_zipIdx' (selection.among.subset member)).2
      exact placed row.1 (by rw [inside]; simp)
    have split_ : done ++ result :: rest = done ++ [result] ++ rest := by simp
    rw [split_] at placed ⊢
    unfold collect
    split_ifs with seen overlaps full
    · exact ih placed (selection.skip (holds.seen_repeats here chosen seen)) holds
    · exact ih placed (selection.skip ((holds.overlaps_iff here chosen).mp overlaps)) holds
    · have fresh : ∀ row ∈ selected, ¬ row.1.HalfShared result := fun row member half =>
        overlaps ((holds.overlaps_iff here chosen).mpr ⟨row, member, half⟩)
      refine ⟨done, result :: rest, selected, by simp, selection, ⟨fresh, ?_⟩, holds⟩
      rw [← holds.builder]
      exact full
    · have fresh : ∀ row ∈ selected, ¬ row.1.HalfShared result := fun row member half =>
        overlaps ((holds.overlaps_iff here chosen).mpr ⟨row, member, half⟩)
      exact ih placed (selection.take fresh) (holds.accept _ (by omega))

/-- The packet is the text of a selection within the limit: no two selected results share half of
the shorter one's lines, and a result is missing only if it does so with an earlier one or comes
after the first that does not fit. -/
theorem buildEvidencePacket_selects (results : List SearchResult) (maxBytes : Int)
    (placed : ∀ result ∈ results, result.Placed) :
    ∃ before after selected, results = before ++ after ∧
      buildEvidencePacket results maxBytes = packetText selected ∧
      (packetText selected).length ≤ packetLimit maxBytes ∧
      Selection before selected ∧ Stopped (packetLimit maxBytes) selected after := by
  have empty : Selection [] [] := ⟨List.Sublist.refl _, List.Pairwise.nil, by simp⟩
  have start : Packet.Holds ⟨[], [], []⟩ (packetLimit maxBytes) [] := by
    refine ⟨rfl, rfl, rfl, ?_⟩
    unfold packetLimit
    split <;> simp
    omega
  obtain ⟨before, after, selected, whole, selection, stopped, holds⟩ :=
    @collect_selection _ results [] _ _ placed empty start
  exact ⟨before, after, selected, whole, holds.builder, holds.builder ▸ holds.within, selection,
    stopped⟩

def lineResult (startLine endLine : Int) : SearchResult where
  chunkID := ""
  evidenceID := "e"
  path := "a.go"
  language := "go"
  symbol := ""
  startLine := startLine
  endLine := endLine
  snippet := []
  score := .finite (3 / 2)
  retrievalSource := "bm25"
  matchedTerms := ["a"]
  symbolKeys := []
  retrievalReason := ""
  structuralV2 := none

theorem buildEvidencePacket_selects_two :
    (∀ result ∈ [lineResult 1 4, lineResult 3 9], result.Placed) ∧
      ∃ before after selected, [lineResult 1 4, lineResult 3 9] = before ++ after ∧
        buildEvidencePacket [lineResult 1 4, lineResult 3 9] 256 = packetText selected ∧
        (packetText selected).length ≤ packetLimit 256 ∧
        Selection before selected ∧ Stopped (packetLimit 256) selected after := by
  have placed : ∀ result ∈ [lineResult 1 4, lineResult 3 9], result.Placed := by
    intro result member
    simp only [List.mem_cons, List.not_mem_nil, or_false] at member
    rcases member with rfl | rfl <;> constructor <;> decide
  exact ⟨placed, buildEvidencePacket_selects _ _ placed⟩

/-- Twice the overlap of these two does not fit in an `int` and comes out negative, so the
packet has both though one is a part of the other. -/
theorem buildEvidencePacket_wraps :
    (∀ result ∈ [lineResult 1 (2 ^ 62), lineResult 1 (2 ^ 62 + 1)],
        1 ≤ result.startLine ∧ result.startLine ≤ result.endLine) ∧
      ¬ ∃ before after selected,
        [lineResult 1 (2 ^ 62), lineResult 1 (2 ^ 62 + 1)] = before ++ after ∧
          buildEvidencePacket [lineResult 1 (2 ^ 62), lineResult 1 (2 ^ 62 + 1)] 0 =
            packetText selected ∧ Selection before selected := by
  constructor
  · decide
  · rintro ⟨before, after, selected, whole, text, selection⟩
    have among : selected.Sublist [(lineResult 1 (2 ^ 62), 0), (lineResult 1 (2 ^ 62 + 1), 1)] := by
      have places : before.zipIdx.Sublist
          [(lineResult 1 (2 ^ 62), 0), (lineResult 1 (2 ^ 62 + 1), 1)] := by
        have all : (before ++ after).zipIdx = _ := congrArg List.zipIdx whole.symm
        rw [List.zipIdx_append] at all
        rw [← show _ = [(lineResult 1 (2 ^ 62), 0), (lineResult 1 (2 ^ 62 + 1), 1)] from all]
        exact List.sublist_append_left _ _
      exact selection.among.trans places
    have length := congrArg List.length text
    have half : (lineResult 1 (2 ^ 62)).HalfShared (lineResult 1 (2 ^ 62 + 1)) := by
      refine ⟨rfl, ?_⟩
      have shared := SearchResult.card_shared (lineResult 1 (2 ^ 62)) (lineResult 1 (2 ^ 62 + 1))
      have lines : ((lineResult 1 (2 ^ 62)).lines.card : Int) = 2 ^ 62 := by
        rw [SearchResult.lines, Int.card_Icc]
        decide
      simp only [lineResult] at shared lines ⊢
      omega
    -- the packet is too long for fewer than both entries
    have options : selected = [] ∨ selected = [(lineResult 1 (2 ^ 62), 0)] ∨
        selected = [(lineResult 1 (2 ^ 62 + 1), 1)] ∨
        selected = [(lineResult 1 (2 ^ 62), 0), (lineResult 1 (2 ^ 62 + 1), 1)] := by
      rw [← List.mem_sublists] at among
      simp only [List.sublists_cons, List.sublists_nil] at among
      simpa using among
    rcases options with rfl | rfl | rfl | rfl
    · exact absurd length (by decide +kernel)
    · exact absurd length (by decide +kernel)
    · exact absurd length (by decide +kernel)
    · exact List.rel_of_pairwise_cons selection.apart (List.mem_singleton_self _) half

end Evidence

end RepoLens
