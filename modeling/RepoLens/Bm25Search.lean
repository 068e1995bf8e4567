import RepoLens.Bm25Index

/-!
`Search` of `internal/retrieval/bm25`. The scores are kept in a map, read out in any order and
sorted; documents with the same score come by their numbers.
-/

namespace RepoLens

open Utf8 Ranking

namespace Retrieval

structure SearchResult (K : Type) where
  document : Document
  score : K
  rank : Nat

variable {query : Bytes}

section Scoring
variable {doc : Document}

variable {K : Type} [Field K] [LinearOrder K] (log : K → K)

def idf (totalDocs docFreq : Nat) : K :=
  let value := log (1 + ((totalDocs : K) - docFreq + 1 / 2) / ((docFreq : K) + 1 / 2))
  if value < 0 then 1 / 10000 else value

namespace Index

variable (index : Index K)

def document (docID : Nat) : Document := index.documents.getD docID default

def termScore (qTerm : Word) (posting : Posting) : K :=
  let docLen : K := (index.document posting.docID).docLength
  let tf : K := posting.termFreq
  let numerator := tf * (index.k1 + 1)
  let denominator := tf + index.k1 * (1 - index.b + index.b * (docLen / index.avgDocLength))
  let score := idf log index.totalDocs (index.docFreq qTerm) * (numerator / denominator)
  -- an exact match of the symbol's name
  if (index.document posting.docID).symbolName.toList = qTerm then score * (15 / 10) else score

/-- What the two loops add to the scores, one after the other. -/
def contributions (queryTokens : List Word) : List (Nat × K) :=
  queryTokens.flatMap fun qTerm =>
    (index.invertedIndex qTerm).map fun posting =>
      (posting.docID, index.termScore log qTerm posting)

def scores (queryTokens : List Word) : List (Nat × K) := tally (index.contributions log queryTokens)

def toResult (entry : Nat × K) : SearchResult K := ⟨index.document entry.1, entry.2, 0⟩

def collect (order : List (Nat × K)) : List (SearchResult K) :=
  (order.filter fun entry => 0 < entry.2).map index.toResult

end Index

namespace SearchResult

def less (one two : SearchResult K) : Bool :=
  if one.score = two.score then
    decide (one.document.id < two.document.id) else decide (one.score > two.score)

end SearchResult

def numbered (results : List (SearchResult K)) : List (SearchResult K) :=
  results.mapIdx fun i result => { result with rank := i + 1 }

def resultLimit (topK : Int) : Nat := if topK ≤ 0 then 20 else topK.toNat

namespace Index

variable (u : Unicode) (index : Index K)

def Searches (query : Bytes) (topK : Int) (results : List (SearchResult K)) : Prop :=
  if index.totalDocs = 0 ∨ query = [] ∨ u.tokenize query = [] then results = []
  else ∃ order sorted, order.Perm (index.scores log (u.tokenize query)) ∧
    Sorts SearchResult.less (index.collect order) sorted ∧
    results = numbered (sorted.take (resultLimit topK))

def search (query : Bytes) (topK : Int) : List (SearchResult K) :=
  if index.totalDocs = 0 ∨ query = [] ∨ u.tokenize query = [] then []
  else numbered
    ((sortBy SearchResult.less (index.collect (index.scores log (u.tokenize query)))).take
    (resultLimit topK))

end Index

namespace SearchResult

omit [Field K] in
theorem less_weakOrder : WeakOrder fun one two : SearchResult K => one.less two := by
  have byID := (@weakOrder_false (SearchResult K)).lex fun result => result.document.id
  have both := byID.lex fun result => OrderDual.toDual result.score
  have same : (fun one two : SearchResult K => one.less two) = fun one two =>
      if OrderDual.toDual one.score ≠ OrderDual.toDual two.score then
        decide (OrderDual.toDual one.score < OrderDual.toDual two.score)
      else if one.document.id ≠ two.document.id then decide (one.document.id < two.document.id)
      else false := by
    funext one two
    unfold less
    by_cases scores : one.score = two.score
    · by_cases ids : one.document.id = two.document.id <;> simp [scores, ids]
    · simp [scores]
  rw [same]
  exact both

/-- One result stands before another: a higher score, or the same and a smaller number. -/
def Before (one two : SearchResult K) : Prop :=
  two.score < one.score ∨ (one.score = two.score ∧ one.document.id < two.document.id)

omit [Field K] in
theorem before_of_not_less {one two : SearchResult K} (sorted : two.less one = false)
    (apart : one.document.id ≠ two.document.id) : one.Before two := by
  unfold less at sorted
  split_ifs at sorted with scores
  · have order : ¬ two.document.id < one.document.id := by simpa using sorted
    exact .inr ⟨scores.symm, by omega⟩
  · have order : ¬ two.score > one.score := by simpa using sorted
    exact .inl (lt_of_le_of_ne (not_lt.mp order) scores)

end SearchResult

theorem Index.searches_search (u : Unicode) (index : Index K) (query : Bytes) (topK : Int) :
    index.Searches log u query topK (index.search log u query topK) := by
  unfold Index.Searches Index.search
  split_ifs with nothing
  · rfl
  · exact ⟨_, _, List.Perm.refl _, SearchResult.less_weakOrder.sorts _, rfl⟩

omit [Field K] [LinearOrder K] in
theorem numbered_view (results : List (SearchResult K)) :
    (numbered results).map (fun result => (result.document, result.score)) =
      results.map fun result => (result.document, result.score) := by
  apply List.ext_getElem?
  intro i
  simp only [numbered, List.getElem?_map, List.getElem?_mapIdx, Option.map_map, Function.comp_def]

omit [Field K] [LinearOrder K] in
theorem numbered_ranks (results : List (SearchResult K)) :
    (numbered results).map (·.rank) = (List.range results.length).map (· + 1) := by
  apply List.ext_getElem?
  intro i
  simp only [numbered, List.getElem?_map, List.getElem?_mapIdx, Option.map_map, Function.comp_def]
  by_cases inside : i < results.length
  · simp [inside]
  · simp [inside]

omit [Field K] [LinearOrder K] in
theorem numbered_take (results : List (SearchResult K)) (k : Nat) :
    numbered (results.take k) = (numbered results).take k := by
  apply List.ext_getElem?
  intro i
  simp only [numbered, List.getElem?_mapIdx, List.getElem?_take]
  split <;> rfl

variable {results : List (SearchResult K)}

omit [Field K] [LinearOrder K] in
theorem mem_numbered_document :
    (∃ result ∈ numbered results, result.document = doc) ↔ ∃ result ∈ results,
      result.document = doc := by
  have same := congrArg (fun views => doc ∈ views.map Prod.fst) (numbered_view results)
  simpa [List.map_map, Function.comp_def, List.mem_map] using same

omit [Field K] in
theorem numbered_before :
    (numbered results).Pairwise SearchResult.Before ↔ results.Pairwise SearchResult.Before := by
  have views (results : List (SearchResult K)) : results.Pairwise SearchResult.Before ↔
      (results.map fun result => (result.document, result.score)).Pairwise fun one two =>
        two.2 < one.2 ∨ (one.2 = two.2 ∧ one.1.id < two.1.id) := by
    rw [List.pairwise_map]
    rfl
  rw [views, numbered_view, ← views]

namespace Index

variable {index : Index K} {u : Unicode} {docs : List Document}

structure Describes (u : Unicode) (docs : List Document) (index : Index K) : Prop where
  documents : index.documents = storedAll u docs 0
  total : index.totalDocs = docs.length
  average : 0 ≤ index.avgDocLength
  postings : ∀ term, index.invertedIndex term = postingsOf u term docs 0
  docFreq : ∀ term, index.docFreq term = docs.countP fun doc => term ∈ doc.tokens u

section Described

variable (described : index.Describes u docs)

include described

theorem Describes.document_eq {i : Nat} (found : docs[i]? = some doc) :
    index.document i = doc.stored u i := by
  rw [document, described.documents, storedAll, List.getD_eq_getElem?_getD, List.getElem?_map,
    List.getElem?_zipIdx, found]
  simp

theorem Describes.mem_postings {term : Word} {posting : Posting} :
    posting ∈ index.invertedIndex term ↔
      ∃ doc, docs[posting.docID]? = some doc ∧ term ∈ doc.tokens u ∧ posting.termFreq = 1 := by
  rw [described.postings, postingsOf, List.mem_map]
  constructor
  · rintro ⟨⟨doc, i⟩, kept, rfl⟩
    obtain ⟨row, known⟩ := List.mem_filter.mp kept
    exact ⟨doc, List.mem_zipIdx_iff_getElem?.mp row, List.contains_iff_mem.mp known, rfl⟩
  · rintro ⟨doc, found, known, once⟩
    refine ⟨(doc, posting.docID),
      List.mem_filter.mpr ⟨List.mem_zipIdx_iff_getElem?.mpr found, ?_⟩, ?_⟩
    · exact List.contains_iff_mem.mpr known
    · rw [← once]

theorem Describes.increasing (term : Word) :
    (index.invertedIndex term).Pairwise fun one two => one.docID < two.docID := by
  rw [described.postings, postingsOf, List.pairwise_map]
  apply List.Pairwise.filter
  have places : (docs.zipIdx.map Prod.snd).Pairwise (· < ·) := by
    rw [List.zipIdx_map_snd]
    exact List.pairwise_lt_range'
  exact List.pairwise_map.mp places

theorem Describes.docFreq_length (term : Word) :
    index.docFreq term = (index.invertedIndex term).length := by
  rw [described.docFreq, described.postings, postingsOf, List.length_map,
    ← List.countP_eq_length_filter]
  have rows : docs.countP (fun doc => decide (term ∈ doc.tokens u)) =
      (docs.zipIdx.map Prod.fst).countP fun doc => decide (term ∈ doc.tokens u) := by
    rw [List.zipIdx_map_fst]
  rw [rows, List.countP_map]
  apply List.countP_congr
  simp

variable {log : K → K} {queryTokens : List Word}

theorem Describes.mem_contributions {i : Nat} :
    i ∈ (index.contributions log queryTokens).map (·.1) ↔
      ∃ doc, docs[i]? = some doc ∧ ∃ term ∈ queryTokens, term ∈ doc.tokens u := by
  simp only [contributions, List.mem_map, List.mem_flatMap, Prod.exists, exists_and_right]
  constructor
  · rintro ⟨i, ⟨score, term, asked, posting, inside, same⟩, rfl⟩
    cases same
    obtain ⟨doc, found, known, -⟩ := described.mem_postings.mp inside
    exact ⟨doc, found, term, asked, known⟩
  · rintro ⟨doc, found, term, asked, known⟩
    exact ⟨i, ⟨_, term, asked, ⟨i, 1⟩, described.mem_postings.mpr ⟨doc, found, known, rfl⟩, rfl⟩,
      rfl⟩

section Positive

variable [IsStrictOrderedRing K] {log : K → K} (positive : ∀ x : K, 1 < x → 0 < log x)
  (k1 : 0 < index.k1) (b : 0 ≤ index.b) (b_le : index.b ≤ 1)

include positive k1 b b_le

theorem Describes.termScore_pos {term : Word} {posting : Posting}
    (inside : posting ∈ index.invertedIndex term) : 0 < index.termScore log term posting := by
  obtain ⟨doc, found, known, once⟩ := described.mem_postings.mp inside
  have some : 1 ≤ index.docFreq term := by
    rw [described.docFreq_length]
    exact List.length_pos_of_mem inside
  have few : index.docFreq term ≤ index.totalDocs := by
    rw [described.docFreq, described.total]
    exact List.countP_le_length
  have weight : 0 < idf log index.totalDocs (index.docFreq term) := by
    have few' : (index.docFreq term : K) ≤ index.totalDocs := Nat.cast_le.mpr few
    have ratio : (0 : K) < ((index.totalDocs : K) - index.docFreq term + 1 / 2) /
        ((index.docFreq term : K) + 1 / 2) := by
      apply div_pos
      · linarith
      · positivity
    have value := positive _ (lt_add_of_pos_right 1 ratio)
    rw [idf, if_neg (not_lt.mpr value.le)]
    exact value
  have frequency : (posting.termFreq : K) = 1 := by rw [once, Nat.cast_one]
  have part : 0 < (posting.termFreq : K) * (index.k1 + 1) / ((posting.termFreq : K) + index.k1 *
      (1 - index.b +
        index.b * ((index.document posting.docID).docLength / index.avgDocLength))) := by
    rw [frequency]
    have average := described.average
    have share : 0 ≤ 1 - index.b +
        index.b * ((index.document posting.docID).docLength / index.avgDocLength) := by
      have rest : 0 ≤
          index.b * (((index.document posting.docID).docLength : K) / index.avgDocLength) := by
        positivity
      linarith
    positivity
  unfold termScore
  simp only
  split
  · positivity
  · positivity

theorem Describes.scores_pos :
    ∀ entry ∈ index.scores log queryTokens, 0 < entry.2 := by
  rintro ⟨i, score⟩ member
  obtain ⟨known, rfl⟩ := mem_tally.mp member
  obtain ⟨entry, among, rfl⟩ := List.mem_map.mp known
  unfold valueAt
  apply List.sum_pos
  · intro amount inside
    obtain ⟨other, kept, rfl⟩ := List.mem_map.mp inside
    obtain ⟨term, -, made⟩ := List.mem_flatMap.mp (List.mem_filter.mp kept).1
    obtain ⟨posting, posted_, rfl⟩ := List.mem_map.mp made
    exact described.termScore_pos positive k1 b b_le posted_
  · apply List.ne_nil_of_mem
    exact List.mem_map.mpr ⟨entry, List.mem_filter.mpr ⟨among, by simp⟩, rfl⟩

theorem Describes.collect_perm {order : List (Nat × K)}
    (read : order.Perm (index.scores log queryTokens)) :
    (index.collect order).Perm ((index.scores log queryTokens).map index.toResult) := by
  have all : order.filter (fun entry => 0 < entry.2) = order := by
    apply List.filter_eq_self.mpr
    intro entry member
    exact decide_eq_true (described.scores_pos positive k1 b b_le entry (read.subset member))
  rw [collect, all]
  exact read.map _

end Positive

theorem Describes.id_toResult {entry : Nat × K} (member : entry ∈ index.scores log queryTokens) :
    (index.toResult entry).document.id = entry.1 := by
  have known : entry.1 ∈ (index.contributions log queryTokens).map (·.1) :=
    mem_keys_tally.mp (List.mem_map.mpr ⟨entry, member, rfl⟩)
  obtain ⟨doc, found, -⟩ := described.mem_contributions.mp known
  rw [toResult, described.document_eq found]
  rfl

theorem Describes.ids_nodup :
    (((index.scores log queryTokens).map index.toResult).map (·.document.id)).Nodup := by
  have ids : ((index.scores log queryTokens).map index.toResult).map (·.document.id) =
      (index.scores log queryTokens).map (·.1) := by
    rw [List.map_map]
    apply List.map_congr_left
    intro entry member
    exact described.id_toResult member
  rw [ids]
  exact nodup_tally _

theorem Describes.scores_length_le :
    (index.scores log queryTokens).length ≤ docs.length := by
  have keys : (index.scores log queryTokens).map (·.1) ⊆ List.range docs.length := by
    intro i member
    obtain ⟨doc, found, -⟩ := described.mem_contributions.mp (mem_keys_tally.mp member)
    rw [List.mem_range]
    exact (List.getElem?_eq_some_iff.mp found).1
  have bound := (nodup_tally (index.contributions log queryTokens)).subperm keys |>.length_le
  rwa [List.length_map, List.length_range] at bound

def ranking (log : K → K) (u : Unicode) (index : Index K) (query : Bytes) : List (SearchResult K) :=
  sortBy SearchResult.less ((index.scores log (u.tokenize query)).map index.toResult)

/-- What `Search` returns: documents of the index, each once, numbered from 1, by falling
scores and among equal ones by their numbers. -/
structure Ranked (results : List (SearchResult K)) : Prop where
  distinct : (results.map (·.document)).Nodup
  ranks : results.map (·.rank) = (List.range results.length).map (· + 1)
  ordered : results.Pairwise SearchResult.Before

omit described in
theorem ranking_perm (log : K → K) (query : Bytes) :
    (index.ranking log u query).Perm ((index.scores log (u.tokenize query)).map index.toResult) :=
  (SearchResult.less_weakOrder.sorts _).perm

theorem Describes.ranking_ids {log : K → K} {query : Bytes} :
    ((index.ranking log u query).map (·.document.id)).Nodup :=
  ((ranking_perm log query).map _).nodup_iff.mpr described.ids_nodup

theorem Describes.ranking_before :
    (index.ranking log u query).Pairwise SearchResult.Before := by
  have sorted := (SearchResult.less_weakOrder.sorts
    ((index.scores log (u.tokenize query)).map index.toResult)).sorted
  have apart := List.pairwise_map.mp (@Describes.ranking_ids _ _ _ _ _ _ described log query)
  exact (sorted.and apart).imp fun both => SearchResult.before_of_not_less both.1 both.2

theorem Describes.ranked_take (k : Nat) :
    Ranked (numbered ((index.ranking log u query).take k)) := by
  have ids : (((index.ranking log u query).take k).map (·.document.id)).Nodup := by
    rw [List.map_take]
    exact (List.take_sublist _ _).nodup described.ranking_ids
  constructor
  · have views := congrArg (List.map Prod.fst) (numbered_view ((index.ranking log u query).take k))
    rw [List.map_map, List.map_map] at views
    rw [show (numbered ((index.ranking log u query).take k)).map (·.document) = _ from views]
    exact List.Nodup.of_map (·.id) (by rw [List.map_map]; exact ids)
  · rw [numbered_ranks]
    simp [numbered]
  · exact numbered_before.mpr (described.ranking_before.sublist (List.take_sublist _ _))

section Positive

variable [IsStrictOrderedRing K] {log : K → K} (positive : ∀ x : K, 1 < x → 0 < log x)
  (k1 : 0 < index.k1) (b : 0 ≤ index.b) (b_le : index.b ≤ 1)

include positive k1 b b_le

theorem Describes.searches_iff {topK : Int} :
    index.Searches log u query topK results ↔
      results = numbered ((index.ranking log u query).take (resultLimit topK)) := by
  unfold Searches
  split_ifs with nothing
  · have empty : index.ranking log u query = [] := by
      have none : index.scores log (u.tokenize query) = [] := by
        apply List.eq_nil_iff_forall_not_mem.mpr
        intro entry member
        obtain ⟨doc, found, term, asked, -⟩ := described.mem_contributions.mp
          (mem_keys_tally.mp (List.mem_map.mpr ⟨entry, member, rfl⟩))
        rcases nothing with total | rfl | tokens
        · rw [described.total, List.length_eq_zero_iff] at total
          simp [total] at found
        · cases asked
        · simp [tokens] at asked
      rw [ranking, none]
      rfl
    rw [empty, List.take_nil]
    rfl
  · have apart : ∀ one ∈ (index.scores log (u.tokenize query)).map index.toResult,
        ∀ two ∈ (index.scores log (u.tokenize query)).map index.toResult,
          one.less two = false → two.less one = false → one = two := by
      intro one first two second before after
      by_contra differ
      have ids : one.document.id ≠ two.document.id := fun same => differ
        (List.inj_on_of_nodup_map described.ids_nodup first second same)
      have forward := SearchResult.before_of_not_less after ids
      have backward := SearchResult.before_of_not_less before ids.symm
      rcases forward with lt | ⟨eq, lt⟩ <;> rcases backward with lt_ | ⟨eq_, lt_⟩
      · exact lt_asymm lt lt_
      · exact lt.ne eq_
      · exact lt_.ne eq
      · omega
    have sorted := SearchResult.less_weakOrder.sorts
      ((index.scores log (u.tokenize query)).map index.toResult)
    constructor
    · rintro ⟨order, output, read, sorts, rfl⟩
      have collected := described.collect_perm positive k1 b b_le read
      have same := sorted.unique collected.symm apart sorts
      rw [← same]
      rfl
    · rintro rfl
      refine ⟨_, _, List.Perm.refl _, ?_, rfl⟩
      have collected := described.collect_perm positive k1 b b_le
        (List.Perm.refl (index.scores log (u.tokenize query)))
      exact ⟨sorted.perm.trans collected.symm, sorted.sorted⟩

end Positive

theorem Describes.mem_ranking :
    (∃ result ∈ index.ranking log u query, result.document = doc) ↔
      ∃ (i : Nat) (source : Document), docs[i]? = some source ∧ doc = source.stored u i ∧
        ∃ term ∈ u.tokenize query, term ∈ source.tokens u := by
  constructor
  · rintro ⟨result, member, rfl⟩
    obtain ⟨entry, scored, rfl⟩ := List.mem_map.mp ((ranking_perm log query).subset member)
    obtain ⟨source, found, shared⟩ := described.mem_contributions.mp
      (mem_keys_tally.mp (List.mem_map.mpr ⟨entry, scored, rfl⟩))
    exact ⟨entry.1, source, found, described.document_eq found, shared⟩
  · rintro ⟨i, source, found, rfl, shared⟩
    have known : i ∈ (index.scores log (u.tokenize query)).map (·.1) :=
      mem_keys_tally.mpr (described.mem_contributions.mpr ⟨source, found, shared⟩)
    obtain ⟨entry, scored, rfl⟩ := List.mem_map.mp known
    exact ⟨index.toResult entry,
      (ranking_perm log query).symm.subset (List.mem_map.mpr ⟨entry, scored, rfl⟩),
      described.document_eq found⟩

end Described

theorem describes_build [IsStrictOrderedRing K] {k1 b : K} {staged : Index K}
    (adds : Adds u (newIndex k1 b) docs staged) : staged.build.Describes u docs := by
  rw [adds_iff] at adds
  obtain ⟨documents, -, -, terms⟩ := @foldl_addDocument K u docs (newIndex k1 b)
  rw [← adds] at documents terms
  have stored : staged.documents = storedAll u docs 0 := by simpa [newIndex] using documents
  constructor
  · exact stored
  · simp [build, stored, storedAll]
  · simp only [build]
    split
    · exact le_rfl
    · positivity
  · intro term
    simpa [build, newIndex] using (terms term).1
  · intro term
    simpa [build, newIndex] using (terms term).2

end Index

end Scoring

namespace Index

def Built (u : Unicode) (k1 b : ℝ) (docs : List Document) (index : Index ℝ) : Prop :=
  ∃ staged, Adds u (newIndex k1 b) docs staged ∧ index = staged.build

variable {u : Unicode} {k1 b : ℝ} {docs : List Document} {index : Index ℝ}

theorem Built.describes (built : index.Built u k1 b docs) : index.Describes u docs := by
  obtain ⟨staged, adds, rfl⟩ := built
  exact describes_build adds

theorem Built.parameters (built : index.Built u k1 b docs) (k1_pos : 0 < k1) (b_pos : 0 < b) :
    index.k1 = k1 ∧ index.b = b := by
  obtain ⟨staged, adds, rfl⟩ := built
  rw [adds_iff] at adds
  obtain ⟨-, first, second, -⟩ := @foldl_addDocument ℝ u docs (newIndex k1 b)
  rw [← adds] at first second
  simp only [build, first, second, newIndex, if_neg (not_le.mpr k1_pos), if_neg (not_le.mpr b_pos)]
  exact ⟨trivial, trivial⟩

theorem Built.searches_iff (built : index.Built u k1 b docs) (k1_pos : 0 < k1) (b_pos : 0 < b)
    (b_le : b ≤ 1) {topK : Int} {results : List (SearchResult ℝ)} :
    index.Searches Real.log u query topK results ↔
      results = numbered ((index.ranking Real.log u query).take (resultLimit topK)) := by
  obtain ⟨first, second⟩ := built.parameters k1_pos b_pos
  exact built.describes.searches_iff (fun _ => Real.log_pos) (first ▸ k1_pos) (second ▸ b_pos.le)
    (second ▸ b_le)

theorem Built.mem_results (built : index.Built u k1 b docs) {k : Int} (positive : 0 < k)
    (enough : docs.length ≤ k) :
    (∃ result ∈ numbered ((index.ranking Real.log u query).take (resultLimit k)),
      result.document = doc) ↔
      ∃ (i : Nat) (source : Document), docs[i]? = some source ∧ doc = source.stored u i ∧
        ∃ term ∈ u.tokenize query, term ∈ source.tokens u := by
  have length : (index.ranking Real.log u query).length ≤ docs.length := by
    rw [(ranking_perm Real.log query).length_eq, List.length_map]
    exact built.describes.scores_length_le
  have all : (index.ranking Real.log u query).take (resultLimit k) =
      index.ranking Real.log u query := by
    apply List.take_of_length_le
    rw [resultLimit, if_neg (by omega)]
    omega
  rw [all, mem_numbered_document, built.describes.mem_ranking]

end Index

/-- For exact scores, the index does not depend on the orders of its maps, its postings list each
document once by rising numbers, and a search returns the first results of a ranking of all
documents that share a token with the query. -/
theorem bm25_specification (u : Unicode) (k1 b : ℝ) (k1_pos : 0 < k1) (b_pos : 0 < b) (b_le : b ≤ 1)
    (docs : List Document) (index : Index ℝ) (built : index.Built u k1 b docs) :
    (∀ other : Index ℝ, other.Built u k1 b docs → other = index) ∧
      (∀ term, (index.invertedIndex term).Pairwise (fun one two => one.docID < two.docID) ∧
        index.docFreq term = (index.invertedIndex term).length ∧
        index.docFreq term = docs.countP fun doc => term ∈ doc.tokens u) ∧
      ∀ (query : Bytes) (k : Int), 0 < k → ∃ results,
        (∀ found, index.Searches Real.log u query k found ↔ found = results) ∧
        Index.Ranked results ∧
        (∀ k' ≥ k, ∀ more, index.Searches Real.log u query k' more → results = more.take k.toNat) ∧
        (docs.length ≤ k → ∀ doc, (∃ result ∈ results, result.document = doc) ↔
          ∃ (i : Nat) (source : Document), docs[i]? = some source ∧ doc = source.stored u i ∧
            ∃ term ∈ u.tokenize query, term ∈ source.tokens u) := by
  have described := built.describes
  refine ⟨?_, fun term => ?_, fun query k positive => ?_⟩
  · obtain ⟨staged, adds, rfl⟩ := built
    rintro other ⟨staged_, adds_, rfl⟩
    rw [Index.adds_iff.mp adds, Index.adds_iff.mp adds_]
  · exact ⟨described.increasing term, described.docFreq_length term, described.docFreq term⟩
  · refine ⟨_, fun found => built.searches_iff k1_pos b_pos b_le, described.ranked_take _, ?_, ?_⟩
    · intro k' larger more searched
      rw [built.searches_iff k1_pos b_pos b_le] at searched
      rw [searched, ← numbered_take, List.take_take, resultLimit, resultLimit, if_neg (by omega),
        if_neg (by omega), Nat.min_eq_left (by omega)]
    · intro enough doc
      exact built.mem_results positive enough

/-- Two documents, of which one has the word of the query. -/
theorem bm25_specification_two :
    let docs := [sampleDocument "go" "F", sampleDocument "java" "G"]
    ∃ index : Index ℝ, index.Built Unicode.ascii (6 / 5) (3 / 4) docs ∧
      index.docFreq "java".toList = 1 ∧ ∃ results,
        (∀ found, index.Searches Real.log Unicode.ascii (Utf8.ofString "java") 5 found ↔
          found = results) ∧
        ∃ result ∈ results, result.document =
          (sampleDocument "java" "G").stored Unicode.ascii 1 := by
  intro docs
  have built : ((docs.foldl (Index.addDocument Unicode.ascii)
      (newIndex (6 / 5 : ℝ) (3 / 4))).build).Built Unicode.ascii (6 / 5) (3 / 4) docs :=
    ⟨_, Index.adds_iff.mpr rfl, rfl⟩
  obtain ⟨-, postings, searches⟩ := bm25_specification Unicode.ascii (6 / 5) (3 / 4) (by norm_num)
    (by norm_num) (by norm_num) docs _ built
  obtain ⟨results, only, -, -, complete⟩ := searches (Utf8.ofString "java") 5 (by decide)
  have member := (complete (by decide) ((sampleDocument "java" "G").stored Unicode.ascii 1)).mpr
    ⟨1, sampleDocument "java" "G", rfl, rfl, "java".toList, by decide +kernel, by decide +kernel⟩
  refine ⟨_, built, (postings "java".toList).2.2.trans ?_, results, only, member⟩
  decide +kernel

namespace Unicode

variable (u : Unicode)

def isIdentifier : Word → Bool
  | [] => false
  | c :: rest =>
    (u.isLetter c || c == '_') && rest.all fun c => u.isLetter c || u.isDigit c || c == '_'

def identifierParts (name : Word) : List Word :=
  subParts name ++ (subParts name).flatMap u.splitCamelCase

variable {u}

variable {name : Word}

theorem isIdentifier_chars (identifier : u.isIdentifier name = true) :
    name ≠ [] ∧ ∀ c ∈ name, u.isLetter c = true ∨ u.isDigit c = true ∨ c = '_' := by
  cases name with
  | nil => cases identifier
  | cons c rest =>
    simp only [isIdentifier, Bool.and_eq_true, Bool.or_eq_true, beq_iff_eq,
      List.all_eq_true] at identifier
    refine ⟨List.cons_ne_nil _ _, fun d member => ?_⟩
    rcases List.mem_cons.mp member with rfl | later
    · exact identifier.1.imp_right .inr
    · exact or_assoc.mp (identifier.2 d later)

theorem isIdentifier_inWord (identifier : u.isIdentifier name = true) :
    ∀ c ∈ name, u.inWord c = true := by
  intro c member
  rcases (isIdentifier_chars identifier).2 c member with letter | digit | rfl
  · simp [inWord, letter]
  · simp [inWord, digit]
  · simp [inWord]

theorem lower_mem_forms {part : Word} (made : part = name ∨ part ∈ u.identifierParts name) :
    u.lower part ∈ u.forms name := by
  simp only [forms, List.mem_cons, List.mem_flatMap]
  rcases made with rfl | among
  · exact .inr (.inl rfl)
  · rcases List.mem_append.mp among with sub | camel
    · exact .inr (.inr ⟨part, sub, .inr (.inl rfl)⟩)
    · obtain ⟨sub, inside, piece⟩ := List.mem_flatMap.mp camel
      exact .inr (.inr ⟨sub, inside, .inr (.inr ⟨part, piece, by simp⟩)⟩)

theorem identifierParts_chars {part : Word} (identifier : u.isIdentifier name = true)
    (among : part ∈ u.identifierParts name) :
    part ≠ [] ∧ ∀ c ∈ part, u.isLetter c = true ∨ u.isDigit c = true := by
  have subs {sub : Word} (inside : sub ∈ subParts name) :
      sub ≠ [] ∧ ∀ c ∈ sub, u.isLetter c = true ∨ u.isDigit c = true := by
    obtain ⟨cut, some⟩ := List.mem_filter.mp inside
    refine ⟨of_decide_eq_true some, fun c member => ?_⟩
    rcases (isIdentifier_chars identifier).2 c (splitOnP_subset cut member) with
      letter | digit | rfl
    · exact .inl letter
    · exact .inr digit
    · exact absurd (notCut_of_mem_splitOnP cut '_' member) (by decide)
  rcases List.mem_append.mp among with sub | camel
  · exact subs sub
  · obtain ⟨sub, inside, piece⟩ := List.mem_flatMap.mp camel
    exact ⟨(u.splitCamelCase_pieces sub).2 part piece, fun c member =>
      (subs inside).2 c (u.subset_of_mem_splitCamelCase piece member)⟩

theorem inWord_of_lower_eq {query part : Word} (same : u.lower query = u.lower part)
    (chars : ∀ c ∈ part, u.isLetter c = true ∨ u.isDigit c = true) : ∀ c ∈ query,
      u.inWord c = true := by
  intro c member
  have lowered : u.toLower c ∈ u.lower part := same ▸ List.mem_map_of_mem member
  obtain ⟨d, inside, equal⟩ := List.mem_map.mp lowered
  have classes := chars d inside
  rw [← u.letter_toLower, ← u.digit_toLower, equal, u.letter_toLower, u.digit_toLower] at classes
  rcases classes with letter | digit
  · simp [inWord, letter]
  · simp [inWord, digit]

end Unicode

/-- A symbol is found by its name and by each part of it, in any letter case. -/
theorem search_finds_symbol (u : Unicode) (k1 b : ℝ) (k1_pos : 0 < k1) (b_pos : 0 < b)
    (b_le : b ≤ 1) (docs : List Document) (index : Index ℝ) (built : index.Built u k1 b docs)
    (i : Nat) (doc : Document) (found : docs[i]? = some doc)
    (identifier : u.isIdentifier doc.symbolName.toList = true) (query : Word)
    (asked : (u.isIdentifier query = true ∧ u.lower query = u.lower doc.symbolName.toList) ∨
      ∃ part ∈ u.identifierParts doc.symbolName.toList, u.lower query = u.lower part)
    (k : Int) (enough : docs.length ≤ k) :
    ∃ results, (∀ answer, index.Searches Real.log u (encode (query.map .char)) k answer ↔
      answer = results) ∧
      ∃ result ∈ results, result.document = doc.stored u i := by
  have positive : 0 < k := by
    have inside := (List.getElem?_eq_some_iff.mp found).1
    omega
  refine ⟨_, fun answer => built.searches_iff k1_pos b_pos b_le, ?_⟩
  rw [built.mem_results positive enough]
  obtain ⟨part, made, same, some, inside⟩ : ∃ part, (part = doc.symbolName.toList ∨
      part ∈ u.identifierParts doc.symbolName.toList) ∧ u.lower query = u.lower part ∧ query ≠ [] ∧
        ∀ c ∈ query, u.inWord c = true := by
    rcases asked with ⟨name, same⟩ | ⟨part, among, same⟩
    · exact ⟨_, .inl rfl, same, (Unicode.isIdentifier_chars name).1,
        Unicode.isIdentifier_inWord name⟩
    · obtain ⟨some, chars⟩ := Unicode.identifierParts_chars identifier among
      refine ⟨part, .inr among, same, ?_, Unicode.inWord_of_lower_eq same chars⟩
      rintro rfl
      exact some (by simpa [Unicode.lower] using same.symm)
  have nonempty : u.lower query ≠ [] := by simpa [Unicode.lower] using some
  refine ⟨i, doc, found, rfl, u.lower query, ?_, ?_⟩
  · rw [u.mem_tokenize, u.rawWords_word some inside]
    exact ⟨nonempty, query, List.mem_singleton_self _, Unicode.lower_mem_forms (.inl rfl)⟩
  · rw [Document.tokens, u.mem_tokenize, Document.rawWords_text]
    refine ⟨nonempty, doc.symbolName.toList, ?_, same ▸ Unicode.lower_mem_forms made⟩
    have word : u.rawWords (ofString doc.symbolName) = [doc.symbolName.toList] :=
      u.rawWords_word (Unicode.isIdentifier_chars identifier).1
        (Unicode.isIdentifier_inWord identifier)
    simp [word]

theorem search_finds_symbol_part :
    ∃ index : Index ℝ, index.Built Unicode.ascii (6 / 5) (3 / 4) [sampleDocument "" "readFile"] ∧
      ∃ results,
        (∀ answer, index.Searches Real.log Unicode.ascii (encode ("FILE".toList.map .char)) 1
        answer ↔
        answer = results) ∧
        ∃ result ∈ results, result.document =
          (sampleDocument "" "readFile").stored Unicode.ascii 0 := by
  have built : (([sampleDocument "" "readFile"].foldl (Index.addDocument Unicode.ascii)
      (newIndex (6 / 5 : ℝ) (3 / 4))).build).Built Unicode.ascii (6 / 5) (3 / 4)
        [sampleDocument "" "readFile"] :=
    ⟨_, Index.adds_iff.mpr rfl, rfl⟩
  refine ⟨_, built, search_finds_symbol Unicode.ascii (6 / 5) (3 / 4) (by norm_num) (by norm_num)
    (by norm_num) [sampleDocument "" "readFile"] _ built 0 (sampleDocument "" "readFile") rfl ?_
    "FILE".toList (.inr ⟨"File".toList, ?_, ?_⟩) 1 (by simp)⟩
  · decide +kernel
  · decide +kernel
  · decide +kernel

end Retrieval

end RepoLens
