import RepoLens.Lib.Ranking
import RepoLens.Tokenizer

/-!
The index of `internal/retrieval/bm25`. `AddDocument` counts the tokens of a document in a map and
reads the map out in any order; the index that it makes does not depend on the order.
-/

namespace RepoLens

open Utf8 Ranking

namespace Retrieval

structure Document where
  id : Nat
  filePath : String
  startLine : Int
  endLine : Int
  content : Bytes
  symbolKeyHash : String
  symbolName : String
  kind : String
  docLength : Nat
  deriving DecidableEq, Inhabited

def Document.text (doc : Document) : Bytes :=
  doc.content ++ ofString " " ++ ofString doc.symbolName ++ ofString " " ++ ofString doc.filePath

def Document.tokens (u : Unicode) (doc : Document) : List Word := u.tokenize doc.text

structure Posting where
  docID : Nat
  termFreq : Nat
  deriving DecidableEq

structure Index (K : Type) where
  k1 : K
  b : K
  documents : List Document
  invertedIndex : Word → List Posting
  docFreq : Word → Nat
  totalDocs : Nat
  avgDocLength : K
  /-- The postings are about documents of the index. -/
  inRange : ∀ term, ∀ posting ∈ invertedIndex term, posting.docID < documents.length

def termFreqs (tokens : List Word) : List (Word × Nat) := tally (tokens.map fun token => (token, 1))

def posted (docID : Nat) (order : List (Word × Nat)) (inverted : Word → List Posting) :
    Word → List Posting :=
  updateAll (fun postings freq => postings ++ [⟨docID, freq⟩]) order inverted

def counted (order : List (Word × Nat)) (docFreq : Word → Nat) : Word → Nat :=
  updateAll (fun count _ => count + 1) order docFreq

variable {order : List (Word × Nat)}

theorem mem_posted {docID : Nat} {inverted : Word → List Posting} {term : Word} {posting : Posting}
    (member : posting ∈ posted docID order inverted term) :
    posting ∈ inverted term ∨ posting.docID = docID := by
  unfold posted at member
  induction order generalizing inverted with
  | nil => exact .inl member
  | cons entry order ih =>
    rw [updateAll_cons] at member
    rcases ih member with old | new
    · by_cases same : term = entry.1
      · subst same
        rw [Function.update_self, List.mem_append, List.mem_singleton] at old
        exact old.imp_right fun last => by rw [last]
      · rw [Function.update_of_ne same] at old
        exact .inl old
    · exact .inr new

def Document.stored (u : Unicode) (doc : Document) (id : Nat) : Document :=
  { doc with id, docLength := (doc.tokens u).length }

section Building

variable {K : Type}

def newIndex [Field K] [LinearOrder K] (k1 b : K) : Index K where
  k1 := if k1 ≤ 0 then 6 / 5 else k1
  b := if b ≤ 0 then 3 / 4 else b
  documents := []
  invertedIndex := fun _ => []
  docFreq := fun _ => 0
  totalDocs := 0
  avgDocLength := 0
  inRange := by simp

namespace Index

/-- `AddDocument`, with the order in which the map of the frequencies is read. -/
def addIn (u : Unicode) (order : List (Word × Nat)) (index : Index K) (doc : Document) :
    Index K where
  k1 := index.k1
  b := index.b
  documents := index.documents ++ [doc.stored u index.documents.length]
  invertedIndex := posted index.documents.length order index.invertedIndex
  docFreq := counted order index.docFreq
  totalDocs := index.totalDocs
  avgDocLength := index.avgDocLength
  inRange := by
    intro term posting member
    rw [List.length_append, List.length_singleton]
    rcases mem_posted member with old | new
    · exact Nat.lt_succ_of_lt (index.inRange term posting old)
    · rw [new]
      exact Nat.lt_succ_self _

def addDocument (u : Unicode) (index : Index K) (doc : Document) : Index K :=
  index.addIn u (termFreqs (doc.tokens u)) doc

def build [Field K] (index : Index K) : Index K :=
  { index with
    totalDocs := index.documents.length
    avgDocLength := if index.documents.length = 0 then 0
      else (((index.documents.map (·.docLength)).sum : Nat) : K) / (index.documents.length : K) }

inductive Adds (u : Unicode) : Index K → List Document → Index K → Prop
  | done (index : Index K) : Adds u index [] index
  | add {index after : Index K} {doc : Document} {docs : List Document} (order : List (Word × Nat))
      (read : order.Perm (termFreqs (doc.tokens u)))
      (rest : Adds u (index.addIn u order doc) docs after) :
      Adds u index (doc :: docs) after

variable {u : Unicode} {index : Index K} {doc : Document}

theorem mem_termFreqs {term : Word} {freq : Nat} :
    (term, freq) ∈ termFreqs (doc.tokens u) ↔ term ∈ doc.tokens u ∧ freq = 1 := by
  rw [termFreqs, mem_tally, valueAt_ones, List.map_map]
  simp only [Function.comp_def, List.map_id']
  apply and_congr_right
  intro member
  have once : (doc.tokens u).Nodup := u.nodup_tokenize _
  rw [@List.count_eq_one_of_mem Word instBEqOfDecidableEq _ term (doc.tokens u) once member]

theorem posted_eq (read : order.Perm (termFreqs (doc.tokens u))) (docID : Nat)
    (inverted : Word → List Posting) (term : Word) :
    posted docID order inverted term =
      inverted term ++ if term ∈ doc.tokens u then [⟨docID, 1⟩] else [] := by
  have nodup : (order.map (·.1)).Nodup := (read.map (·.1)).nodup_iff.mpr (nodup_tally _)
  unfold posted
  by_cases known : term ∈ doc.tokens u
  · rw [updateAll_of_mem nodup (read.mem_iff.mpr (mem_termFreqs.mpr ⟨known, rfl⟩)), if_pos known]
  · rw [updateAll_of_notMem, if_neg known, List.append_nil]
    intro member
    obtain ⟨⟨_, freq⟩, inside, rfl⟩ := List.mem_map.mp member
    exact known (mem_termFreqs.mp (read.mem_iff.mp inside)).1

theorem counted_eq (read : order.Perm (termFreqs (doc.tokens u))) (docFreq : Word → Nat)
    (term : Word) :
    counted order docFreq term = docFreq term + if term ∈ doc.tokens u then 1 else 0 := by
  have nodup : (order.map (·.1)).Nodup := (read.map (·.1)).nodup_iff.mpr (nodup_tally _)
  unfold counted
  by_cases known : term ∈ doc.tokens u
  · rw [updateAll_of_mem nodup
      (read.mem_iff.mpr (mem_termFreqs.mpr ⟨known, rfl⟩)), if_pos known]
  · rw [updateAll_of_notMem, if_neg known, Nat.add_zero]
    intro member
    obtain ⟨⟨_, freq⟩, inside, rfl⟩ := List.mem_map.mp member
    exact known (mem_termFreqs.mp (read.mem_iff.mp inside)).1

theorem addIn_eq (read : order.Perm (termFreqs (doc.tokens u))) :
    index.addIn u order doc = index.addDocument u doc := by
  have postings : posted index.documents.length order index.invertedIndex =
      posted index.documents.length (termFreqs (doc.tokens u)) index.invertedIndex := by
    funext term
    rw [posted_eq read, posted_eq (List.Perm.refl _)]
  have counts : counted order index.docFreq = counted (termFreqs (doc.tokens u)) index.docFreq := by
    funext term
    rw [counted_eq read, counted_eq (List.Perm.refl _)]
  simp only [addDocument, addIn, postings, counts]

theorem adds_iff {docs : List Document} {after : Index K} :
    Adds u index docs after ↔ after = docs.foldl (addDocument u) index := by
  constructor
  · intro adds
    induction adds with
    | done index => rfl
    | add order read rest ih => rw [ih, List.foldl_cons, addIn_eq read]
  · rintro rfl
    induction docs generalizing index with
    | nil => exact .done index
    | cons doc docs ih => exact .add _ (List.Perm.refl _) ih

def postingsOf (u : Unicode) (term : Word) (docs : List Document) (start : Nat) : List Posting :=
  ((docs.zipIdx start).filter fun row => (row.1.tokens u).contains term).map fun row => ⟨row.2, 1⟩

def storedAll (u : Unicode) (docs : List Document) (start : Nat) : List Document :=
  (docs.zipIdx start).map fun row => row.1.stored u row.2

theorem foldl_addDocument (docs : List Document) (index : Index K) :
    (docs.foldl (addDocument u) index).documents =
        index.documents ++ storedAll u docs index.documents.length ∧
      (docs.foldl (addDocument u) index).k1 = index.k1 ∧
        (docs.foldl (addDocument u) index).b = index.b ∧
      ∀ term, (docs.foldl (addDocument u) index).invertedIndex term =
          index.invertedIndex term ++ postingsOf u term docs index.documents.length ∧
        (docs.foldl (addDocument u) index).docFreq term =
          index.docFreq term + docs.countP fun doc => term ∈ doc.tokens u := by
  induction docs generalizing index with
  | nil => simp [storedAll, postingsOf]
  | cons doc docs ih =>
    obtain ⟨documents, k1, b, terms⟩ := ih (index.addDocument u doc)
    have length : (index.addDocument u doc).documents.length = index.documents.length + 1 := by
      simp [addDocument, addIn]
    rw [List.foldl_cons]
    refine ⟨?_, k1, b, fun term => ⟨?_, ?_⟩⟩
    · rw [documents, length]
      simp [addDocument, addIn, storedAll]
    · rw [(terms term).1, length]
      simp only [addDocument, addIn]
      rw [posted_eq (List.Perm.refl _), List.append_assoc]
      congr 1
      by_cases known : term ∈ doc.tokens u <;> simp [postingsOf, known]
    · rw [(terms term).2]
      simp only [addDocument, addIn]
      rw [counted_eq (List.Perm.refl _), List.countP_cons, Nat.add_assoc]
      congr 1
      by_cases known : term ∈ doc.tokens u <;> simp [known, Nat.add_comm]

/-- The frequency in the posting of a document; none is 0. -/
def termFreq (index : Index K) (term : Word) (docID : Nat) : Nat :=
  ((index.invertedIndex term).find? (·.docID == docID)).elim 0 (·.termFreq)

theorem termFreq_added (doc : Document) (later : List Document) (index : Index K) (term : Word) :
    ((doc :: later).foldl (addDocument u) index).termFreq term index.documents.length =
      if term ∈ doc.tokens u then 1 else 0 := by
  have before : (index.invertedIndex term).find? (·.docID == index.documents.length) = none := by
    apply List.find?_eq_none.mpr
    intro posting member
    have inside := index.inRange term posting member
    simp only [beq_iff_eq]
    omega
  have after : (postingsOf u term later (index.documents.length + 1)).find?
      (·.docID == index.documents.length) = none := by
    apply List.find?_eq_none.mpr
    intro posting member
    obtain ⟨row, kept, rfl⟩ := List.mem_map.mp member
    have place := (List.mem_zipIdx (List.mem_filter.mp kept).1).1
    simp only [beq_iff_eq]
    omega
  rw [termFreq, ((foldl_addDocument (doc :: later) index).2.2.2 term).1, List.find?_append, before,
    Option.none_or]
  by_cases known : term ∈ doc.tokens u
  · simp [postingsOf, known]
  · have rest : postingsOf u term (doc :: later) index.documents.length =
        postingsOf u term later (index.documents.length + 1) := by
      simp [postingsOf, known]
    rw [rest, after, if_neg known]
    rfl

end Index

end Building

namespace Document

def append (doc : Document) (gap : Char) (word : Word) : Document :=
  { doc with content := doc.content ++ String.utf8EncodeChar gap ++ encode (word.map .char) }

variable {u : Unicode}

theorem text_eq (doc : Document) : doc.text = doc.content ++ String.utf8EncodeChar ' ' ++
    (ofString doc.symbolName ++ String.utf8EncodeChar ' ' ++ ofString doc.filePath) := by
  simp [text, ofString, chars, encode, Rune.bytes]

theorem rawWords_text (doc : Document) : u.rawWords doc.text =
    u.rawWords doc.content ++
      (u.rawWords (ofString doc.symbolName) ++ u.rawWords (ofString doc.filePath)) := by
  rw [text_eq, u.rawWords_append (by decide) u.inWord_space,
    u.rawWords_append (by decide) u.inWord_space]

theorem mem_tokens_append {doc : Document} {gap : Char} {word : Word} (ascii : gap.toNat < 128)
    (separate : u.inWord gap = false) (some : word ≠ []) (inside : ∀ c ∈ word, u.inWord c = true) :
    word ∈ (doc.append gap word).tokens u := by
  rw [tokens, u.mem_tokenize]
  refine ⟨some, word, ?_, by simp [Unicode.forms]⟩
  rw [rawWords_text, append, u.rawWords_append ascii separate, u.rawWords_word some inside]
  simp

end Document

/-- One more occurrence of a word increases its frequency exactly if no word has it as a form: the
tokenizer hands every form on once. -/
theorem termFreq_increases_iff {K : Type} (u : Unicode) (index : Index K) (doc : Document)
    (later : List Document) (gap : Char) (word : Word) (ascii : gap.toNat < 128)
    (separate : u.inWord gap = false) (some : word ≠ [])
    (letters : ∀ c ∈ word, u.isLetter c = true) :
    ((doc :: later).foldl (Index.addDocument u) index).termFreq word index.documents.length <
        ((doc.append gap word :: later).foldl (Index.addDocument u) index).termFreq word
          index.documents.length ↔
      ∀ other ∈ u.rawWords doc.text, word ∉ u.forms other := by
  have inside : ∀ c ∈ word, u.inWord c = true := by
    intro c member
    simp [Unicode.inWord, letters c member]
  rw [Index.termFreq_added, Index.termFreq_added,
    if_pos (Document.mem_tokens_append ascii separate some inside)]
  by_cases known : word ∈ doc.tokens u
  · rw [if_pos known]
    obtain ⟨-, other, among, made⟩ := u.mem_tokenize.mp known
    simp only [lt_irrefl, false_iff, not_forall]
    exact ⟨other, among, fun absent => absent made⟩
  · rw [if_neg known]
    simp only [Nat.lt_one_iff, true_iff]
    intro other among made
    exact known (u.mem_tokenize.mpr ⟨some, other, among, made⟩)

def sampleDocument (content symbolName : String) : Document where
  id := 0
  filePath := "a.go"
  startLine := 1
  endLine := 1
  content := ofString content
  symbolKeyHash := "k"
  symbolName := symbolName
  kind := "FUNCTION"
  docLength := 0

theorem termFreq_increases_iff_fresh :
    (Unicode.ascii.inWord ' ' = false ∧ "hi".toList.all Unicode.ascii.isLetter = true) ∧
      ([sampleDocument "x" "F"].foldl (Index.addDocument Unicode.ascii)
        (newIndex (1 : ℚ) 1)).termFreq
          "hi".toList 0 <
        ([(sampleDocument "x" "F").append ' ' "hi".toList].foldl (Index.addDocument Unicode.ascii)
          (newIndex (1 : ℚ) 1)).termFreq "hi".toList 0 := by
  refine ⟨by decide +kernel, ?_⟩
  have fresh : (Unicode.ascii.rawWords (sampleDocument "x" "F").text).all
      (fun other => decide ("hi".toList ∉ Unicode.ascii.forms other)) = true := by decide +kernel
  apply (termFreq_increases_iff Unicode.ascii (newIndex (1 : ℚ) 1) (sampleDocument "x" "F") [] ' '
    "hi".toList (by decide) (by decide) (by decide) (List.all_eq_true.mp (by decide +kernel))).mpr
  intro other among
  exact of_decide_eq_true (List.all_eq_true.mp fresh other among)

/-- The second occurrence of a word is not counted. -/
theorem termFreq_repeated :
    "hi".toList.all (fun c => Unicode.ascii.isLetter c && Unicode.ascii.isLower c) = true ∧
      ¬ ([sampleDocument "hi" "F"].foldl (Index.addDocument Unicode.ascii)
        (newIndex (1 : ℚ) 1)).termFreq
          "hi".toList 0 <
        ([(sampleDocument "hi" "F").append ' ' "hi".toList].foldl (Index.addDocument Unicode.ascii)
          (newIndex (1 : ℚ) 1)).termFreq "hi".toList 0 := by
  decide +kernel

end Retrieval

end RepoLens
