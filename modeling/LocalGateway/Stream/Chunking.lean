import LocalGateway.Foundations.DoubledLines
import LocalGateway.Stream.SSEParser

/-!
# Chunking

What the way a byte stream is cut into chunks does to the events the parser returns.

The parser normalises every chunk on its own, so a CRLF pair with a chunk boundary between its two
bytes is read as two line ends. Nothing else depends on the chunking: `marks` is the normalised
stream with such line ends marked, and the text the parser sees is that text with the marked line
ends doubled (`doubleMarks_marks`). The rest is `Lines.filterMap_blocks_doubled_iff`, which says
exactly which doublings change what is read.
-/

namespace LocalGateway

open Py

namespace SSEParser

/-! ### Where the pairs are cut -/

/-- The bytes of a chunk, each with whether the chunk ends after it. -/
def tagChunk : PyBytes → List (UInt8 × Bool)
  | [] => []
  | [b] => [(b, true)]
  | b :: c :: rest => (b, false) :: tagChunk (c :: rest)

/-- Line ends normalised over the whole stream, a CRLF pair marked if a chunk ends inside it. -/
def marks : List (UInt8 × Bool) → List (UInt8 × Bool)
  | [] => []
  | (13, cut) :: (10, _) :: rest => (10, cut) :: marks rest
  | (b, _) :: rest => (if b = 13 then 10 else b, false) :: marks rest

/-- The lines of a stream, each with whether its line end is a CRLF pair that a chunk boundary
cuts. -/
def cutLines (chunks : List PyBytes) : List (PyBytes × Bool) :=
  Lines.cutLines 10 (marks (chunks.flatMap tagChunk))

theorem map_fst_tagChunk (chunk : PyBytes) : (tagChunk chunk).map Prod.fst = chunk := by
  induction chunk using tagChunk.induct with
  | case1 => rfl
  | case2 b => rfl
  | case3 b c rest ih => rw [tagChunk, List.map_cons, ih]

/-- A byte that is not the first half of a pair is normalised alone. -/
theorem marks_cons {b : UInt8} {cut : Bool} {t : List (UInt8 × Bool)}
    (h : b = 13 → (t.map Prod.fst).head? ≠ some 10) :
    marks ((b, cut) :: t) = (if b = 13 then 10 else b, false) :: marks t := by
  rw [marks]
  rintro e rest rfl hb
  exact h hb rfl

theorem normalizeEol_cons {b : UInt8} {rest : PyBytes} (h : b = 13 → rest.head? ≠ some 10) :
    normalizeEol (b :: rest) = (if b = 13 then 10 else b) :: normalizeEol rest := by
  rw [normalizeEol]
  rintro rest' hb rfl
  exact h hb rfl

/-- The marks apart, this is the normalisation of the whole stream. -/
theorem map_fst_marks (t : List (UInt8 × Bool)) :
    (marks t).map Prod.fst = normalizeEol (t.map Prod.fst) := by
  induction t using marks.induct with
  | case1 => rfl
  | case2 cut _ rest ih => simp [marks, normalizeEol, ih]
  | case3 b cut t h ih =>
    have hhead : b = 13 → (t.map Prod.fst).head? ≠ some 10 := by
      rintro hb hhead
      rcases t with - | ⟨⟨d, e⟩, t⟩
      · simp at hhead
      · obtain rfl : d = 10 := by simpa using hhead
        exact h e t rfl hb
    rw [marks_cons hhead, List.map_cons, List.map_cons, normalizeEol_cons hhead, ih]

/-- **One chunk of the stream.** What follows the chunk matters to its marks only at its last byte;
in the doubled text the chunk is normalised on its own. -/
theorem doubleMarks_marks_append (chunk : PyBytes) (t : List (UInt8 × Bool)) :
    Lines.doubleMarks 10 (marks (tagChunk chunk ++ t)) =
      normalizeEol chunk ++ Lines.doubleMarks 10 (marks t) := by
  have hcons : ∀ m ms, Lines.doubleMarks 10 (m :: ms) =
      (if m.1 = 10 ∧ m.2 = true then [10, 10] else [m.1]) ++ Lines.doubleMarks (10 : UInt8) ms :=
    fun _ _ ↦ List.flatMap_cons
  induction chunk using normalizeEol.induct with
  | case1 => rfl
  | case2 rest ih =>
    -- a pair inside the chunk
    obtain ⟨c, htag⟩ : ∃ c, tagChunk (13 :: 10 :: rest) = (13, false) :: (10, c) :: tagChunk rest := by
      cases rest <;> exact ⟨_, rfl⟩
    rw [htag, List.cons_append, List.cons_append, marks, hcons, ih, normalizeEol]
    rfl
  | case3 b rest h ih =>
    have hhead : b = 13 → rest.head? ≠ some 10 := fun hb hhead ↦ by
      rcases rest with - | ⟨d, rest⟩
      · simp at hhead
      · obtain rfl : d = 10 := by simpa using hhead
        exact h rest hb rfl
    rw [normalizeEol_cons hhead]
    rcases rest with - | ⟨d, rest⟩
    · by_cases hcut : b = 13 ∧ (t.map Prod.fst).head? = some 10
      · -- the boundary cuts a pair: its marked line end is doubled
        obtain ⟨rfl, hlf⟩ := hcut
        rcases t with - | ⟨⟨d, e⟩, t⟩
        · simp at hlf
        · obtain rfl : d = 10 := by simpa using hlf
          rw [marks_cons (b := 10) (by simp), hcons]
          simp only [tagChunk, List.cons_append, List.nil_append, marks, hcons]
          rfl
      · rw [tagChunk, List.cons_append, List.nil_append,
          marks_cons fun hb hlf ↦ hcut ⟨hb, hlf⟩, hcons]
        simp [normalizeEol]
    · rw [tagChunk, List.cons_append, marks_cons, hcons, ih]
      · simp
      · intro hb
        rw [List.map_append, map_fst_tagChunk]
        simpa using hhead hb

/-- **The parser sees the marked line ends doubled.** -/
theorem doubleMarks_marks (chunks : List PyBytes) :
    Lines.doubleMarks 10 (marks (chunks.flatMap tagChunk)) = seenText chunks := by
  induction chunks with
  | nil => rfl
  | cons chunk chunks ih =>
    rw [List.flatMap_cons, doubleMarks_marks_append, ih]
    rfl

theorem doubled_cutLines (chunks : List PyBytes) :
    Lines.doubled (cutLines chunks) = (seenText chunks).splitOn 10 := by
  rw [cutLines, Lines.doubled_cutLines, doubleMarks_marks]

theorem map_fst_cutLines (chunks : List PyBytes) :
    (cutLines chunks).map Prod.fst = (normalizeEol chunks.flatten).splitOn 10 := by
  have htags : (chunks.flatMap tagChunk).map Prod.fst = chunks.flatten := by
    induction chunks with
    | nil => rfl
    | cons chunk chunks ih =>
      rw [List.flatMap_cons, List.map_append, map_fst_tagChunk, ih, List.flatten_cons]
  rw [cutLines, Lines.map_fst_cutLines, map_fst_marks, htags]

/-! ### When the chunking matters -/

/-- A line that carries payload. -/
def IsDataLine (l : PyBytes) : Prop :=
  dataLine (utf8Decode l) ≠ none

instance : DecidablePred IsDataLine := fun l ↦
  inferInstanceAs (Decidable (dataLine (utf8Decode l) ≠ none))

/-- The blocks of text lines of a stream, each with the cut pairs in it and before it. -/
def spans (chunks : List PyBytes) : List (Lines.Span UInt8) :=
  Lines.spans false false [] (cutLines chunks)

theorem lineEvent_eq_none_iff (b : Bool × List PyBytes) :
    lineEvent b = none ↔ ∀ l ∈ b.2, ¬ IsDataLine l := by
  have hnil : payloadLines b.2 = [] ↔ ∀ l ∈ b.2, ¬ IsDataLine l := by
    simp [payloadLines, IsDataLine]
  rw [← hnil, lineEvent]
  split_ifs with h <;> simp [h]

/-- An event keeps the text of its block, so it determines the block. -/
theorem lineEvent_inj (b b' : Bool × List PyBytes) (hb : ∀ l ∈ b.2, l ≠ [] ∧ 10 ∉ l)
    (hb' : ∀ l ∈ b'.2, l ≠ [] ∧ 10 ∉ l) (h : lineEvent b = lineEvent b')
    (hsome : lineEvent b ≠ none) : b = b' := by
  have hlines : ∀ b, lineEvent b ≠ none → b.2 ≠ [] := fun b hsome hnil ↦
    hsome ((lineEvent_eq_none_iff b).2 (by simp [hnil]))
  refine Lines.blockText_inj 10 (hlines b hsome) (hlines b' (h ▸ hsome)) hb hb' ?_
  unfold lineEvent at h hsome
  split_ifs at h hsome with hp hp'
  · exact absurd rfl hsome
  · simpa using (SSEEvent.mk.inj (Option.some.inj h)).2.2

/-- **Chunking invariance, exactly.** Chunks are parsed as the stream they come to if and only if,
for every block of the stream with a `data:` line, no chunk boundary cuts the CRLF pair between two
of its lines and an even number of CRLF pairs are cut in the blank lines before it. -/
theorem parse_chunks_eq_iff (chunks : List PyBytes) :
    parse chunks = parse [chunks.flatten] ↔ ∀ sp ∈ spans chunks, sp.Kept IsDataLine := by
  have hclean : ∀ l ∈ cutLines chunks, 10 ∉ l.1 := fun l hl ↦ by
    have hmem : l.1 ∈ (normalizeEol chunks.flatten).splitOn 10 :=
      map_fst_cutLines chunks ▸ List.mem_map_of_mem hl
    exact Lines.not_mem_of_mem_splitOn hmem
  have hiff := Lines.filterMap_blocks_doubled_iff lineEvent_eq_none_iff lineEvent_inj false false []
    (by simp) hclean
  rw [List.nil_append, doubled_cutLines, map_fst_cutLines] at hiff
  rw [parse_eq, parse_eq, textEvents, textEvents]
  simpa [seenText, spans] using hiff

/-- A two-line event whose line end is a CRLF pair cut by a chunk boundary comes out as two
events. -/
theorem parse_cut_pair_ne :
    parse [pyb "data: a\r", pyb "\ndata: b\n\n"] ≠
      parse [[pyb "data: a\r", pyb "\ndata: b\n\n"].flatten] := by
  decide

end SSEParser

end LocalGateway
