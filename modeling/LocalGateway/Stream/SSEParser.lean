import LocalGateway.Python.Text

/-!
# The incremental SSE parser

`sse.py`: the event record, the parser with its carried buffer, and the renderer.

`feed` normalises line endings on the **incoming chunk only** and appends the result to the buffer,
so the buffer never ends in a carriage return (`SSEParser.no_cr`) and the branch of `feed` that
would join a CRLF pair split over two chunks is never taken (`extend_eq`). The reader therefore sees
the concatenation of the separately normalised chunks, and `parse_eq` says which events that
text holds: the blocks of its lines (`Lines.blocks`) that carry a `data:` line.
-/

namespace LocalGateway

open Py

/-- `SSEEvent`. -/
structure SSEEvent where
  data : PyStr
  done : Bool := false
  raw : Option PyBytes := none
deriving DecidableEq

/-! ### One block -/

/-- The payload of one line of a block, if it is a `data:` line: exactly one space is stripped. -/
def dataLine (line : PyStr) : Option PyStr :=
  if line = [] ∨ startsWith line (py ":") then none
  else if startsWith line (py "data:") then some (removePrefix (line.drop 5) (py " "))
  else none

/-- Whether a payload is the end-of-stream sentinel. -/
def isDone (data : PyStr) : Bool :=
  strip data = py "[DONE]"

/-- `SSEParser._parse_block`. -/
def parseBlock (raw : PyBytes) : Option SSEEvent :=
  let dataLines := ((utf8Decode raw).splitOn 10).filterMap dataLine
  if dataLines = [] then none
  else
    let data := joinLines dataLines
    some { data := data, done := isDone data }

/-! ### The parser -/

/-- `chunk.replace(b"\r\n", b"\n").replace(b"\r", b"\n")`. -/
def normalizeEol : PyBytes → PyBytes
  | [] => []
  | 13 :: 10 :: rest => 10 :: normalizeEol rest
  | b :: rest => (if b = 13 then 10 else b) :: normalizeEol rest

theorem cr_not_mem_normalizeEol (b : PyBytes) : 13 ∉ normalizeEol b := by
  induction b using normalizeEol.induct with
  | case1 => simp [normalizeEol]
  | case2 rest ih => simpa [normalizeEol] using ih
  | case3 b rest h ih =>
    rw [normalizeEol]
    · split_ifs with hb
      · simpa using ih
      · simpa [Ne.symm hb] using ih
    · exact h

/-- `SSEParser`: the carried buffer. Only normalised chunks are ever appended to it, so it holds no
carriage return, and `feed` cuts it until it holds no blank line. -/
structure SSEParser where
  buf : PyBytes
  no_cr : 13 ∉ buf
  no_blank : Lines.splitBlank 10 buf = none

namespace SSEParser

/-- `SSEParser()`. -/
def init : SSEParser where
  buf := []
  no_cr := by simp
  no_blank := rfl

/-- The first half of `feed`, with the chunk not empty: a carriage return at the end of the buffer
is completed to a line end, and a line feed that continues it is dropped from the chunk. -/
def joinBoundary (buf chunk : PyBytes) : PyBytes × PyBytes :=
  if buf.getLast? = some 13 then
    (buf.dropLast ++ [10], if chunk.head? = some 10 then chunk.tail else chunk)
  else (buf, chunk)

/-- The buffer after the first half of `feed`. -/
def extend (buf chunk : PyBytes) : PyBytes :=
  if chunk = [] then buf
  else (joinBoundary buf chunk).1 ++ normalizeEol (joinBoundary buf chunk).2

/-- The event of one cut block, with the wire text it was parsed from. -/
def blockEvent (raw : PyBytes) : Option SSEEvent :=
  (parseBlock raw).map fun ev ↦ { ev with raw := some (raw ++ [10, 10]) }

/-- **The carriage-return branch is dead.** A buffer without carriage returns is extended by the
normalised chunk and nothing else. -/
theorem extend_eq {buf : PyBytes} (hbuf : 13 ∉ buf) (chunk : PyBytes) :
    extend buf chunk = buf ++ normalizeEol chunk := by
  have hlast : buf.getLast? ≠ some 13 := fun h ↦ hbuf (List.mem_of_getLast? h)
  by_cases hc : chunk = []
  · simp [extend, hc, normalizeEol]
  · simp [extend, joinBoundary, hc, hlast]

theorem extend_no_cr {buf : PyBytes} (hbuf : 13 ∉ buf) (chunk : PyBytes) :
    13 ∉ extend buf chunk := by
  rw [extend_eq hbuf, List.mem_append]
  exact fun h ↦ h.elim hbuf (cr_not_mem_normalizeEol chunk)

/-- `SSEParser.feed`: the events of the blocks the chunk completes, and the parser after it. -/
def feed (p : SSEParser) (chunk : PyBytes) : List SSEEvent × SSEParser :=
  let r := Lines.drain 10 (extend p.buf chunk)
  (r.1.filterMap blockEvent,
    { buf := r.2
      no_cr := fun h ↦
        extend_no_cr p.no_cr chunk ((Lines.drain_snd_suffix 10 _).subset h)
      no_blank := Lines.splitBlank_drain_snd 10 _ })

/-- `SSEParser.flush`. -/
def flush (p : SSEParser) : Option SSEEvent × SSEParser :=
  if stripBytes p.buf = [] then (none, init)
  else
    ((parseBlock p.buf).map fun ev ↦
      { ev with raw := some (p.buf.rdropWhile (· = 10) ++ [10, 10]) }, init)

/-- Feed successive chunks and concatenate what `feed` returns. -/
def feedAll (p : SSEParser) : List PyBytes → List SSEEvent × SSEParser
  | [] => ([], p)
  | chunk :: chunks =>
    ((feed p chunk).1 ++ (feedAll (feed p chunk).2 chunks).1, (feedAll (feed p chunk).2 chunks).2)

/-- Feed successive chunks to a fresh parser, then flush it. -/
def parse (chunks : List PyBytes) : List SSEEvent :=
  (feedAll init chunks).1 ++ (flush (feedAll init chunks).2).1.toList

/-! ### What the reader sees -/

/-- The text a sequence of chunks comes to: each normalised on its own. -/
def seenText (chunks : List PyBytes) : PyBytes :=
  (chunks.map normalizeEol).flatten

/-- **Feeding in pieces is draining the seen text.** -/
theorem feedAll_eq (p : SSEParser) (chunks : List PyBytes) :
    (feedAll p chunks).1 =
        (Lines.drain 10 (p.buf ++ seenText chunks)).1.filterMap blockEvent ∧
      (feedAll p chunks).2.buf = (Lines.drain 10 (p.buf ++ seenText chunks)).2 := by
  induction chunks generalizing p with
  | nil => simp [feedAll, seenText, Lines.drain_of_none 10 p.no_blank]
  | cons chunk chunks ih =>
    obtain ⟨hevents, hbuf⟩ := ih (feed p chunk).2
    have hfeed : p.buf ++ seenText (chunk :: chunks) =
        extend p.buf chunk ++ seenText chunks := by
      simp [seenText, extend_eq p.no_cr]
    rw [hfeed, Lines.drain_append]
    constructor
    · rw [feedAll, hevents, List.filterMap_append]
      rfl
    · rw [feedAll, hbuf]
      rfl

/-! ### The events of a text -/

/-- The payload lines of a block of lines. -/
def payloadLines (lines : List PyBytes) : List PyStr :=
  lines.filterMap fun l ↦ dataLine (utf8Decode l)

/-- The event of a block of lines: none without a `data:` line, else its payload and its text. -/
def lineEvent (b : Bool × List PyBytes) : Option SSEEvent :=
  if payloadLines b.2 = [] then none
  else
    some { data := joinLines (payloadLines b.2)
           done := isDone (joinLines (payloadLines b.2))
           raw := some (Lines.blockText 10 b ++ [10, 10]) }

/-- The events a text without carriage returns holds. -/
def textEvents (s : PyBytes) : List SSEEvent :=
  (Lines.blocks false [] (s.splitOn 10)).filterMap lineEvent

/-- Empty lines carry no payload. -/
theorem payloadLines_filter (lines : List PyBytes) :
    payloadLines (lines.filter (!·.isEmpty)) = payloadLines lines := by
  induction lines with
  | nil => rfl
  | cons l lines ih =>
    rcases l with - | ⟨b, l⟩
    · exact ih
    · simp only [payloadLines, List.isEmpty_cons, Bool.not_false, List.filter_cons_of_pos,
        List.filterMap_cons] at ih ⊢
      rw [ih]

/-- The lines of a text carry the payload of its block. -/
theorem filterMap_dataLine_utf8Decode (s : PyBytes) :
    ((utf8Decode s).splitOn 10).filterMap dataLine = payloadLines (Lines.textBlock 10 s).2 := by
  rw [splitOn_utf8Decode, List.filterMap_map, Lines.textBlock, payloadLines_filter]
  rfl

/-- `_parse_block` on a text is the event of its block. -/
theorem map_parseBlock (s raw : PyBytes) :
    ((parseBlock s).map fun ev ↦ { ev with raw := some raw }) =
      if payloadLines (Lines.textBlock 10 s).2 = [] then none
      else
        some { data := joinLines (payloadLines (Lines.textBlock 10 s).2)
               done := isDone (joinLines (payloadLines (Lines.textBlock 10 s).2))
               raw := some raw } := by
  simp only [parseBlock, filterMap_dataLine_utf8Decode]
  split_ifs <;> rfl

theorem blockEvent_eq {s : PyBytes} (hs : Lines.splitBlank 10 (s ++ [10]) = none) (hne : s ≠ []) :
    blockEvent s = lineEvent (Lines.textBlock 10 s) := by
  rw [blockEvent, map_parseBlock, lineEvent, Lines.blockText_textBlock 10 hs hne]

/-- A line of whitespace is not a `data:` line. -/
theorem dataLine_of_isSpace {l : PyBytes} (hl : ∀ b ∈ l, isSpaceByte b = true) :
    dataLine (utf8Decode l) = none := by
  rcases l with - | ⟨b, l⟩
  · rfl
  · have hb : isSpaceByte b = true := hl b List.mem_cons_self
    have hrange : b.toNat = 32 ∨ 9 ≤ b.toNat ∧ b.toNat ≤ 13 := by
      simpa [isSpaceByte, UInt8.le_iff_toNat_le, ← UInt8.toNat_inj] using hb
    have hascii : b < 0x80 := by
      rw [UInt8.lt_iff_toNat_lt]
      simp
      omega
    have hdata : startsWith (b.toNat :: decodeFrom none l) (py "data:") = false := by
      have : ¬ (100 = b.toNat) := by omega
      simp [startsWith, py, List.isPrefixOf, this]
    rw [utf8Decode, decodeFrom_cons, decodeStep_ascii none hascii]
    simp [dataLine, decodeFrom, hdata]

theorem stripBytes_eq_nil {s : PyBytes} (h : stripBytes s = []) : ∀ b ∈ s, isSpaceByte b = true := by
  rw [stripBytes, List.rdropWhile_eq_nil_iff] at h
  have hdrop : s.dropWhile isSpaceByte = [] := by
    rcases hs : s.dropWhile isSpaceByte with - | ⟨b, t⟩
    · rfl
    · have hb := List.head?_dropWhile_not isSpaceByte s
      rw [hs] at h hb
      simp [h b List.mem_cons_self] at hb
  exact List.dropWhile_eq_nil_iff.1 hdrop

/-- Line feeds at the end of a text carry no payload. -/
theorem payloadLines_rdropWhile (s : PyBytes) :
    payloadLines ((s.rdropWhile (· = 10)).splitOn 10) = payloadLines (s.splitOn 10) := by
  induction s using List.reverseRecOn with
  | nil => rfl
  | append_singleton s b ih =>
    by_cases hb : b = 10
    · subst hb
      have hnil : ([] : PyBytes).splitOn 10 = [[]] := List.splitOn_nil 10
      rw [List.rdropWhile_concat_pos _ _ _ (by simp), ih, List.splitOn_append_cons_self, hnil,
        payloadLines, payloadLines, List.filterMap_append]
      simp [dataLine]
    · rw [List.rdropWhile_concat_neg _ _ _ (by simpa using hb)]

theorem payloadLines_eq_nil {lines : List PyBytes}
    (h : ∀ l ∈ lines, dataLine (utf8Decode l) = none) : payloadLines lines = [] :=
  List.filterMap_eq_nil_iff.2 h

/-- **`flush` reads the remainder as one more block.** -/
theorem flush_eq (p : SSEParser) : (flush p).1.toList = textEvents p.buf := by
  have hblocks := Lines.blocks_of_splitBlank_none 10 p.no_blank
  have hpayload : payloadLines (Lines.textBlock 10 (p.buf.rdropWhile (· = 10))).2 =
      payloadLines (Lines.textBlock 10 p.buf).2 := by
    rw [Lines.textBlock, Lines.textBlock, payloadLines_filter, payloadLines_filter,
      payloadLines_rdropWhile]
  rw [textEvents, hblocks, flush]
  by_cases hstrip : stripBytes p.buf = []
  · -- whitespace only: nothing to parse, and no line of it is a payload
    have hnil : payloadLines (Lines.textBlock 10 p.buf).2 = [] := by
      rw [Lines.textBlock, payloadLines_filter]
      refine payloadLines_eq_nil fun l hl ↦ dataLine_of_isSpace fun b hb ↦ ?_
      exact stripBytes_eq_nil hstrip b (Lines.mem_of_mem_splitOn hl hb)
    rw [if_pos hstrip]
    split_ifs
    · rfl
    · simp [lineEvent, hpayload, hnil]
  · rw [if_neg hstrip, map_parseBlock, ← hpayload]
    by_cases hne : p.buf.rdropWhile (· = 10) = []
    · simp [hne, Lines.textBlock, payloadLines]
    · have htext : Lines.blockText 10 (Lines.textBlock 10 (p.buf.rdropWhile (· = 10))) =
          p.buf.rdropWhile (· = 10) :=
        Lines.blockText_textBlock 10 (Lines.rdropWhile_cases 10 p.no_blank).2 hne
      simp only [hne, if_false, List.filterMap_cons, List.filterMap_nil, lineEvent, htext]
      split_ifs <;> rfl

/-- **What the parser returns for chunks is what the seen text holds.** -/
theorem parse_eq (chunks : List PyBytes) : parse chunks = textEvents (seenText chunks) := by
  obtain ⟨hevents, hbuf⟩ := feedAll_eq init chunks
  rw [parse, flush_eq, hevents, hbuf, textEvents, textEvents,
    Lines.blocks_drain 10 (seenText chunks), List.filterMap_append, List.filterMap_map]
  congr 1
  have hcut : ∀ raw ∈ (Lines.drain 10 (seenText chunks)).1,
      Lines.splitBlank 10 (raw ++ [10]) = none := fun raw h ↦ Lines.splitBlank_drain_fst 10 h
  show List.filterMap blockEvent (Lines.drain 10 (seenText chunks)).1 = _
  generalize (Lines.drain 10 (seenText chunks)).1 = raws at hcut
  induction raws with
  | nil => rfl
  | cons raw raws ih =>
    have ih := ih fun r h ↦ hcut r (List.mem_cons_of_mem raw h)
    by_cases hne : raw = []
    · subst hne
      exact ih
    · rw [List.filterMap_cons, blockEvent_eq (hcut raw List.mem_cons_self) hne, ih,
        List.filter_cons_of_pos (by simpa using hne), List.filterMap_cons]
      rfl

end SSEParser

end LocalGateway
