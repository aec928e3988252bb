import Mathlib.Data.List.Basic

/-!
# How a page reads an event stream

The reader of a `text/event-stream` as the browsers have it: a machine on the characters of the stream. A line ends at
a line feed, at a carriage return or at the two together; a line sets a field of the block that is being read; a blank
line ends the block, and a block with data becomes an event.

* `foldl_frame`: a block of lines without line ends, with the blank line after it, is read as what its fields say,
  whatever came before.

Nothing here knows who writes the stream.
-/

namespace EventSource

/-- An event as its handlers get it. -/
structure Event where
  type : List ℕ
  data : List ℕ
deriving DecidableEq

/-- What the lines of a block have set so far. -/
structure Block where
  type : List ℕ := []
  data : List (List ℕ) := []
deriving DecidableEq

/-- The name and the value of a line: what stands before the first colon and what stands after it, without one space. A
comment is a line without a name. -/
def nameValue (line : List ℕ) : List ℕ × List ℕ :=
  let value := (line.dropWhile (· ≠ 58)).tail
  (line.takeWhile (· ≠ 58), if value.head? = some 32 then value.tail else value)

/-- `event`. -/
def eventField : List ℕ :=
  [101, 118, 101, 110, 116]

/-- `data`. -/
def dataField : List ℕ :=
  [100, 97, 116, 97]

/-- The type of an event that names none: `message`. -/
def messageType : List ℕ :=
  [109, 101, 115, 115, 97, 103, 101]

/-- A line of a block is read. The other fields say nothing about events. -/
def Block.line (b : Block) (line : List ℕ) : Block :=
  let field := nameValue line
  if field.1 = eventField then { b with type := field.2 }
  else if field.1 = dataField then { b with data := b.data ++ [field.2] }
  else b

/-- The event of a block that has ended, if it has data. -/
def Block.event? (b : Block) : Option Event :=
  if b.data = [] then none
  else some ⟨if b.type = [] then messageType else b.type, [10].intercalate b.data⟩

/-- The reader between two characters. -/
structure Reader where
  line : List ℕ := []
  /-- The last character was a carriage return. -/
  afterCr : Bool := false
  block : Block := {}
  events : List Event := []
deriving DecidableEq

namespace Reader

variable (r : Reader)

/-- A line has ended. -/
def endLine : Reader :=
  if r.line = [] then { events := r.events ++ r.block.event?.toList }
  else { block := r.block.line r.line, events := r.events }

/-- A character is read. -/
def next (r : Reader) (c : ℕ) : Reader :=
  if c = 10 ∧ r.afterCr then { r with afterCr := false }
  else if c = 10 ∨ c = 13 then { r.endLine with afterCr := c = 13 }
  else { r with line := r.line ++ [c], afterCr := false }

/-- The characters of a line are read. -/
theorem foldl_line {l : List ℕ} (h : 10 ∉ l ∧ 13 ∉ l) (hne : l ≠ []) :
    l.foldl next r = { r with line := r.line ++ l, afterCr := false } := by
  induction l generalizing r with
  | nil => exact absurd rfl hne
  | cons c l ih =>
    obtain ⟨⟨hlf, hlfs⟩, ⟨hcr, hcrs⟩⟩ := (by simpa only [List.mem_cons, not_or] using h :
      (10 ≠ c ∧ 10 ∉ l) ∧ 13 ≠ c ∧ 13 ∉ l)
    have hc : r.next c = { r with line := r.line ++ [c], afterCr := false } := by
      simp [next, Ne.symm hlf, Ne.symm hcr]
    rw [List.foldl_cons, hc]
    by_cases hl : l = []
    · rw [hl, List.foldl_nil]
    · rw [ih _ ⟨hlfs, hcrs⟩ hl, List.append_assoc]
      rfl

/-- A line and its end are read. -/
theorem foldl_line_end {l : List ℕ} (h : 10 ∉ l ∧ 13 ∉ l) (hne : l ≠ []) (hr : r.line = []) :
    (l ++ [10]).foldl next r = { block := r.block.line l, events := r.events } := by
  rw [List.foldl_append, foldl_line r h hne, hr, List.nil_append]
  simp [next, endLine, hne]

end Reader

/-- The events of a stream. A byte order mark before it is skipped. -/
def events (s : List ℕ) : List Event :=
  ((if s.head? = some 0xFEFF then s.tail else s).foldl Reader.next {}).events

/-! ### Frames -/

/-- Lines and the blank line that ends their block. -/
def frame (lines : List (List ℕ)) : List ℕ :=
  lines.flatMap (· ++ [10]) ++ [10]

/-- The event of a block of lines. -/
def frameEvent (lines : List (List ℕ)) : Option Event :=
  (lines.foldl Block.line {}).event?

theorem foldl_lines {lines : List (List ℕ)} (h : ∀ l ∈ lines, l ≠ [] ∧ 10 ∉ l ∧ 13 ∉ l) (b : Block)
    (evs : List Event) : (lines.flatMap (· ++ [10])).foldl Reader.next { block := b, events := evs } =
      { block := lines.foldl Block.line b, events := evs } := by
  induction lines generalizing b with
  | nil => rfl
  | cons l lines ih =>
    obtain ⟨hne, hends⟩ := h l List.mem_cons_self
    rw [List.flatMap_cons, List.foldl_append, Reader.foldl_line_end _ hends hne rfl, List.foldl_cons]
    exact ih (fun m hm ↦ h m (List.mem_cons_of_mem l hm)) (b.line l)

/-- **A frame is read as its block says**, and the reader is where it was before. -/
theorem foldl_frame {lines : List (List ℕ)} (h : ∀ l ∈ lines, l ≠ [] ∧ 10 ∉ l ∧ 13 ∉ l) (evs : List Event) :
    (frame lines).foldl Reader.next { events := evs } = { events := evs ++ (frameEvent lines).toList } := by
  rw [frame, List.foldl_append, foldl_lines h]
  rfl

/-- Frames are read one after the other. -/
theorem foldl_frames {frames : List (List (List ℕ))} (h : ∀ lines ∈ frames, ∀ l ∈ lines, l ≠ [] ∧ 10 ∉ l ∧ 13 ∉ l)
    (evs : List Event) : (frames.flatMap frame).foldl Reader.next { events := evs } =
      { events := evs ++ frames.filterMap frameEvent } := by
  induction frames generalizing evs with
  | nil => simp
  | cons lines frames ih =>
    rw [List.flatMap_cons, List.foldl_append, foldl_frame (h lines List.mem_cons_self),
      ih fun ls hls ↦ h ls (List.mem_cons_of_mem lines hls), List.filterMap_cons, List.append_assoc]
    rcases frameEvent lines with - | ev <;> rfl

/-- **The events of a stream of frames** that no byte order mark begins. -/
theorem events_frames {frames : List (List (List ℕ))} (hmark : (frames.flatMap frame).head? ≠ some 0xFEFF)
    (h : ∀ lines ∈ frames, ∀ l ∈ lines, l ≠ [] ∧ 10 ∉ l ∧ 13 ∉ l) :
    events (frames.flatMap frame) = frames.filterMap frameEvent := by
  rw [events, if_neg hmark, foldl_frames h]
  rfl

end EventSource
