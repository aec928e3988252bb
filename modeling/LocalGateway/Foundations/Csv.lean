import Mathlib.Data.List.Basic

/-!
# Comma-separated records

A writer that quotes a field only where it must, and a reader: a machine on the characters of the text, as the usual
readers have it, with records that end at a carriage return, at a line feed or at the two together.

* `read_writeRows`: the reader gets back every list of records, whatever the fields hold.

Nothing here knows what the fields mean.
-/

namespace Csv

/-- What separates fields, and what encloses those that hold a separator. -/
structure Dialect where
  delimiter : ℕ
  quote : ℕ
  delimiter_ne_quote : delimiter ≠ quote
  delimiter_ne_end : delimiter ≠ 10 ∧ delimiter ≠ 13
  quote_ne_end : quote ≠ 10 ∧ quote ≠ 13

/-- A comma and a double quote. -/
def Dialect.excel : Dialect where
  delimiter := 44
  quote := 34
  delimiter_ne_quote := by decide
  delimiter_ne_end := by decide
  quote_ne_end := by decide

variable (d : Dialect)

/-! ### Writing -/

/-- A field with this character is quoted. -/
def special (c : ℕ) : Bool :=
  c = d.delimiter || c = d.quote || c = 10 || c = 13

/-- A character of a quoted field. -/
def double (c : ℕ) : List ℕ :=
  if c = d.quote then [c, c] else [c]

/-- A field. -/
def writeField (field : List ℕ) : List ℕ :=
  if field.any (special d) then d.quote :: field.flatMap (double d) ++ [d.quote] else field

/-- A record. One that is a single empty field is quoted, lest it be an empty line. -/
def writeRow (row : List (List ℕ)) : List ℕ :=
  if row = [[]] then [d.quote, d.quote, 13, 10]
  else [d.delimiter].intercalate (row.map (writeField d)) ++ [13, 10]

/-! ### Reading -/

/-- Where the reader is. -/
inductive Mode
  | startRecord
  /-- Behind a carriage return that ended a record. -/
  | afterCr
  | startField
  | inField
  | inQuotes
  /-- Behind a quote in a quoted field. -/
  | afterQuote
deriving DecidableEq

/-- The reader between two characters. -/
structure Reader where
  mode : Mode := .startRecord
  field : List ℕ := []
  row : List (List ℕ) := []
  rows : List (List (List ℕ)) := []
deriving DecidableEq

namespace Reader

variable (r : Reader)

/-- A character belongs to the field. -/
def add (c : ℕ) (mode : Mode) : Reader :=
  { r with mode, field := r.field ++ [c] }

/-- A field has ended. -/
def endField : Reader :=
  { r with mode := .startField, field := [], row := r.row ++ [r.field] }

/-- A record has ended. -/
def endRow (c : ℕ) : Reader where
  mode := if c = 13 then .afterCr else .startRecord
  rows := r.rows ++ [r.row ++ [r.field]]

/-- A character that is not in quotes is read: it ends the record or the field, or belongs to it. -/
def plain (c : ℕ) : Reader :=
  if c = 10 ∨ c = 13 then r.endRow c else if c = d.delimiter then r.endField else r.add c .inField

/-- A character at the start of a field is read. -/
def first (c : ℕ) : Reader :=
  if c = d.quote then { r with mode := .inQuotes } else r.plain d c

/-- A character at the start of a record is read. -/
def start (c : ℕ) : Reader :=
  if c = 10 ∨ c = 13 then
    { r with mode := if c = 13 then .afterCr else .startRecord, rows := r.rows ++ [[]] }
  else r.first d c

/-- A character is read. -/
def next (r : Reader) (c : ℕ) : Reader :=
  match r.mode with
  | .startRecord => r.start d c
  | .afterCr => if c = 10 then { r with mode := .startRecord } else r.start d c
  | .startField => r.first d c
  | .inField => r.plain d c
  | .inQuotes => if c = d.quote then { r with mode := .afterQuote } else r.add c .inQuotes
  | .afterQuote => if c = d.quote then r.add c .inQuotes else r.plain d c

/-- The text has ended. -/
def finish : List (List (List ℕ)) :=
  match r.mode with
  | .startRecord | .afterCr => r.rows
  | _ => r.rows ++ [r.row ++ [r.field]]

end Reader

/-- The records of a text. -/
def read (s : List ℕ) : List (List (List ℕ)) :=
  (s.foldl (Reader.next d) {}).finish

/-! ### What is written is read -/

open Reader

variable {d}

/-- The characters of a quoted field. -/
theorem foldl_double (field : List ℕ) (r : Reader) (hr : r.mode = .inQuotes) :
    (field.flatMap (double d)).foldl (next d) r = { r with field := r.field ++ field } := by
  induction field generalizing r with
  | nil => simp
  | cons c field ih =>
    have hc : (double d c).foldl (next d) r = { r with field := r.field ++ [c] } := by
      unfold double
      split_ifs with hquote
      · simp [next, hr, hquote, add]
      · simp [next, hr, hquote, add]
    rw [List.flatMap_cons, List.foldl_append, hc, ih { r with field := r.field ++ [c] } hr, List.append_assoc]
    rfl

/-- The characters of a field that needs no quotes, after its first one. -/
theorem foldl_plain {field : List ℕ} (h : field.any (special d) = false) (r : Reader) (hr : r.mode = .inField) :
    field.foldl (next d) r = { r with field := r.field ++ field } := by
  induction field generalizing r with
  | nil => simp
  | cons c field ih =>
    rw [List.any_cons, Bool.or_eq_false_iff] at h
    have hc : next d r c = r.add c .inField := by
      have hspecial := h.1
      simp only [special, Bool.or_eq_false_iff, decide_eq_false_iff_not] at hspecial
      obtain ⟨⟨⟨hdelimiter, -⟩, hlf⟩, hcr⟩ := hspecial
      simp [next, hr, plain, hlf, hcr, hdelimiter]
    rw [List.foldl_cons, hc, ih h.2 _ rfl, add, List.append_assoc, ← hr]
    rfl

/-- The reader behind a field: it knows the field, and takes the next character as one that is not in quotes. -/
structure Behind (r : Reader) (field : List ℕ) (row : List (List ℕ)) (rows : List (List (List ℕ))) : Prop where
  mode : r.mode = .startField ∨ r.mode = .inField ∨ r.mode = .afterQuote
  field : r.field = field
  row : r.row = row
  rows : r.rows = rows

/-- **A field is read.** -/
theorem behind_writeField (field : List ℕ) (row : List (List ℕ)) (rows : List (List (List ℕ))) :
    Behind ((writeField d field).foldl (next d) ⟨.startField, [], row, rows⟩) field row rows := by
  unfold writeField
  split_ifs with hspecial
  · have hopen : next d ⟨.startField, [], row, rows⟩ d.quote = ⟨.inQuotes, [], row, rows⟩ := by
      simp [next, first]
    rw [List.cons_append, List.foldl_cons, hopen, List.foldl_append, foldl_double _ _ rfl]
    refine ⟨.inr (.inr ?_), ?_, ?_, ?_⟩ <;> simp [next]
  · rw [Bool.not_eq_true] at hspecial
    rcases field with - | ⟨c, field⟩
    · exact ⟨.inl rfl, rfl, rfl, rfl⟩
    · rw [List.any_cons, Bool.or_eq_false_iff] at hspecial
      have hc : next d ⟨.startField, [], row, rows⟩ c = ⟨.inField, [c], row, rows⟩ := by
        have hfirst := hspecial.1
        simp only [special, Bool.or_eq_false_iff, decide_eq_false_iff_not] at hfirst
        obtain ⟨⟨⟨hdelimiter, hquote⟩, hlf⟩, hcr⟩ := hfirst
        simp [next, first, plain, hquote, hlf, hcr, hdelimiter, add]
      rw [List.foldl_cons, hc, foldl_plain hspecial.2 _ rfl]
      exact ⟨.inr (.inl rfl), rfl, rfl, rfl⟩

section Behind

variable {r : Reader} {field : List ℕ} {row : List (List ℕ)} {rows : List (List (List ℕ))}

theorem Behind.next_of_ne_quote (h : Behind r field row rows) {c : ℕ} (hc : c ≠ d.quote) :
    next d r c = r.plain d c := by
  rcases h.mode with hmode | hmode | hmode <;> simp [next, hmode, first, hc]

theorem Behind.delimiter (h : Behind r field row rows) :
    next d r d.delimiter = ⟨.startField, [], row ++ [field], rows⟩ := by
  rw [h.next_of_ne_quote d.delimiter_ne_quote, plain, if_neg (by simp [d.delimiter_ne_end]), if_pos rfl, endField,
    h.field, h.row, h.rows]

theorem Behind.cr (h : Behind r field row rows) : next d r 13 = ⟨.afterCr, [], [], rows ++ [row ++ [field]]⟩ := by
  rw [h.next_of_ne_quote d.quote_ne_end.2.symm, plain, if_pos (.inr rfl), endRow, h.field, h.row, h.rows]
  rfl

end Behind

/-- The fields of a record are read. -/
theorem foldl_fields (field : List ℕ) (fields row : List (List ℕ)) (rows : List (List (List ℕ))) :
    ([d.delimiter].intercalate ((field :: fields).map (writeField d)) ++ [13, 10]).foldl (next d)
      ⟨.startField, [], row, rows⟩ = ⟨.startRecord, [], [], rows ++ [row ++ field :: fields]⟩ := by
  have hread := behind_writeField (d := d) field row rows
  induction fields generalizing field row with
  | nil =>
    have hone : [d.delimiter].intercalate ([field].map (writeField d)) = writeField d field := by simp
    rw [hone, List.foldl_append, List.foldl_cons, hread.cr]
    rfl
  | cons next' fields ih =>
    have hsplit : [d.delimiter].intercalate ((field :: next' :: fields).map (writeField d)) =
        writeField d field ++ d.delimiter :: [d.delimiter].intercalate ((next' :: fields).map (writeField d)) := by
      simp
    rw [hsplit, List.append_assoc, List.foldl_append, List.cons_append, List.foldl_cons, hread.delimiter,
      ih next' (row ++ [field]) (behind_writeField next' (row ++ [field]) rows), List.append_assoc]
    rfl

/-- The first character of a record is that of its first field. -/
theorem foldl_startRecord {s : List ℕ} (hne : s ≠ []) (h : s.head? ≠ some 10 ∧ s.head? ≠ some 13)
    (rows : List (List (List ℕ))) :
    s.foldl (next d) ⟨.startRecord, [], [], rows⟩ = s.foldl (next d) ⟨.startField, [], [], rows⟩ := by
  rcases s with - | ⟨c, s⟩
  · exact absurd rfl hne
  · obtain ⟨hlf, hcr⟩ := h
    have hend : ¬ (c = 10 ∨ c = 13) := by simpa using And.intro hlf hcr
    have hc : next d ⟨.startRecord, [], [], rows⟩ c = next d ⟨.startField, [], [], rows⟩ c := by
      simp only [not_or] at hend
      simp [next, start, first, plain, endField, add, hend]
    rw [List.foldl_cons, List.foldl_cons, hc]

/-- A field that is written does not begin with a line end. -/
theorem head_writeField (field : List ℕ) :
    (writeField d field).head? ≠ some 10 ∧ (writeField d field).head? ≠ some 13 := by
  unfold writeField
  split_ifs with hspecial
  · simp [d.quote_ne_end]
  · rcases field with - | ⟨c, field⟩
    · simp
    · simp only [special, List.any_cons, Bool.or_eq_true, decide_eq_true_eq, not_or] at hspecial
      simp [hspecial.1.1.2, hspecial.1.2]

/-- **A record is read.** -/
theorem foldl_writeRow (row : List (List ℕ)) (rows : List (List (List ℕ))) :
    (writeRow d row).foldl (next d) ⟨.startRecord, [], [], rows⟩ = ⟨.startRecord, [], [], rows ++ [row]⟩ := by
  unfold writeRow
  split_ifs with hempty
  · subst hempty
    simp [next, start, first, plain, endRow, d.quote_ne_end, d.quote_ne_end.2.symm]
  · rcases row with - | ⟨field, fields⟩
    · simp [next, start]
    · -- it begins with its first field, or with what separates it from the second
      have hhead : ([d.delimiter].intercalate ((field :: fields).map (writeField d)) ++ [13, 10]).head? ≠ some 10 ∧
          ([d.delimiter].intercalate ((field :: fields).map (writeField d)) ++ [13, 10]).head? ≠ some 13 := by
        obtain ⟨hlf, hcr⟩ := head_writeField (d := d) field
        rcases fields with - | ⟨field', fields⟩
        · rcases hwritten : writeField d field with - | ⟨c, written⟩
          · have hnil : field = [] := by
              rcases field with - | ⟨c, field⟩
              · rfl
              · unfold writeField at hwritten
                split_ifs at hwritten
                cases hwritten
            exact absurd (hnil ▸ rfl) hempty
          · rw [hwritten] at hlf hcr
            simpa [hwritten] using And.intro hlf hcr
        · rcases hwritten : writeField d field with - | ⟨c, written⟩
          · simp [hwritten, d.delimiter_ne_end]
          · rw [hwritten] at hlf hcr
            simpa [hwritten] using And.intro hlf hcr
      rw [foldl_startRecord (by simp) hhead, foldl_fields]
      rfl

theorem foldl_writeRows (rows : List (List (List ℕ))) (before : List (List (List ℕ))) :
    (rows.flatMap (writeRow d)).foldl (next d) ⟨.startRecord, [], [], before⟩ =
      ⟨.startRecord, [], [], before ++ rows⟩ := by
  induction rows generalizing before with
  | nil => simp
  | cons row rows ih => rw [List.flatMap_cons, List.foldl_append, foldl_writeRow, ih, List.append_assoc]; rfl

/-- **What is written is read.** -/
theorem read_writeRows (rows : List (List (List ℕ))) : read d (rows.flatMap (writeRow d)) = rows := by
  show ((rows.flatMap (writeRow d)).foldl (next d) ⟨.startRecord, [], [], []⟩).finish = rows
  rw [foldl_writeRows]
  rfl

end Csv
