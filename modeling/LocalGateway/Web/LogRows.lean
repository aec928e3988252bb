import LocalGateway.Foundations.Markup
import LocalGateway.Js.Value

/-!
# The rows of the log page

`_logRowHtml` of `logs.js`, with `esc` and `escAttr` of `shared.js`: the page puts the text of the rows into
`innerHTML`. What a request, an upstream or an exception has put into a message, a name or the meta data of an entry is
in that text, so the escaping decides whether it is shown or run.

* `logRowHtml`: the text of a row. `rowTokens` is the row that is meant: which elements it has, with which attributes,
  and which characters are in them.
* `esc_eq_flatMap`: the replacements one after another are one replacement of each character.
* `read_logsHtml`: the text of the rows is read as the rows that are meant, whatever the entries have.

The browser is `Markup.read`. It also replaces a NUL and a carriage return, of a row as of any text; this is left out.
-/

namespace LogRows

open Js Markup

/-- What the browser writes for numbers and for times. Both are plain text. -/
structure Printer where
  /-- `String(x)` of a number. -/
  number : Number → PyStr
  /-- `new Date(ts * 1000).toTimeString().slice(0, 8)`. -/
  time : Number → PyStr
  number_plain : ∀ x, ∀ c ∈ number x, c ≠ quote ∧ c ≠ ampersand ∧ c ≠ less
  time_plain : ∀ x, ∀ c ∈ time x, c ≠ quote ∧ c ≠ ampersand ∧ c ≠ less

instance : Inhabited Printer :=
  ⟨⟨fun _ ↦ [48], fun _ ↦ [48], fun _ ↦ by decide, fun _ ↦ by decide⟩⟩

/-- An entry of `/admin/logs`. `ts` is a number, and a missing property is `undefined`. -/
structure Entry where
  ts : Number
  level : Value
  message : Value
  model : Value
  provider : Value
  latencyMs : Value
  metaData : Value

/-- The names of references that the page writes. -/
def references (ref : List ℕ) : Option ℕ :=
  [(py "amp", ampersand), (py "lt", less), (py "gt", greater), (py "quot", quote), (py "#39", 39)].lookup ref

/-! ### Escaping -/

/-- `s.replace(/c/g, text)` of a character. -/
def replaceAll (c : ℕ) (text s : PyStr) : PyStr :=
  s.flatMap fun d ↦ if d = c then text else [d]

/-- The replacements of `esc`. -/
def escText (s : PyStr) : PyStr :=
  replaceAll quote (py "&quot;") <| replaceAll greater (py "&gt;") <| replaceAll less (py "&lt;") <|
    replaceAll ampersand (py "&amp;") s

/-- The replacements of `escAttr`. -/
def escAttrText (s : PyStr) : PyStr :=
  replaceAll 39 (py "&#39;") (escText s)

/-- What `esc` makes of a character. -/
def escChar (c : ℕ) : PyStr :=
  if c = ampersand then py "&amp;" else if c = less then py "&lt;" else if c = greater then py "&gt;"
  else if c = quote then py "&quot;" else [c]

/-- What `escAttr` makes of a character. -/
def escAttrChar (c : ℕ) : PyStr :=
  if c = 39 then py "&#39;" else escChar c

section

variable (printer : Printer)

/-- `String(v)`, or nothing where it raises: an object with a `toString` of its own, which is no function. -/
def asString : Value → Option PyStr
  | .undefined => some (py "undefined")
  | .null => some (py "null")
  | .bool b => some (if b then py "true" else py "false")
  | .num x => some (printer.number x)
  | .str s => some s
  | .arr xs => (elements xs).map (List.intercalate (py ","))
  | .obj kvs => if (kvs.lookup (py "toString")).isSome then none else some (py "[object Object]")
  | .builtin _ => none
where
  elements : List Value → Option (List PyStr)
    | [] => some []
    | .undefined :: xs | .null :: xs => (elements xs).map ([] :: ·)
    | x :: xs => (asString x).bind fun s ↦ (elements xs).map (s :: ·)

/-- `v == null`. -/
def isNullish : Value → Bool
  | .undefined | .null => true
  | _ => false

/-- `String(s==null?'':s)`. -/
def shown (v : Value) : Option PyStr :=
  if isNullish v then some [] else asString printer v

/-- `esc`. -/
def esc (v : Value) : Option PyStr :=
  (shown printer v).map escText

/-- `escAttr`. -/
def escAttr (v : Value) : Option PyStr :=
  (shown printer v).map escAttrText

/-! ### Rows -/

/-- `(l.meta && typeof l.meta === 'object') ? l.meta : {}`, at a property. -/
def metaProperty (v : Value) (k : PyStr) : Value :=
  match v with
  | .obj kvs => (kvs.lookup k).getD .undefined
  | _ => .undefined

/-- `v!=null?before+v+after:null`. -/
def labelled (before : PyStr) (v : Value) (after : PyStr) : Option Value :=
  if isNullish v then some .null else (asString printer v).map fun s ↦ .str (before ++ s ++ after)

/-- `v?before+v:null`. -/
def reason (before : PyStr) (v : Value) : Option Value :=
  if v.truthy then (asString printer v).map fun s ↦ .str (before ++ s) else some .null

/-- `meta`: the parts that there are, joined. -/
def metaText (l : Entry) : Option PyStr := do
  let latency ← labelled printer [] l.latencyMs (py "ms")
  let ttft ← labelled printer (py "ttft ") (metaProperty l.metaData (py "ttft_ms")) (py "ms")
  let why ← reason printer (py "why: ") (metaProperty l.metaData (py "routing_reason"))
  let reasoning ← labelled printer (py "reasoning ") (metaProperty l.metaData (py "reasoning_tokens")) []
  let input ← labelled printer (py "in ") (metaProperty l.metaData (py "input_tokens")) []
  let output ← labelled printer (py "out ") (metaProperty l.metaData (py "output_tokens")) []
  let parts := [l.model, l.provider, latency, ttft, why, reasoning, input, output].filter Value.truthy
  return List.intercalate (py " · ") (← parts.mapM (asString printer))

/-- `rid`. -/
def rid (l : Entry) : Value :=
  metaProperty l.metaData (py "request_id")

/-- `l.ts || ''`. -/
def tsText (l : Entry) : PyStr :=
  if l.ts = .fin 0 then [] else printer.number l.ts

/-- `title` of the chip. -/
def chipTitle : PyStr :=
  py "Trace this request (click to filter)"

/-- `style` of the chip. -/
def chipStyle : PyStr :=
  py "cursor:pointer;font-family:var(--font-mono);font-size:0.72rem;color:var(--accent-hover);" ++
    py "background:var(--accent-surface);border-radius:6px;padding:0 6px;margin-left:8px"

/-- `ridChip`. -/
def ridChip (v : Value) : Option PyStr :=
  if v.truthy then do
    return py "<span class=\"rid-chip\" data-rid=\"" ++ (← escAttr printer v) ++ py "\" title=\"" ++ chipTitle ++
      py "\" style=\"" ++ chipStyle ++ py "\">⧉ " ++ (← esc printer v) ++ py "</span>"
  else some []

/-- `_logRowHtml`. -/
def logRowHtml (l : Entry) : Option PyStr := do
  let metaLine ← metaText printer l
  let chip ← ridChip printer (rid l)
  return py "<div class=\"log-row\">" ++
    (py "<span class=\"log-time\" data-ts=\"" ++ tsText printer l ++ py "\">" ++ printer.time l.ts ++ py "</span>") ++
    (py "<span class=\"lv lv-" ++ (← esc printer l.level) ++ py "\">" ++ (← esc printer l.level) ++ py "</span>") ++
    (py "<span class=\"log-msg\" title=\"" ++ (← esc printer l.message) ++ py "\">" ++ (← esc printer l.message) ++
      py "</span>") ++
    (py "<span class=\"log-meta\">" ++ escText metaLine ++ py "</span>") ++ chip ++ py "</div>"

/-- `logs.map(_logRowHtml).join('')`. -/
def logsHtml (logs : List Entry) : Option PyStr :=
  (logs.mapM (logRowHtml printer)).map List.flatten

/-! ### What is meant -/

/-- An element with characters in it. -/
def element (name : PyStr) (attributes : List Attribute) (text : PyStr) : List Token :=
  .start name attributes :: (text.map .char ++ [.close name])

/-- The chip that is meant. -/
def chipTokens (v : Value) : Option (List Token) :=
  if v.truthy then (shown printer v).map fun s ↦
    element (py "span") [(py "class", py "rid-chip"), (py "data-rid", s), (py "title", chipTitle),
      (py "style", chipStyle)] (py "⧉ " ++ s)
  else some []

/-- The row that is meant: the attributes and the texts are those of the entry, and there is nothing else. -/
def rowTokens (l : Entry) : Option (List Token) := do
  let metaLine ← metaText printer l
  let chip ← chipTokens printer (rid l)
  let level ← shown printer l.level
  let message ← shown printer l.message
  return [.start (py "div") [(py "class", py "log-row")]] ++
    element (py "span") [(py "class", py "log-time"), (py "data-ts", tsText printer l)] (printer.time l.ts) ++
    element (py "span") [(py "class", py "lv lv-" ++ level)] level ++
    element (py "span") [(py "class", py "log-msg"), (py "title", message)] message ++
    element (py "span") [(py "class", py "log-meta")] metaLine ++ chip ++ [.close (py "div")]

/-! ### Escaping keeps the characters -/

theorem replaceAll_flatMap (c : ℕ) (r : PyStr) (f : ℕ → PyStr) (s : PyStr) :
    replaceAll c r (s.flatMap f) = s.flatMap fun d ↦ replaceAll c r (f d) := by
  rw [replaceAll, List.flatMap_assoc]
  rfl

theorem replaceAll_singleton (c : ℕ) (r : PyStr) (d : ℕ) : replaceAll c r [d] = if d = c then r else [d] := by
  rw [replaceAll, List.flatMap_singleton]

/-- A reference has no character that is still to be replaced: the order of the replacements is right. -/
theorem replaced_references :
    replaceAll less (py "&lt;") (py "&amp;") = py "&amp;" ∧ replaceAll greater (py "&gt;") (py "&amp;") = py "&amp;" ∧
      replaceAll quote (py "&quot;") (py "&amp;") = py "&amp;" ∧
      replaceAll greater (py "&gt;") (py "&lt;") = py "&lt;" ∧ replaceAll quote (py "&quot;") (py "&lt;") = py "&lt;" ∧
      replaceAll quote (py "&quot;") (py "&gt;") = py "&gt;" :=
  ⟨rfl, rfl, rfl, rfl, rfl, rfl⟩

theorem escChar_eq (c : ℕ) :
    replaceAll quote (py "&quot;") (replaceAll greater (py "&gt;") (replaceAll less (py "&lt;")
      (if c = ampersand then py "&amp;" else [c]))) = escChar c := by
  obtain ⟨hampLess, hampGreater, hampQuote, hlessGreater, hlessQuote, hgreaterQuote⟩ := replaced_references
  unfold escChar
  by_cases hamp : c = ampersand
  · rw [if_pos hamp, if_pos hamp, hampLess, hampGreater, hampQuote]
  rw [if_neg hamp, if_neg hamp, replaceAll_singleton]
  by_cases hless : c = less
  · rw [if_pos hless, if_pos hless, hlessGreater, hlessQuote]
  rw [if_neg hless, if_neg hless, replaceAll_singleton]
  by_cases hgreater : c = greater
  · rw [if_pos hgreater, if_pos hgreater, hgreaterQuote]
  · rw [if_neg hgreater, if_neg hgreater, replaceAll_singleton]

/-- **The replacements one after another are one replacement of each character.** -/
theorem escText_eq_flatMap (s : PyStr) : escText s = s.flatMap escChar := by
  have hfirst : replaceAll ampersand (py "&amp;") s = s.flatMap fun c ↦ if c = ampersand then py "&amp;" else [c] := rfl
  rw [escText, hfirst, replaceAll_flatMap, replaceAll_flatMap, replaceAll_flatMap]
  exact List.flatMap_congr fun c _ ↦ escChar_eq c

/-- `escAttr` also replaces the apostrophe, which no reference has. -/
theorem escAttrText_eq_flatMap (s : PyStr) : escAttrText s = s.flatMap escAttrChar := by
  have hreferences : replaceAll 39 (py "&#39;") (py "&amp;") = py "&amp;" ∧
      replaceAll 39 (py "&#39;") (py "&lt;") = py "&lt;" ∧ replaceAll 39 (py "&#39;") (py "&gt;") = py "&gt;" ∧
      replaceAll 39 (py "&#39;") (py "&quot;") = py "&quot;" := ⟨rfl, rfl, rfl, rfl⟩
  obtain ⟨hamp, hless, hgreater, hquote⟩ := hreferences
  rw [escAttrText, escText_eq_flatMap, replaceAll_flatMap]
  refine List.flatMap_congr fun c _ ↦ ?_
  unfold escAttrChar escChar
  split_ifs <;> simp_all [replaceAll_singleton]

/-- A character by a reference. -/
theorem spelled_reference (ref : PyStr) {written : PyStr} {c : ℕ} (hwritten : written = ampersand :: ref ++ [semicolon])
    (hchars : ref.all isReference = true) (href : references ref = some c) : Spelled references [c] written := by
  rw [hwritten]
  exact .reference (List.all_eq_true.1 hchars) href .nil

theorem spelled_escChar (c : ℕ) : Spelled references [c] (escChar c) := by
  unfold escChar
  split_ifs with hamp hless hgreater hquote
  · subst hamp
    exact spelled_reference (py "amp") rfl rfl rfl
  · subst hless
    exact spelled_reference (py "lt") rfl rfl rfl
  · subst hgreater
    exact spelled_reference (py "gt") rfl rfl rfl
  · subst hquote
    exact spelled_reference (py "quot") rfl rfl rfl
  · exact .plain hquote hamp hless .nil

theorem spelled_escAttrChar (c : ℕ) : Spelled references [c] (escAttrChar c) := by
  unfold escAttrChar
  split_ifs with hapostrophe
  · subst hapostrophe
    exact spelled_reference (py "#39") rfl rfl rfl
  · exact spelled_escChar c

/-- **Escaped text is a spelling of the text.** -/
theorem spelled_escText (s : PyStr) : Spelled references s (escText s) := by
  rw [escText_eq_flatMap]
  exact spelled_flatMap spelled_escChar s

theorem spelled_escAttrText (s : PyStr) : Spelled references s (escAttrText s) := by
  rw [escAttrText_eq_flatMap]
  exact spelled_flatMap spelled_escAttrChar s

/-! ### A row is written -/

/-- An element with characters in it is written by its parts. -/
theorem written_element {name a v s html : PyStr} {attributes : List Attribute} (hname : IsNamed name)
    (ha : Attributes references attributes a) (hv : Spelled references v s)
    (hhtml : html = less :: name ++ a ++ greater :: (s ++ (less :: slash :: name ++ [greater]))) :
    Written references (element name attributes v) html := by
  rw [hhtml]
  exact .start hname ha (.text hv (.close hname .nil))

theorem isNamed_of (c : ℕ) (rest : PyStr) (hc : isLetter c = true) (hrest : rest.all isName = true) :
    IsNamed (c :: rest) :=
  ⟨c, rest, rfl, hc, List.all_eq_true.1 hrest⟩

theorem isNamed_span : IsNamed (py "span") :=
  isNamed_of 115 (py "pan") rfl rfl

theorem isNamed_div : IsNamed (py "div") :=
  isNamed_of 100 (py "iv") rfl rfl

theorem isNamed_class : IsNamed (py "class") :=
  isNamed_of 99 (py "lass") rfl rfl

theorem isNamed_title : IsNamed (py "title") :=
  isNamed_of 116 (py "itle") rfl rfl

theorem isNamed_style : IsNamed (py "style") :=
  isNamed_of 115 (py "tyle") rfl rfl

theorem isNamed_dataTs : IsNamed (py "data-ts") :=
  isNamed_of 100 (py "ata-ts") rfl rfl

theorem isNamed_dataRid : IsNamed (py "data-rid") :=
  isNamed_of 100 (py "ata-rid") rfl rfl

/-- A text of the page itself has no character to escape. -/
theorem spelled_own {v : PyStr} (h : v.all (fun c ↦ c ≠ quote && c ≠ ampersand && c ≠ less) = true) :
    Spelled references v v :=
  spelled_plain fun c hc ↦ by simpa [and_assoc] using List.all_eq_true.1 h c hc

theorem quote_greater : py "\">" = [quote, greater] := rfl

theorem span_close : py "</span>" = less :: slash :: py "span" ++ [greater] := rfl

theorem spelled_tsText (l : Entry) : Spelled references (tsText printer l) (tsText printer l) := by
  unfold tsText
  split_ifs
  · exact .nil
  · exact spelled_plain (printer.number_plain l.ts)

theorem written_time (l : Entry) :
    Written references
      (element (py "span") [(py "class", py "log-time"), (py "data-ts", tsText printer l)] (printer.time l.ts))
      (py "<span class=\"log-time\" data-ts=\"" ++ tsText printer l ++ py "\">" ++ printer.time l.ts ++
        py "</span>") := by
  have hopen : py "<span class=\"log-time\" data-ts=\"" = less :: py "span" ++ space :: py "class" ++ equals :: quote ::
      py "log-time" ++ quote :: space :: py "data-ts" ++ [equals, quote] := rfl
  refine written_element isNamed_span
    (.cons isNamed_class (spelled_own rfl) (.cons isNamed_dataTs (spelled_tsText printer l) .nil))
    (spelled_plain (printer.time_plain l.ts)) ?_
  rw [hopen, quote_greater, span_close]
  simp only [List.append_assoc, List.cons_append, List.nil_append]

theorem written_level (level : PyStr) :
    Written references (element (py "span") [(py "class", py "lv lv-" ++ level)] level)
      (py "<span class=\"lv lv-" ++ escText level ++ py "\">" ++ escText level ++ py "</span>") := by
  have hopen : py "<span class=\"lv lv-" = less :: py "span" ++ space :: py "class" ++ equals :: quote ::
      py "lv lv-" := rfl
  have hclass : Spelled references (py "lv lv-" ++ level) (py "lv lv-" ++ escText level) :=
    (spelled_own rfl).append (spelled_escText level)
  refine written_element isNamed_span (.cons isNamed_class hclass .nil) (spelled_escText level) ?_
  rw [hopen, quote_greater, span_close]
  simp only [List.append_assoc, List.cons_append, List.nil_append]

theorem written_message (message : PyStr) :
    Written references (element (py "span") [(py "class", py "log-msg"), (py "title", message)] message)
      (py "<span class=\"log-msg\" title=\"" ++ escText message ++ py "\">" ++ escText message ++ py "</span>") := by
  have hopen : py "<span class=\"log-msg\" title=\"" = less :: py "span" ++ space :: py "class" ++ equals :: quote ::
      py "log-msg" ++ quote :: space :: py "title" ++ [equals, quote] := rfl
  refine written_element isNamed_span
    (.cons isNamed_class (spelled_own rfl) (.cons isNamed_title (spelled_escText message) .nil))
    (spelled_escText message) ?_
  rw [hopen, quote_greater, span_close]
  simp only [List.append_assoc, List.cons_append, List.nil_append]

theorem written_meta (metaLine : PyStr) :
    Written references (element (py "span") [(py "class", py "log-meta")] metaLine)
      (py "<span class=\"log-meta\">" ++ escText metaLine ++ py "</span>") := by
  have hopen : py "<span class=\"log-meta\">" = less :: py "span" ++ space :: py "class" ++ equals :: quote ::
      py "log-meta" ++ [quote, greater] := rfl
  refine written_element isNamed_span (.cons isNamed_class (spelled_own rfl) .nil)
    (spelled_escText metaLine) ?_
  rw [hopen, span_close]
  simp only [List.append_assoc, List.cons_append, List.nil_append]

theorem written_chip (v : Value) :
    Option.Rel (Written references) (chipTokens printer v) (ridChip printer v) := by
  have hopen : py "<span class=\"rid-chip\" data-rid=\"" = less :: py "span" ++ space :: py "class" ++ equals ::
      quote :: py "rid-chip" ++ quote :: space :: py "data-rid" ++ [equals, quote] := rfl
  have htitle : py "\" title=\"" = quote :: space :: py "title" ++ [equals, quote] := rfl
  have hstyle : py "\" style=\"" = quote :: space :: py "style" ++ [equals, quote] := rfl
  have hlast : py "\">⧉ " = quote :: greater :: py "⧉ " := rfl
  unfold chipTokens ridChip
  by_cases hv : v.truthy = true
  · rw [if_pos hv, if_pos hv, escAttr, esc]
    cases hs : shown printer v with
    | none => exact .none
    | some s =>
      have hmark : Spelled references (py "⧉ " ++ s) (py "⧉ " ++ escText s) :=
        (spelled_own rfl).append (spelled_escText s)
      refine .some (written_element isNamed_span
        (.cons isNamed_class (spelled_own rfl) (.cons isNamed_dataRid (spelled_escAttrText s)
          (.cons isNamed_title (spelled_own rfl)
            (.cons isNamed_style (spelled_own (by decide +kernel)) .nil)))) hmark ?_)
      rw [hopen, htitle, hstyle, hlast, span_close]
      simp only [List.append_assoc, List.cons_append, List.nil_append]
  · rw [if_neg hv, if_neg hv]
    exact .some .nil

/-- **A row is written.** -/
theorem written_row (l : Entry) :
    Option.Rel (Written references) (rowTokens printer l) (logRowHtml printer l) := by
  have hopen : py "<div class=\"log-row\">" = less :: py "div" ++ space :: py "class" ++ equals :: quote ::
      py "log-row" ++ [quote, greater] := rfl
  have hclose : py "</div>" = less :: slash :: py "div" ++ [greater] := rfl
  unfold rowTokens logRowHtml esc
  cases metaText printer l with
  | none => exact .none
  | some metaLine =>
    have hchip := written_chip printer (rid l)
    generalize chipTokens printer (rid l) = tokens at hchip
    generalize ridChip printer (rid l) = html at hchip
    cases hchip with
    | none => exact .none
    | @some tokens html hchip =>
      cases shown printer l.level with
      | none => exact .none
      | some level =>
        cases shown printer l.message with
        | none => exact .none
        | some message =>
          have hcontent := ((((written_time printer l).append (written_level level)).append
            (written_message message)).append (written_meta metaLine)).append hchip
          have hclass : Spelled references (py "log-row") (py "log-row") := spelled_own rfl
          have hrow := Written.start isNamed_div (.cons isNamed_class hclass .nil)
            (hcontent.append (.close isNamed_div .nil))
          refine .some ?_
          rw [hopen, hclose]
          simpa only [List.append_assoc, List.cons_append, List.nil_append, List.append_nil] using hrow

/-- Rows one after another are written. -/
theorem written_rows (logs : List Entry) :
    Option.Rel (Written references) ((logs.mapM (rowTokens printer)).map List.flatten) (logsHtml printer logs) := by
  unfold logsHtml
  induction logs with
  | nil => exact .some .nil
  | cons l logs ih =>
    rw [List.mapM_cons, List.mapM_cons]
    have hrow := written_row printer l
    generalize rowTokens printer l = tokens at hrow
    generalize logRowHtml printer l = html at hrow
    cases hrow with
    | none => exact .none
    | some hrow =>
      generalize List.mapM (rowTokens printer) logs = rest at ih
      generalize List.mapM (logRowHtml printer) logs = restHtml at ih
      cases rest with
      | none =>
        cases restHtml with
        | none => exact .none
        | some restHtml => cases ih
      | some rest =>
        cases restHtml with
        | none => cases ih
        | some restHtml =>
          cases ih with
          | some ih => exact .some (hrow.append ih)

/-- **The rows are read as they are meant.** The browser makes of the text of the rows the elements, attributes and
characters of `rowTokens` and nothing else, whatever the log has: no level, message, name, reason or identifier can
close an element or an attribute, or open one. -/
theorem read_logsHtml (logs : List Entry) :
    (logsHtml printer logs).bind (read references) = (logs.mapM (rowTokens printer)).map List.flatten := by
  have hrows := written_rows printer logs
  generalize (logs.mapM (rowTokens printer)).map List.flatten = tokens at hrows
  generalize logsHtml printer logs = html at hrows
  cases hrows with
  | none => rfl
  | some hrows => rw [Option.bind_some, read_of_written hrows]

end

end LogRows
