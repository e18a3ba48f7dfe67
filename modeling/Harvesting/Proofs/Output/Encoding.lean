import Harvesting.Output.Bulk
import Harvesting.Proofs.Json.Reader
import Harvesting.Proofs.Text.Utf8

/-!
# Bulk bodies hold their documents

The body of a bulk request is read back: cut into lines at its line feeds, each line a JSON value, each
two values a document.

* `Bulk.framed?` — the lines of some bytes, each with a line feed behind it;
* `Bulk.decode?` — the documents of a body;
* `Bulk.framed?_flatMap` — lines without line feeds are cut out as they were put together;
* `Bulk.value?_line` — the line of a value is read as that value;
* `Bulk.decode_bytes` — two lines for each document, the first with its place and the second with its
  source, and together they are the documents, in their order.
-/

namespace Harvesting.Bulk

/-! ## Reading a body -/

/-- The bytes of the body for a batch. -/
def bytes (batch : List Document) : List UInt8 := (String.ofList (encode batch)).toUTF8.data.toList

/-- The lines of some bytes without their line feeds; none if the last line has no line feed. -/
def framed? : List UInt8 → Option (List (List UInt8))
  | [] => some []
  | b :: r =>
    if b = 10 then (framed? r).map ([] :: ·)
    else match framed? r with
      | some (l :: ls) => some ((b :: l) :: ls)
      | _ => none

def lineText (line : List UInt8) : String := String.ofList (Utf8.decodeLossy line)

/-- The value on a line, however deep it is nested. -/
def value? (line : List UInt8) : Option Json := (Json.readAnyDepth (lineText line)).toOption

/-- A document with the place that a value gives and another value as its source. -/
def document? (source : Json) : Json → Option Document
  | .object [("index", .object place)] => do
    let index ← (← Json.lookup "_index" place).asString?
    let id ← (← Json.lookup "_id" place).asString?
    match Json.lookup "_type" place with
    | none => return ⟨id, index, none, source⟩
    | some t => return ⟨id, index, some (← t.asString?), source⟩
  | _ => none

/-- The documents of some lines, two for each. -/
def documents? : List (List UInt8) → Option (List Document)
  | [] => some []
  | [_] => none
  | action :: source :: r => do
    let d ← document? (← value? source) (← value? action)
    return d :: (← documents? r)

def decode? (body : List UInt8) : Option (List Document) := do documents? (← framed? body)

/-! ## Lines -/

theorem framed?_line {l r : List UInt8} (h : 10 ∉ l) : framed? (l ++ 10 :: r) = (framed? r).map (l :: ·) := by
  induction l with
  | nil => exact if_pos rfl
  | cons b l ih =>
      have hb : b ≠ 10 := fun hb => h (hb ▸ List.mem_cons_self)
      rw [List.cons_append, framed?, if_neg hb, ih fun hl => h (List.mem_cons_of_mem b hl)]
      cases framed? r <;> rfl

theorem framed?_flatMap {ls : List (List UInt8)} (h : ∀ l ∈ ls, 10 ∉ l) :
    framed? (ls.flatMap (· ++ [10])) = some ls := by
  induction ls with
  | nil => rfl
  | cons l ls ih =>
      rw [List.flatMap_cons, List.append_assoc, List.singleton_append, framed?_line (h l List.mem_cons_self),
        ih fun k hk => h k (List.mem_cons_of_mem l hk)]
      rfl

/-- The bytes of a value on a line of its own. -/
def line (v : Json) : List UInt8 := Utf8.encode v.compactChars

theorem lineText_line (v : Json) : lineText (line v) = v.compact := by
  have hend : Utf8.decodeLossy [] = [] := by rw [Utf8.decodeLossy]
  have hchars := Utf8.decodeLossy_encode v.compactChars []
  rw [List.append_nil, hend, List.append_nil] at hchars
  rw [lineText, line, hchars]
  rfl

theorem value?_line {v : Json} (h : v.Whole) : value? (line v) = some v := by
  rw [value?, lineText_line, Json.readAnyDepth_compact h]
  rfl

/-- No byte of the line is a line feed: such a byte would be a character of its own. -/
theorem lineFeed_notMem_line {v : Json} (h : v.Whole) : 10 ∉ line v := by
  intro hmem
  obtain ⟨c, hc, hbyte⟩ := List.mem_flatMap.1 hmem
  have hcode := Utf8.ascii_of_mem_encodeChar hbyte (by decide)
  have hfeed : c = '\n' := Char.toNat_inj.1 hcode
  exact Json.lineFeed_notMem_compact v h (hfeed ▸ hc)

theorem bytes_eq (batch : List Document) :
    bytes batch = ((batch.flatMap lines).map line).flatMap (· ++ [10]) := by
  rw [bytes, Utf8.toUTF8_ofList, encode]
  induction batch.flatMap lines with
  | nil => rfl
  | cons v vs ih =>
      rw [List.flatMap_cons, Utf8.encode_append, ih, Utf8.encode_append]
      rfl

/-! ## Documents -/

/-- What the first line of a document says: its index and its id, and its type if it has one. -/
def place (d : Document) : List (String × Json) :=
  ("_id", .string d.id) :: ("_index", .string d.index) ::
    (d.docType.map fun t => ("_type", Json.string t)).toList

def action (d : Document) : Json := .object [("index", .object (place d))]

theorem lines_eq (d : Document) : lines d = [action d, d.source] := by
  have hid : "_id" < "_index" := by decide
  have htype : "_index" < "_type" := by decide
  have hinsert (v w : Json) : Json.insert "_id" v [("_index", w)] = [("_id", v), ("_index", w)] :=
    Json.insert_lt hid _ _ _
  have hlast (u v w : Json) : Json.insert "_type" w [("_id", u), ("_index", v)] =
      [("_id", u), ("_index", v), ("_type", w)] := by
    rw [Json.insert_gt (String.lt_trans hid htype), Json.insert_gt htype]
    rfl
  unfold lines action place
  cases d.docType with
  | none => simp only [Json.ofFields, Option.map, Option.toList, List.foldl, Json.insert.eq_1, hinsert]
  | some t => simp only [Json.ofFields, Option.map, Option.toList, List.foldl, Json.insert.eq_1, hinsert, hlast]

theorem whole_action (d : Document) : (action d).Whole := by
  have hnames : ((place d).map (·.1)).Sublist ["_id", "_index", "_type"] := by
    unfold place
    cases d.docType with
    | none => exact List.Sublist.cons_cons _ (List.Sublist.cons_cons _ (List.nil_sublist _))
    | some t => exact List.Sublist.refl _
  have hranked : Json.Ranked (place d) := List.Pairwise.sublist hnames (by decide)
  have hmembers : Json.WholeMembers (place d) := by
    unfold place
    cases d.docType <;> simp [Json.WholeMembers, Json.Whole]
  exact ⟨List.pairwise_singleton _ _, ⟨hranked, hmembers⟩, trivial⟩

theorem document?_action (d : Document) : document? d.source (action d) = some d := by
  obtain ⟨id, index, docType, source⟩ := d
  cases docType <;> rfl

theorem whole_lines {batch : List Document} (h : ∀ d ∈ batch, d.source.Whole) :
    ∀ v ∈ batch.flatMap lines, v.Whole := by
  intro v hv
  obtain ⟨d, hd, hv⟩ := List.mem_flatMap.1 hv
  rw [lines_eq, List.mem_cons, List.mem_singleton] at hv
  rcases hv with rfl | rfl
  · exact whole_action d
  · exact h d hd

theorem documents?_lines {batch : List Document} (h : ∀ d ∈ batch, d.source.Whole) :
    documents? ((batch.flatMap lines).map line) = some batch := by
  induction batch with
  | nil => rfl
  | cons d batch ih =>
      have hrest := ih fun e he => h e (List.mem_cons_of_mem d he)
      rw [List.flatMap_cons, lines_eq]
      show documents? (line (action d) :: line d.source :: (batch.flatMap lines).map line) = _
      rw [documents?, value?_line (whole_action d), value?_line (h d List.mem_cons_self), hrest]
      show (document? d.source (action d)).bind _ = _
      rw [document?_action]
      rfl

/-- The lines of the document at a place in the batch. -/
theorem getElem?_lines {batch : List Document} {i : Nat} {d : Document} (h : batch[i]? = some d) :
    (batch.flatMap lines)[2 * i]? = some (action d) ∧ (batch.flatMap lines)[2 * i + 1]? = some d.source := by
  induction batch generalizing i with
  | nil => cases h
  | cons e batch ih =>
      rw [List.flatMap_cons, lines_eq]
      cases i with
      | zero =>
          cases h
          exact ⟨rfl, rfl⟩
      | succ i => exact ih h

theorem length_lines (batch : List Document) : (batch.flatMap lines).length = 2 * batch.length := by
  induction batch with
  | nil => rfl
  | cons d batch ih =>
      rw [List.flatMap_cons, List.length_append, ih, lines_eq, List.length_cons]
      simp only [List.length_cons, List.length_nil]
      omega

/-- A bulk body holds its documents: it has two lines for each of them, and no line feed but those at the
ends of these lines, whatever texts the documents hold. The first line of a document has its place and
nothing else, the second its source, and read together they are the documents, in their order. The
program's own reader reads a source too, unless it is nested too deep for it. -/
theorem decode_bytes {batch : List Document} (h : ∀ d ∈ batch, d.source.Whole) :
    ∃ ls : List (List UInt8), bytes batch = ls.flatMap (· ++ [10]) ∧ ls.length = 2 * batch.length ∧
      (∀ l ∈ ls, 10 ∉ l) ∧
      (∀ i d, batch[i]? = some d → ∃ first second, ls[2 * i]? = some first ∧ ls[2 * i + 1]? = some second ∧
        value? first = some (.object [("index", .object (("_id", .string d.id) ::
          ("_index", .string d.index) :: (d.docType.map fun t => ("_type", Json.string t)).toList))]) ∧
        value? second = some d.source ∧
        (d.source.depth ≤ Json.maxDepth → Json.read (lineText second) = .ok d.source)) ∧
      decode? (bytes batch) = some batch := by
  have hlines : ∀ l ∈ (batch.flatMap lines).map line, 10 ∉ l := by
    intro l hl
    obtain ⟨v, hv, rfl⟩ := List.mem_map.1 hl
    exact lineFeed_notMem_line (whole_lines h v hv)
  refine ⟨(batch.flatMap lines).map line, bytes_eq batch, ?_, hlines, ?_, ?_⟩
  · rw [List.length_map, length_lines]
  · intro i d hd
    have hsource := h d (List.mem_of_getElem? hd)
    obtain ⟨hfirst, hsecond⟩ := getElem?_lines hd
    refine ⟨line (action d), line d.source, ?_, ?_, value?_line (whole_action d), value?_line hsource, ?_⟩
    · rw [List.getElem?_map, hfirst]
      rfl
    · rw [List.getElem?_map, hsecond]
      rfl
    · intro hdepth
      rw [lineText_line]
      exact Json.read_compact hsource hdepth
  · rw [decode?, bytes_eq, framed?_flatMap hlines]
    exact documents?_lines h

/-- A document with line ends, quotes and control characters in all its texts, and one of another index. -/
def unruly : List Document :=
  [⟨"a\n\"b\"\\", "in\rdex\u0001", some "ty\tpe\u2028",
      .object [("\n", .array [.int (-9223372036854775808), .string "☃\n\x7b", .object []]), ("k\u007f", .null)]⟩,
    ⟨"", "", none, .string "\n"⟩]

theorem decode_bytes_unruly : (∀ d ∈ unruly, d.source.Whole) ∧ decode? (bytes unruly) = some unruly ∧
    ∃ ls : List (List UInt8), bytes unruly = ls.flatMap (· ++ [10]) ∧ ls.length = 4 := by
  have hwhole : ∀ d ∈ unruly, d.source.Whole := by
    intro d hd
    simp only [unruly, List.mem_cons, List.not_mem_nil, or_false] at hd
    rcases hd with rfl | rfl
    · have hranked : List.Pairwise (· < ·) ["\n", "k\u007f"] := by decide
      refine ⟨hranked, ?_⟩
      simp [Json.Whole, Json.WholeItems, Json.WholeMembers, Json.Ranked, Json.InWords, Json.maxWhole]
    · trivial
  obtain ⟨ls, hbytes, hlength, -, -, hdecode⟩ := decode_bytes hwhole
  exact ⟨hwhole, hdecode, ls, hbytes, hlength⟩

end Harvesting.Bulk
