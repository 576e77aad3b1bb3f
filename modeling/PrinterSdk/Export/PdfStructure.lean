import PrinterSdk.Data.Delimited
import PrinterSdk.Data.Offsets
import PrinterSdk.Export.Pdf

/-!
# The structure of exported files

A file that is written within the limit is its objects one behind the other, a table and a
trailer.  The table leads to every object, the trailer to the table, and the references of a
page to the image and the content of that page.
-/

namespace PrinterSdk.Export

open PrinterSdk.Data PrinterSdk.Render

/-! ## What is written -/

theorem boundedExtend_eq_ok {output bytes result : Bytes} {limit : Nat}
    (extended : boundedExtend output bytes limit = .ok result) :
    result = output ++ bytes ∧ result.length ≤ limit := by
  obtain ⟨next, added, extended⟩ := (except_bind_eq_ok _ _ _).mp extended
  obtain ⟨_, bounded, same⟩ := (except_bind_eq_ok _ _ _).mp extended
  have sum := (checkedAdd_eq_some.mp ((okOr_eq_ok _ _ _).mp added)).2
  have fits := (refuseIf_eq_ok _ _ _).mp bounded
  have result_eq := (except_pure_eq_ok _ _).mp same
  refine ⟨result_eq.symm, ?_⟩
  rw [← result_eq, List.length_append]
  omega

/-- An object between its lines. -/
def objectText (number : Nat) (object : Bytes) : Bytes := objectHead number ++ object ++ objectTail

/-- The objects between their lines, from an index. -/
def objectTexts (index : Nat) (objects : List Bytes) : List Bytes :=
  objects.mapIdx fun behind object => objectText (index + behind + 1) object

theorem objectTexts_cons (index : Nat) (object : Bytes) (rest : List Bytes) :
    objectTexts index (object :: rest) =
      objectText (index + 1) object :: objectTexts (index + 1) rest := by
  unfold objectTexts
  rw [List.mapIdx_cons]
  congr 2
  funext behind other
  congr 1
  omega

theorem writeObjects_eq_ok {limit index : Nat} {objects : List Bytes} {out last : Bytes}
    {offsets all : List Nat}
    (written : writeObjects limit index objects out offsets = .ok (last, all)) :
    last = out ++ (objectTexts index objects).flatten ∧
      all = offsets ++ (List.range objects.length).map fun behind =>
        out.length + offsetOf (objectTexts index objects) behind := by
  induction objects generalizing index out offsets with
  | nil =>
      cases (except_pure_eq_ok _ _).mp written
      exact ⟨(List.append_nil _).symm, (List.append_nil _).symm⟩
  | cons object rest ih =>
      obtain ⟨first, opened, written⟩ := (except_bind_eq_ok _ _ _).mp written
      obtain ⟨second, filled, written⟩ := (except_bind_eq_ok _ _ _).mp written
      obtain ⟨third, closed, written⟩ := (except_bind_eq_ok _ _ _).mp written
      have whole : third = out ++ objectText (index + 1) object := by
        rw [(boundedExtend_eq_ok closed).1, (boundedExtend_eq_ok filled).1,
          (boundedExtend_eq_ok opened).1, objectText, List.append_assoc, List.append_assoc,
          List.append_assoc]
      obtain ⟨later, starts⟩ := ih written
      rw [objectTexts_cons]
      constructor
      · rw [later, whole, List.flatten_cons, List.append_assoc]
      · rw [starts, whole, List.append_assoc, List.length_cons, List.range_succ_eq_map,
          List.map_cons, List.map_map]
        have moved : ((fun behind => out.length +
            offsetOf (objectText (index + 1) object :: objectTexts (index + 1) rest) behind) ∘
              Nat.succ) = fun behind => (out ++ objectText (index + 1) object).length +
                offsetOf (objectTexts (index + 1) rest) behind := by
          funext behind
          rw [Function.comp_apply, offsetOf_succ, List.length_append, Nat.add_assoc]
        rw [moved]
        rfl

theorem writeEntries_eq_ok {limit : Nat} {offsets : List Nat} {out last : Bytes}
    (written : offsets.foldlM (fun out offset => boundedExtend out (entryText offset) limit) out =
      .ok last) : last = out ++ (offsets.map entryText).flatten := by
  induction offsets generalizing out with
  | nil =>
      rw [← (except_pure_eq_ok _ _).mp written]
      exact (List.append_nil _).symm
  | cons offset rest ih =>
      rw [List.foldlM_cons] at written
      obtain ⟨next, now, written⟩ := (except_bind_eq_ok _ _ _).mp written
      rw [ih written, (boundedExtend_eq_ok now).1, List.map_cons, List.flatten_cons,
        List.append_assoc]

/-- Where the objects start. -/
def starts (objects : List Bytes) : List Nat :=
  (List.range objects.length).map fun index =>
    fileHead.length + offsetOf (objectTexts 0 objects) index

/-- Where the table starts. -/
def tableStart (objects : List Bytes) : Nat :=
  fileHead.length + (objectTexts 0 objects).flatten.length

theorem finishPdf_eq_ok {objects : List Bytes} {limit : Nat} {out : Bytes}
    (finished : finishPdf objects limit = .ok out) :
    out = fileHead ++ (objectTexts 0 objects).flatten ++ tableHead (objects.length + 1) ++
        ((starts objects).map entryText).flatten ++
        trailerText (objects.length + 1) (tableStart objects) ∧ out.length ≤ limit := by
  obtain ⟨⟨body, offsets⟩, written, finished⟩ := (except_bind_eq_ok _ _ _).mp finished
  obtain ⟨opened, table, rest⟩ := (except_bind_eq_ok _ _ _).mp finished
  obtain ⟨filled, entries, closed⟩ := (except_bind_eq_ok _ _ _).mp rest
  have objects_eq := writeObjects_eq_ok written
  have trailer := boundedExtend_eq_ok closed
  have start : body.length = tableStart objects := by
    rw [objects_eq.1, List.length_append]
    rfl
  have skipped : offsets.drop 1 = starts objects := by
    rw [objects_eq.2]
    rfl
  refine ⟨?_, trailer.2⟩
  rw [trailer.1, writeEntries_eq_ok entries, (boundedExtend_eq_ok table).1, start, skipped,
    objects_eq.1]

/-! ## What fits -/

section

variable {limit : Nat} (machine : limit ≤ usizeMax)
include machine

theorem boundedExtend_of_fits {output bytes : Bytes} (fits : (output ++ bytes).length ≤ limit) :
    boundedExtend output bytes limit = .ok (output ++ bytes) := by
  rw [List.length_append] at fits
  have added : checkedAdd output.length bytes.length = some (output.length + bytes.length) :=
    checkedAdd_eq_some.mpr ⟨Nat.le_trans fits machine, rfl⟩
  apply (except_bind_eq_ok _ _ _).mpr
  refine ⟨_, (okOr_eq_ok _ _ _).mpr added, ?_⟩
  exact (except_bind_eq_ok _ _ _).mpr
    ⟨(), (refuseIf_eq_ok _ _ _).mpr (Nat.not_lt.mpr fits), rfl⟩

theorem writeObjects_of_fits {index : Nat} {objects : List Bytes} {out : Bytes}
    {offsets : List Nat} (fits : (out ++ (objectTexts index objects).flatten).length ≤ limit) :
    ∃ result, writeObjects limit index objects out offsets = .ok result := by
  induction objects generalizing index out offsets with
  | nil => exact ⟨_, rfl⟩
  | cons object rest ih =>
      rw [objectTexts_cons, List.flatten_cons, ← List.append_assoc] at fits
      have whole : out ++ objectText (index + 1) object =
          out ++ objectHead (index + 1) ++ object ++ objectTail := by
        rw [objectText, List.append_assoc, List.append_assoc, List.append_assoc]
      have closed : (out ++ objectHead (index + 1) ++ object ++ objectTail).length ≤ limit := by
        rw [← whole]
        exact Nat.le_trans (List.sublist_append_left _ _).length_le fits
      have filled : (out ++ objectHead (index + 1) ++ object).length ≤ limit :=
        Nat.le_trans (List.sublist_append_left _ _).length_le closed
      have opened : (out ++ objectHead (index + 1)).length ≤ limit :=
        Nat.le_trans (List.sublist_append_left _ _).length_le filled
      have rest_written : ∃ result, writeObjects limit (index + 1) rest
          (out ++ objectText (index + 1) object) (offsets ++ [out.length]) = .ok result := ih fits
      obtain ⟨result, later⟩ := rest_written
      refine ⟨result, (except_bind_eq_ok _ _ _).mpr
        ⟨_, boundedExtend_of_fits machine opened, ?_⟩⟩
      refine (except_bind_eq_ok _ _ _).mpr ⟨_, boundedExtend_of_fits machine filled, ?_⟩
      refine (except_bind_eq_ok _ _ _).mpr ⟨_, boundedExtend_of_fits machine closed, ?_⟩
      rw [← whole]
      exact later

theorem writeEntries_of_fits {offsets : List Nat} {out : Bytes}
    (fits : (out ++ (offsets.map entryText).flatten).length ≤ limit) :
    ∃ result, offsets.foldlM (fun out offset => boundedExtend out (entryText offset) limit) out =
      .ok result := by
  induction offsets generalizing out with
  | nil => exact ⟨_, rfl⟩
  | cons offset rest ih =>
      rw [List.map_cons, List.flatten_cons, ← List.append_assoc] at fits
      have first : (out ++ entryText offset).length ≤ limit :=
        Nat.le_trans (List.sublist_append_left _ _).length_le fits
      obtain ⟨result, later⟩ := ih fits
      rw [List.foldlM_cons]
      exact ⟨result, (except_bind_eq_ok _ _ _).mpr
        ⟨_, boundedExtend_of_fits machine first, later⟩⟩

/-- A file within the limit is written to its end. -/
theorem finishPdf_of_fits {objects : List Bytes}
    (fits : (fileHead ++ (objectTexts 0 objects).flatten ++ tableHead (objects.length + 1) ++
      ((starts objects).map entryText).flatten ++
      trailerText (objects.length + 1) (tableStart objects)).length ≤ limit) :
    ∃ out, finishPdf objects limit = .ok out := by
  have entered := Nat.le_trans (List.sublist_append_left _ _).length_le fits
  have opened := Nat.le_trans (List.sublist_append_left _ _).length_le entered
  have filled := Nat.le_trans (List.sublist_append_left _ _).length_le opened
  have objects_written : ∃ result, writeObjects limit 0 objects fileHead [0] = .ok result :=
    writeObjects_of_fits machine filled
  obtain ⟨⟨body, offsets⟩, written⟩ := objects_written
  obtain ⟨body_eq, offsets_eq⟩ := writeObjects_eq_ok written
  have start : body.length = tableStart objects := by
    rw [body_eq, List.length_append]
    rfl
  have skipped : offsets.drop 1 = starts objects := by
    rw [offsets_eq]
    rfl
  rw [← body_eq] at fits entered opened
  obtain ⟨table, entries⟩ := writeEntries_of_fits machine entered
  rw [writeEntries_eq_ok entries] at entries
  refine ⟨body ++ tableHead (objects.length + 1) ++ ((starts objects).map entryText).flatten ++
    trailerText (objects.length + 1) (tableStart objects), ?_⟩
  refine (except_bind_eq_ok _ _ _).mpr ⟨_, written, ?_⟩
  refine (except_bind_eq_ok _ _ _).mpr ⟨_, boundedExtend_of_fits machine opened, ?_⟩
  refine (except_bind_eq_ok _ _ _).mpr ⟨_, by rw [skipped]; exact entries, ?_⟩
  rw [start]
  exact boundedExtend_of_fits machine fits

end

/-! ## The table -/

/-- The line that opens the table. -/
def sectionHead (size : Nat) : Bytes := asBytes "xref\n0 " ++ decimalText size ++ asBytes "\n"

/-- The entry that is free. -/
def freeEntry : Bytes := asBytes "0000000000 65535 f \n"

/-- The octets of an entry of the table that starts at an offset. -/
def entryAt (out : Bytes) (xref size index : Nat) : Bytes :=
  (out.drop (xref + (sectionHead size).length + 20 * index)).take 20

/-- The file leads to its objects: the entry of every object is 20 octets that give where the
object starts, and the trailer gives where the table starts. -/
structure Indexed (objects : List Bytes) (out : Bytes) (xref : Nat) : Prop where
  opened : sectionHead (objects.length + 1) <+: out.drop xref
  free : entryAt out xref (objects.length + 1) 0 = freeEntry
  entries : ∀ index object, objects[index]? = some object → ∃ offset,
    entryAt out xref (objects.length + 1) (index + 1) = entryText offset ∧
      (entryText offset).length = 20 ∧ valueOf ((entryText offset).take 10) = offset ∧
      objectText (index + 1) object <+: out.drop offset
  closed : out.drop (xref + (sectionHead (objects.length + 1)).length +
    20 * (objects.length + 1)) = trailerText (objects.length + 1) xref

theorem entryText_exact {offset : Nat} (small : offset < 10 ^ 10) :
    (entryText offset).length = 20 ∧ valueOf ((entryText offset).take 10) = offset := by
  have wide := length_paddedText (by decide : 0 < 10) small
  constructor
  · rw [entryText, List.length_append, wide]
    rfl
  · rw [entryText, List.take_left' wide, valueOf_paddedText]

/-- The entries of the table, the free one first. -/
def entries (objects : List Bytes) : List Bytes := freeEntry :: (starts objects).map entryText

/-- What precedes the entries. -/
def beforeEntries (objects : List Bytes) : Bytes :=
  fileHead ++ (objectTexts 0 objects).flatten ++ sectionHead (objects.length + 1)

theorem length_beforeEntries (objects : List Bytes) :
    (beforeEntries objects).length =
      tableStart objects + (sectionHead (objects.length + 1)).length := by
  rw [beforeEntries, List.length_append, List.length_append, tableStart]

theorem file_eq (objects : List Bytes) :
    fileHead ++ (objectTexts 0 objects).flatten ++ tableHead (objects.length + 1) ++
        ((starts objects).map entryText).flatten ++
        trailerText (objects.length + 1) (tableStart objects) =
      beforeEntries objects ++ (entries objects).flatten ++
        trailerText (objects.length + 1) (tableStart objects) := by
  have lines : asBytes "\n0000000000 65535 f \n" = asBytes "\n" ++ freeEntry := by decide
  have head : tableHead (objects.length + 1) = sectionHead (objects.length + 1) ++ freeEntry := by
    rw [tableHead, sectionHead, lines, List.append_assoc, List.append_assoc, List.append_assoc]
  rw [head, beforeEntries, entries, List.flatten_cons]
  simp only [List.append_assoc]

theorem starts_le {objects : List Bytes} {start : Nat} (member : start ∈ starts objects) :
    start ≤ tableStart objects := by
  obtain ⟨index, _, same⟩ := List.mem_map.mp member
  rw [← same]
  exact Nat.add_le_add_left (offsetOf_le _ _) _

theorem length_entries (objects : List Bytes) :
    (entries objects).length = objects.length + 1 := by
  rw [entries, List.length_cons, List.length_map, starts, List.length_map, List.length_range]

/-- A file of fewer octets than the table can count is indexed. -/
theorem indexed_of_finishPdf {objects : List Bytes} {limit : Nat} {out : Bytes}
    (finished : finishPdf objects limit = .ok out) (counted : out.length < 10 ^ 10) :
    Indexed objects out (tableStart objects) := by
  have written := (finishPdf_eq_ok finished).1
  rw [file_eq] at written
  have before := length_beforeEntries objects
  have small : tableStart objects < 10 ^ 10 := by
    apply Nat.lt_of_le_of_lt _ counted
    rw [written, List.length_append, List.length_append, before]
    omega
  have uniform : ∀ entry ∈ entries objects, entry.length = 20 := by
    intro entry member
    rcases List.mem_cons.mp member with free | listed
    · rw [free]
      decide
    · obtain ⟨start, among, same⟩ := List.mem_map.mp listed
      rw [← same]
      exact (entryText_exact (Nat.lt_of_le_of_lt (starts_le among) small)).1
  have cut {index : Nat} {entry : Bytes} (located : (entries objects)[index]? = some entry) :
      entryAt out (tableStart objects) (objects.length + 1) index = entry := by
    rw [entryAt, ← before, written]
    exact record_of_width uniform located _ _
  constructor
  · have front : (fileHead ++ (objectTexts 0 objects).flatten).length = tableStart objects :=
      List.length_append
    rw [written, beforeEntries, List.append_assoc, List.append_assoc, List.drop_left' front]
    exact List.prefix_append _ _
  · exact cut rfl
  · intro index object located
    obtain ⟨inside, _⟩ := List.getElem?_eq_some_iff.mp located
    have listed : (starts objects)[index]? =
        some (fileHead.length + offsetOf (objectTexts 0 objects) index) := by
      rw [starts, List.getElem?_map, List.getElem?_range inside]
      rfl
    have fits := entryText_exact
      (Nat.lt_of_le_of_lt (starts_le (List.mem_of_getElem? listed)) small)
    have among : (objectTexts 0 objects)[index]? = some (objectText (index + 1) object) := by
      rw [objectTexts, List.getElem?_mapIdx, located, Option.map_some, Nat.zero_add]
    refine ⟨fileHead.length + offsetOf (objectTexts 0 objects) index, ?_, fits.1, fits.2, ?_⟩
    · apply cut
      rw [entries, List.getElem?_cons_succ, List.getElem?_map, listed]
      rfl
    · rw [written, beforeEntries, List.append_assoc _ (sectionHead _), List.append_assoc _ _
        (trailerText _ _)]
      exact record_at among _ _
  · have length : (beforeEntries objects ++ (entries objects).flatten).length =
        tableStart objects + (sectionHead (objects.length + 1)).length +
          20 * (objects.length + 1) := by
      rw [List.length_append, before, length_flatten_uniform uniform, length_entries]
    rw [written, List.drop_left' length]

/-! ## Streams -/

/-- The octets behind an expected text. -/
def expect (expected octets : Bytes) : Option Bytes :=
  if expected.isPrefixOf octets then some (octets.drop expected.length) else none

/-- Read the data of a stream: as many octets as its dictionary says, to the end of it. -/
def readStream (object : Bytes) : Option Bytes := do
  let (_, rest) ← splitAtPair 0x2f 0x4c object
  let rest ← expect (asBytes "ength ") rest
  let (length, rest) ← readNumber rest
  let rest ← expect (asBytes " >>\nstream\n") rest
  if rest.drop length = asBytes "\nendstream" then some (rest.take length) else none

theorem expect_append (expected rest : Bytes) : expect expected (expected ++ rest) = some rest := by
  rw [expect, if_pos (List.isPrefixOf_iff_prefix.mpr (List.prefix_append _ _)), List.drop_left]

/-- A text without `/L` in it or at its end. -/
def FreeOfLength (text : Bytes) : Prop :=
  splitAtPair 0x2f 0x4c text = none ∧ text.getLast? ≠ some 0x2f

instance (text : Bytes) : Decidable (FreeOfLength text) :=
  inferInstanceAs (Decidable (_ ∧ _))

theorem FreeOfLength.append {text more : Bytes} (first : FreeOfLength text)
    (second : FreeOfLength more) : FreeOfLength (text ++ more) := by
  constructor
  · rw [splitAtPair_append_of_none first.1 fun straddles => first.2 straddles.1, second.1]
    rfl
  · rw [List.getLast?_append]
    cases last : more.getLast? with
    | none => exact first.2
    | some octet => exact fun slash => second.2 (last.trans slash)

theorem freeOfLength_decimalText (number : Nat) : FreeOfLength (decimalText number) := by
  have free : (0x2f : UInt8) ∉ decimalText number := by
    intro member
    obtain ⟨character, inside, same⟩ := List.mem_map.mp member
    have digit := isDigitOctet_of_isDigit (toDigits_isDigit number character inside)
    rw [same] at digit
    exact absurd digit (by decide)
  exact ⟨splitAtPair_of_free free, fun last => free (List.mem_of_getLast? last)⟩

theorem freeOfLength_imageDict (page : PackedPdfPage) : FreeOfLength (imageDict page) := by
  have width := freeOfLength_decimalText page.raster.width.toNat
  have height := freeOfLength_decimalText page.raster.height.toNat
  have first : FreeOfLength (asBytes "/Type /XObject /Subtype /Image /Width ") := by decide
  have second : FreeOfLength (asBytes " /Height ") := by decide
  have third : FreeOfLength
      (asBytes " /ColorSpace /DeviceGray /BitsPerComponent 1 /Decode [1 0]") := by decide
  exact (((first.append width).append second).append height).append third

/-- The length of a stream is that of its data. -/
theorem readStream_stream {dict : Bytes} (free : FreeOfLength dict) (data : Bytes) :
    readStream (stream dict data) = some data := by
  have opened : FreeOfLength (asBytes "<< " ++ dict ++ asBytes " ") := by
    have front : FreeOfLength (asBytes "<< ") := by decide
    have back : FreeOfLength (asBytes " ") := by decide
    exact (front.append free).append back
  have marker : asBytes " /Length " = asBytes " " ++ 0x2f :: 0x4c :: asBytes "ength " := by decide
  have parts : stream dict data = (asBytes "<< " ++ dict ++ asBytes " ") ++ 0x2f :: 0x4c ::
      (asBytes "ength " ++ (decimalText data.length ++
        (asBytes " >>\nstream\n" ++ (data ++ asBytes "\nendstream")))) := by
    rw [stream, marker]
    simp only [List.append_assoc, List.cons_append]
  have found : splitAtPair 0x2f 0x4c (stream dict data) =
      some (asBytes "<< " ++ dict ++ asBytes " ",
        asBytes "ength " ++ (decimalText data.length ++
          (asBytes " >>\nstream\n" ++ (data ++ asBytes "\nendstream")))) := by
    rw [parts, splitAtPair_append_of_none opened.1 fun straddles => opened.2 straddles.1,
      splitAtPair, if_pos ⟨rfl, rfl⟩, Option.map_some, List.append_nil]
  have boundary : ∀ octet,
      (asBytes " >>\nstream\n" ++ (data ++ asBytes "\nendstream")).head? = some octet →
        isDigitOctet octet = false := by
    intro octet head
    have blank : asBytes " >>\nstream\n" = 0x20 :: asBytes ">>\nstream\n" := by decide
    rw [blank] at head
    cases head
    rfl
  rw [readStream, found]
  simp only [Option.bind_eq_bind, Option.bind_some, expect_append,
    readNumber_decimalText _ boundary, List.drop_left, List.take_left, ↓reduceIte]

/-! ## Pages -/

/-- The object of a number; the first one has number 1. -/
def numbered (objects : List Bytes) (number : Nat) : Option Bytes :=
  if number = 0 then none else objects[number - 1]?

/-- The objects of the pages refer to each other: the list of the pages to the object of every
page, and that one to its own image and content, whose lengths are those of their data. -/
structure Linked (points : Int64 → Bytes) (pages : List PackedPdfPage) (objects : List Bytes) :
    Prop where
  catalog : numbered objects 1 = some catalogObject
  kids : numbered objects 2 =
    some (pagesObject ((List.range pages.length).map fun index => 3 + index * 3) pages.length)
  referred : ∀ index page, pages[index]? = some page →
    numbered objects (3 + index * 3) =
        some (pageObject points page (4 + index * 3) (5 + index * 3)) ∧
      numbered objects (4 + index * 3) = some (imageObject page) ∧
      numbered objects (5 + index * 3) = some (contentObject points page)
  streams : ∀ page ∈ pages, readStream (imageObject page) = some page.raster.bytes ∧
    readStream (contentObject points page) = some (contentText points page)
  counted : objects.length = 2 + pages.length * 3

theorem length_pageObjects {points : Int64 → Bytes} {pages : List PackedPdfPage} :
    ∀ group ∈ pages.mapIdx (pageObjects points), group.length = 3 := by
  intro group member
  obtain ⟨index, inside, same⟩ := List.mem_mapIdx.mp member
  rw [← same]
  rfl

theorem linked_pdfObjects (points : Int64 → Bytes) (pages : List PackedPdfPage) :
    Linked points pages (pdfObjects points pages) where
  catalog := rfl
  kids := rfl
  referred := by
    intro index page located
    have among : (pages.mapIdx (pageObjects points))[index]? =
        some (pageObjects points index page) := by
      rw [List.getElem?_mapIdx, located]
      rfl
    have found := record_at among [catalogObject,
      pagesObject ((List.range pages.length).map fun index => 3 + index * 3) pages.length] []
    obtain ⟨inside, _⟩ := List.getElem?_eq_some_iff.mp among
    rw [offsetOf_uniform length_pageObjects (Nat.le_of_lt inside), List.append_nil] at found
    obtain ⟨rest, written⟩ := found
    have pushed (part : Nat) : (pdfObjects points pages)[2 + 3 * index + part]? =
        (pageObjects points index page ++ rest)[part]? := by
      rw [written, List.getElem?_drop]
      rfl
    have number (part : Nat) (first : 0 < part) :
        numbered (pdfObjects points pages) (2 + part + index * 3) =
          (pageObjects points index page ++ rest)[part - 1]? := by
      rw [← pushed, numbered, if_neg (by omega)]
      congr 1
      omega
    exact ⟨number 1 (by decide), number 2 (by decide), number 3 (by decide)⟩
  streams := by
    intro page _
    exact ⟨readStream_stream (freeOfLength_imageDict page) _, readStream_stream (by decide) _⟩
  counted := by
    rw [pdfObjects, List.length_append, length_flatten_uniform length_pageObjects,
      List.length_mapIdx, Nat.mul_comm]
    rfl

theorem finishPdf_of_pages {points : Int64 → Bytes} {pages : List PackedPdfPage} {limit : Nat}
    {out : Bytes} (exported : pdfPackedPagesPhysical points pages limit = .ok out) :
    finishPdf (pdfObjects points pages) limit = .ok out := by
  obtain ⟨_, _, exported⟩ := (except_bind_eq_ok _ _ _).mp exported
  obtain ⟨estimated, _, exported⟩ := (except_bind_eq_ok _ _ _).mp exported
  obtain ⟨_, _, finished⟩ := (except_bind_eq_ok _ _ _).mp exported
  exact finished

/-- A file that is returned is at most the limit and indexed, and the pages that are exported
are linked to their images and contents. -/
theorem finishPdf_structure :
    (∀ (objects : List Bytes) (limit : Nat) (out : Bytes), finishPdf objects limit = .ok out →
      out.length ≤ limit ∧ (out.length < 10 ^ 10 → ∃ xref, Indexed objects out xref)) ∧
    ∀ (points : Int64 → Bytes) (pages : List PackedPdfPage) (limit : Nat) (out : Bytes),
      pdfPackedPagesPhysical points pages limit = .ok out →
        ∃ objects, finishPdf objects limit = .ok out ∧ Linked points pages objects := by
  constructor
  · intro objects limit out finished
    exact ⟨(finishPdf_eq_ok finished).2, fun counted => ⟨_, indexed_of_finishPdf finished counted⟩⟩
  · intro points pages limit out exported
    exact ⟨_, finishPdf_of_pages exported, linked_pdfObjects points pages⟩

/-- Two pages of one black dot each. -/
def twoDots : List PackedPdfPage :=
  [⟨⟨1, 1, 1, [0x80]⟩, 25400, 25400⟩, ⟨⟨1, 1, 1, [0x80]⟩, 25400, 50800⟩]

theorem finishPdf_structure_twoDots :
    ∃ objects out xref, out.length ≤ 10000 ∧ Indexed objects out xref ∧
      Linked (fun _ => asBytes "72.000000") twoDots objects := by
  have fits : ∃ out, finishPdf (pdfObjects (fun _ => asBytes "72.000000") twoDots) 10000 = .ok out :=
    finishPdf_of_fits (by decide) (by decide +kernel)
  obtain ⟨out, finished⟩ := fits
  have exported : pdfPackedPagesPhysical (fun _ => asBytes "72.000000") twoDots 10000 = .ok out := by
    refine (except_bind_eq_ok _ _ _).mpr ⟨(), rfl, ?_⟩
    refine (except_bind_eq_ok _ _ _).mpr ⟨8194, by decide, ?_⟩
    exact (except_bind_eq_ok _ _ _).mpr ⟨(), rfl, finished⟩
  obtain ⟨objects, finished, linked⟩ := finishPdf_structure.2 _ _ _ _ exported
  obtain ⟨bounded, indexed⟩ := finishPdf_structure.1 _ _ _ finished
  obtain ⟨xref, indexed⟩ := indexed (Nat.lt_of_le_of_lt bounded (by decide))
  exact ⟨objects, out, xref, bounded, indexed, linked⟩

end PrinterSdk.Export
