import PrinterSdk.Data.Decimals
import PrinterSdk.Data.Machine
import PrinterSdk.Data.Outcome
import PrinterSdk.Render.Raster

/-!
# Export to PDF

Pages of packed rasters become a PDF file: a catalog, the list of the pages, and for every
page an object of its own, its image and its content.  The objects are numbered as they are
written, and a table at the end says where each one starts.
-/

namespace PrinterSdk.Export

open PrinterSdk.Data PrinterSdk.Render

/-- `ExportError`, as far as packed pages return it. -/
inductive ExportError where
  | raster (error : RasterError)
  | emptyPdf
  | invalidPdfMedia
  | outputTooLarge (limit : Nat)
  deriving DecidableEq, Repr

/-! ## Packed pages -/

/-- `PackedMonoRaster`. -/
structure PackedMonoRaster where
  width : UInt32
  height : UInt32
  stride : UInt32
  bytes : Bytes
  deriving DecidableEq, Repr

/-- `PackedMonoRaster::validate`. -/
def PackedMonoRaster.validate (raster : PackedMonoRaster) : Except RasterError Unit := do
  let _ ← checkedPixelLen raster.width raster.height usizeMax
  let padded ← okOr (checkedAddU32 raster.width 7) .dimensions
  let expected ← okOr (checkedMul (padded / 8).toNat raster.height.toNat) .dimensions
  if raster.stride = padded / 8 ∧ raster.bytes.length = expected then
    return ()
  else
    .error .length

/-- `PackedPdfPage`. -/
structure PackedPdfPage where
  raster : PackedMonoRaster
  widthUm : Int64
  heightUm : Int64
  deriving DecidableEq, Repr

/-! ## The file -/

/-- `bounded_extend`. -/
def boundedExtend (output bytes : Bytes) (limit : Nat) : Except ExportError Bytes := do
  let next ← okOr (checkedAdd output.length bytes.length) (.outputTooLarge limit)
  refuseIf (next > limit) (.outputTooLarge limit)
  return output ++ bytes

/-- The line in front of an object. -/
def objectHead (number : Nat) : Bytes := decimalText number ++ asBytes " 0 obj\n"

/-- The line behind an object. -/
def objectTail : Bytes := asBytes "\nendobj\n"

/-- The loop over the objects, from an index; the offsets are those of the objects before. -/
def writeObjects (limit : Nat) :
    Nat → List Bytes → Bytes → List Nat → Except ExportError (Bytes × List Nat)
  | _, [], out, offsets => return (out, offsets)
  | index, object :: rest, out, offsets => do
      let start := out.length
      let out ← boundedExtend out (objectHead (index + 1)) limit
      let out ← boundedExtend out object limit
      let out ← boundedExtend out objectTail limit
      writeObjects limit (index + 1) rest out (offsets ++ [start])

/-- What the table starts with: its section and the entry that is free. -/
def tableHead (size : Nat) : Bytes :=
  asBytes "xref\n0 " ++ decimalText size ++ asBytes "\n0000000000 65535 f \n"

/-- The entry of an offset in the table. -/
def entryText (offset : Nat) : Bytes := paddedText 10 offset ++ asBytes " 00000 n \n"

/-- The trailer. -/
def trailerText (size xref : Nat) : Bytes :=
  asBytes "trailer\n<< /Size " ++ decimalText size ++ asBytes " /Root 1 0 R >>\nstartxref\n" ++
    decimalText xref ++ asBytes "\n%%EOF\n"

/-- What a file starts with. -/
def fileHead : Bytes := asBytes "%PDF-1.4\n%" ++ [0xe2, 0xe3, 0xcf, 0xd3] ++ asBytes "\n"

/-- `finish_pdf`. -/
def finishPdf (objects : List Bytes) (limit : Nat) : Except ExportError Bytes := do
  let (out, offsets) ← writeObjects limit 0 objects fileHead [0]
  let xref := out.length
  let out ← boundedExtend out (tableHead (objects.length + 1)) limit
  let out ← (offsets.drop 1).foldlM
    (fun out offset => boundedExtend out (entryText offset) limit) out
  boundedExtend out (trailerText (objects.length + 1) xref) limit

/-! ## The objects -/

/-- `stream`. -/
def stream (dict data : Bytes) : Bytes :=
  asBytes "<< " ++ dict ++ asBytes " /Length " ++ decimalText data.length ++
    asBytes " >>\nstream\n" ++ data ++ asBytes "\nendstream"

/-- A reference to an object. -/
def reference (number : Nat) : Bytes := decimalText number ++ asBytes " 0 R"

/-- The catalog. -/
def catalogObject : Bytes := asBytes "<< /Type /Catalog /Pages 2 0 R >>"

/-- The list of the pages. -/
def pagesObject (kids : List Nat) (count : Nat) : Bytes :=
  asBytes "<< /Type /Pages /Kids [" ++ (asBytes " ").intercalate (kids.map reference) ++
    asBytes "] /Count " ++ decimalText count ++ asBytes " >>"

section

-- How a length in micrometres is printed in points, with six decimals.
variable (points : Int64 → Bytes)

/-- The content of a page. -/
def contentText (page : PackedPdfPage) : Bytes :=
  asBytes "q\n" ++ points page.widthUm ++ asBytes " 0 0 " ++ points page.heightUm ++
    asBytes " 0 0 cm\n/Im0 Do\nQ\n"

/-- The object of a page. -/
def pageObject (page : PackedPdfPage) (imageId contentId : Nat) : Bytes :=
  asBytes "<< /Type /Page /Parent 2 0 R /MediaBox [0 0 " ++ points page.widthUm ++
    asBytes " " ++ points page.heightUm ++ asBytes "] /Resources << /XObject << /Im0 " ++
    reference imageId ++ asBytes " >> >> /Contents " ++ reference contentId ++ asBytes " >>"

/-- The dictionary of an image. -/
def imageDict (page : PackedPdfPage) : Bytes :=
  asBytes "/Type /XObject /Subtype /Image /Width " ++ decimalText page.raster.width.toNat ++
    asBytes " /Height " ++ decimalText page.raster.height.toNat ++
    asBytes " /ColorSpace /DeviceGray /BitsPerComponent 1 /Decode [1 0]"

/-- The object of an image. -/
def imageObject (page : PackedPdfPage) : Bytes := stream (imageDict page) page.raster.bytes

/-- The object of a content. -/
def contentObject (page : PackedPdfPage) : Bytes := stream [] (contentText points page)

/-- The objects of a page, which the loop over the pages pushes. -/
def pageObjects (index : Nat) (page : PackedPdfPage) : List Bytes :=
  [pageObject points page (4 + index * 3) (5 + index * 3), imageObject page,
    contentObject points page]

/-- All the objects of a file. -/
def pdfObjects (pages : List PackedPdfPage) : List Bytes :=
  [catalogObject,
      pagesObject ((List.range pages.length).map fun index => 3 + index * 3) pages.length] ++
    (pages.mapIdx (pageObjects points)).flatten

/-- The estimate of the output, behind another page. -/
def addEstimate (limit estimated : Nat) (page : PackedPdfPage) : Except ExportError Nat := do
  page.raster.validate.mapError .raster
  refuseIf (page.widthUm ≤ 0 ∨ page.heightUm ≤ 0) .invalidPdfMedia
  okOr ((checkedAdd estimated page.raster.bytes.length).bind (checkedAdd · 2048))
    (.outputTooLarge limit)

/-- `pdf_packed_pages_physical`. -/
def pdfPackedPagesPhysical (pages : List PackedPdfPage) (maxOutputBytes : Nat) :
    Except ExportError Bytes := do
  refuseIf (pages = []) .emptyPdf
  let estimated ← pages.foldlM (addEstimate maxOutputBytes) 4096
  refuseIf (estimated > maxOutputBytes) (.outputTooLarge maxOutputBytes)
  finishPdf (pdfObjects points pages) maxOutputBytes

end

end PrinterSdk.Export
