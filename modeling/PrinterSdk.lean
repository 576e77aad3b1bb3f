import PrinterSdk.Administration.Change
import PrinterSdk.Administration.Revalidation
import PrinterSdk.Administration.Settability
import PrinterSdk.Administration.StaleValue
import PrinterSdk.Administration.SupportedValues
import PrinterSdk.Agent.Contract
import PrinterSdk.Agent.Execution
import PrinterSdk.Agent.Guarded
import PrinterSdk.Agent.Interleaving
import PrinterSdk.Brother.AccessPoints
import PrinterSdk.Brother.Report
import PrinterSdk.Brother.ReportLines
import PrinterSdk.Brother.ReportNoninterference
import PrinterSdk.Brother.ReportRedaction
import PrinterSdk.Brother.SsidCodec
import PrinterSdk.Brother.Wifi
import PrinterSdk.Brother.WifiReply
import PrinterSdk.Brother.WirelessCommand
import PrinterSdk.Brother.WirelessToken
import PrinterSdk.Browser.CreditQueue
import PrinterSdk.Browser.Notifications
import PrinterSdk.Browser.WebBluetooth
import PrinterSdk.Data.Bars
import PrinterSdk.Data.Bisection
import PrinterSdk.Data.Boxes
import PrinterSdk.Data.Bresenham
import PrinterSdk.Data.Chain
import PrinterSdk.Data.Characters
import PrinterSdk.Data.Decimals
import PrinterSdk.Data.Diffusion
import PrinterSdk.Data.Digest
import PrinterSdk.Data.Frames
import PrinterSdk.Data.Grid
import PrinterSdk.Data.InPlace
import PrinterSdk.Data.KeyedMerge
import PrinterSdk.Data.Loops
import PrinterSdk.Data.NearestAway
import PrinterSdk.Data.Offsets
import PrinterSdk.Data.OrderedMap
import PrinterSdk.Data.PackBits
import PrinterSdk.Data.Pairs
import PrinterSdk.Data.Postorder
import PrinterSdk.Data.QuotedFields
import PrinterSdk.Data.Records
import PrinterSdk.Data.Rounding
import PrinterSdk.Data.RowBits
import PrinterSdk.Data.Utf8
import PrinterSdk.Data.Utf8Lines
import PrinterSdk.Data.WordLayout
import PrinterSdk.Discovery.Normalize
import PrinterSdk.Discovery.NormalizedRedaction
import PrinterSdk.Discovery.Output
import PrinterSdk.Discovery.Redaction
import PrinterSdk.Discovery.Snapshot
import PrinterSdk.Executor.Agreement
import PrinterSdk.Executor.Honesty
import PrinterSdk.Executor.Retained
import PrinterSdk.Executor.Segmentation
import PrinterSdk.Executor.StatusQueries
import PrinterSdk.Executor.WriteStream
import PrinterSdk.Export.Packing
import PrinterSdk.Export.Pdf
import PrinterSdk.Export.PdfStructure
import PrinterSdk.Importer.Convert
import PrinterSdk.Importer.Flatten
import PrinterSdk.Importer.FlattenNodes
import PrinterSdk.Importer.Imported
import PrinterSdk.Importer.JsonObject
import PrinterSdk.Importer.Nodes
import PrinterSdk.Interaction.Concurrent
import PrinterSdk.Interaction.Machine
import PrinterSdk.Ipp.Decode
import PrinterSdk.Ipp.DecodeBounds
import PrinterSdk.Ipp.DecodeMessage
import PrinterSdk.Ipp.DecodeTotal
import PrinterSdk.Ipp.Encode
import PrinterSdk.Ipp.EncodeSpec
import PrinterSdk.Ipp.Injection
import PrinterSdk.Ipp.PrefixFree
import PrinterSdk.Ipp.Request
import PrinterSdk.Ipp.RoundTrip
import PrinterSdk.Ipp.Wire
import PrinterSdk.LaPoste.Extract
import PrinterSdk.LaPoste.Extraction
import PrinterSdk.LaPoste.Geometry
import PrinterSdk.Label.Batch
import PrinterSdk.Label.BatchElements
import PrinterSdk.Label.BatchPage
import PrinterSdk.Label.BatchValid
import PrinterSdk.Label.Document
import PrinterSdk.Label.Forest
import PrinterSdk.Label.Materialize
import PrinterSdk.Label.Template
import PrinterSdk.Label.TemplateDate
import PrinterSdk.Label.TemplateDecimal
import PrinterSdk.Label.TemplateDigits
import PrinterSdk.Label.TemplateExpansion
import PrinterSdk.Label.Valid
import PrinterSdk.Label.Validate
import PrinterSdk.Native.Ble
import PrinterSdk.Native.BleCredit
import PrinterSdk.Native.BrotherDeviceSettings
import PrinterSdk.Native.BrotherSession
import PrinterSdk.Native.BrotherSettings
import PrinterSdk.Native.DrainTermination
import PrinterSdk.Native.Guard
import PrinterSdk.Native.IppClient
import PrinterSdk.Native.SettingsDiscipline
import PrinterSdk.Native.SnmpWalk
import PrinterSdk.Native.SupplementalSnapshot
import PrinterSdk.Native.WirelessSplits
import PrinterSdk.Protocol.BrotherBatch
import PrinterSdk.Protocol.BrotherPage
import PrinterSdk.Protocol.BrotherRaster
import PrinterSdk.Protocol.Catalogue
import PrinterSdk.Protocol.PackBits
import PrinterSdk.Protocol.PackBitsLength
import PrinterSdk.Protocol.Planner
import PrinterSdk.Protocol.RasterHeader
import PrinterSdk.Protocol.TsplNumbers
import PrinterSdk.Render.Barcode
import PrinterSdk.Render.BatchIsolation
import PrinterSdk.Render.BatchOrder
import PrinterSdk.Render.BlitFrame
import PrinterSdk.Render.BoxFit
import PrinterSdk.Render.Canvas
import PrinterSdk.Render.Code39
import PrinterSdk.Render.Cropping
import PrinterSdk.Render.Dithering
import PrinterSdk.Render.Draw
import PrinterSdk.Render.Ean
import PrinterSdk.Render.EllipseExact
import PrinterSdk.Render.GroupPlacement
import PrinterSdk.Render.HeadPlacement
import PrinterSdk.Render.Ink
import PrinterSdk.Render.InkBounds
import PrinterSdk.Render.InkBoundsExact
import PrinterSdk.Render.Lettering
import PrinterSdk.Render.LineWalk
import PrinterSdk.Render.Measure
import PrinterSdk.Render.MeasureCovers
import PrinterSdk.Render.Pixels
import PrinterSdk.Render.Placement
import PrinterSdk.Render.PlacementExact
import PrinterSdk.Render.SquareRoot
import PrinterSdk.Render.Trigonometry
import PrinterSdk.Render.Turning
import PrinterSdk.Render.UnitConversion
import PrinterSdk.Render.WordWrap
import PrinterSdk.Sheet.Geometry
import PrinterSdk.Sheet.Layout
import PrinterSdk.Sheet.LayoutExact
import PrinterSdk.Sheet.Pages
import PrinterSdk.Sheet.PaperDots
import PrinterSdk.Sheet.Plan
import PrinterSdk.Sheet.PlanOrder
import PrinterSdk.Snmp.Ber
import PrinterSdk.Snmp.ObjectId
import PrinterSdk.Snmp.Registry
import PrinterSdk.Snmp.Request
import PrinterSdk.Snmp.RequestCodec
import PrinterSdk.Snmp.Response
import PrinterSdk.Snmp.Sanitize
import PrinterSdk.Importer.Descent
import PrinterSdk.Importer.LegacyIds
import PrinterSdk.Importer.Membership
import PrinterSdk.Data.HexText
import PrinterSdk.Importer.Carried
import PrinterSdk.Importer.Resources
import PrinterSdk.Agent.Probes
import PrinterSdk.Executor.Replay
