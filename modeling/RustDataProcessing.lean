import RustDataProcessing.Lib.Binary64
import RustDataProcessing.Lib.RustStd
import RustDataProcessing.Lib.Display
import RustDataProcessing.Lib.CutOff
import RustDataProcessing.Lib.HighWater
import RustDataProcessing.Types
import RustDataProcessing.Json
import RustDataProcessing.Polars
import RustDataProcessing.Error
import RustDataProcessing.Lib.Traverse
import RustDataProcessing.Ingestion.PolarsBridge
import RustDataProcessing.Ingestion.SilentLoss
import RustDataProcessing.Ingestion.Csv
import RustDataProcessing.Ingestion.CsvAgreement
import RustDataProcessing.Ingestion.Excel
import RustDataProcessing.Ingestion.JsonReader
import RustDataProcessing.Ingestion.JsonColumns
import RustDataProcessing.Ingestion.JsonEngine
import RustDataProcessing.Ingestion.JsonAgreement
import RustDataProcessing.Ingestion.Options
import RustDataProcessing.Ingestion.Watermark
import RustDataProcessing.Ingestion.Unified
import RustDataProcessing.Ingestion.Observability
import RustDataProcessing.Ingestion.OrderedBatch
import RustDataProcessing.Ingestion.Checkpoint
import RustDataProcessing.Ingestion.XmlRecords
import RustDataProcessing.Ingestion.Records
import RustDataProcessing.Ingestion.ExcelSheets
import RustDataProcessing.Ingestion.RemoteAgreement
import RustDataProcessing.Execution.Refinement
import RustDataProcessing.Execution.Stuck
import RustDataProcessing.Execution.Accounting
import RustDataProcessing.Execution.SharedEngine
import RustDataProcessing.Kafka.Consumer
import RustDataProcessing.Kafka.Load
import RustDataProcessing.Ingestion.Xml
import RustDataProcessing.JvmSys.Sql
import RustDataProcessing.JvmSys.Sinks
import RustDataProcessing.JvmSys.Sources
import RustDataProcessing.JvmSys.OrderedPaths
import RustDataProcessing.Ingestion.Db
import RustDataProcessing.Lib.Reduction
import RustDataProcessing.Lib.Arithmetic64
import RustDataProcessing.Processing.Reduce
import RustDataProcessing.Lib.PartialSums
import RustDataProcessing.Processing.IntegerSum
import RustDataProcessing.Lib.TwoPass
import RustDataProcessing.Processing.Variance
import RustDataProcessing.Processing.Multi
import RustDataProcessing.Lib.Buckets
import RustDataProcessing.Processing.Frequency
import RustDataProcessing.Lib.Rounding
import RustDataProcessing.Lib.Midpoint
import RustDataProcessing.Lib.OrderStatistics
import RustDataProcessing.Lib.StableSort
import RustDataProcessing.Processing.Median
import RustDataProcessing.Redaction
import RustDataProcessing.Pipeline.Engine
import RustDataProcessing.Pipeline.Reduce
import RustDataProcessing.Lib.Lines
import RustDataProcessing.Lib.Widening
import RustDataProcessing.Kafka.Landing
import RustDataProcessing.Ingestion.IntegerCells
import RustDataProcessing.Ingestion.WatermarkReport
import RustDataProcessing.Ingestion.WatermarkLaws
import RustDataProcessing.Ingestion.XmlTruncation
import RustDataProcessing.Columnar
import RustDataProcessing.Export
import RustDataProcessing.Ingestion.JsonForms
import RustDataProcessing.Query
import RustDataProcessing.Validation
import RustDataProcessing.Profiling
import RustDataProcessing.Lib.Substitution
import RustDataProcessing.JsonTree
import RustDataProcessing.PipelineSpec.Placeholders
import RustDataProcessing.PipelineSpec.SchemaRefs
import RustDataProcessing.Ingestion.ExcelInference
import RustDataProcessing.Lib.Related
import RustDataProcessing.Lib.Columns
import RustDataProcessing.Ingestion.ColumnOrder
import RustDataProcessing.Kafka.SingleColumn
import RustDataProcessing.Lib.PercentEncoding
import RustDataProcessing.Ingestion.FileTransfer
import RustDataProcessing.Lib.UnixPath
import RustDataProcessing.Ingestion.Partition
import RustDataProcessing.Ingestion.TempFiles
import RustDataProcessing.Lib.Utf8
import RustDataProcessing.Reports
import RustDataProcessing.Privacy
import RustDataProcessing.Truncation
import RustDataProcessing.Lib.Effects
import RustDataProcessing.Pipeline.Collect
import RustDataProcessing.JvmSys.Run
import RustDataProcessing.JvmSys.RunEffects
import RustDataProcessing.JvmSys.Delivery
import RustDataProcessing.Lib.Observed
import RustDataProcessing.Execution.Events
import RustDataProcessing.Lib.Outcome
import RustDataProcessing.Pipeline.Steps
import RustDataProcessing.Transform.Apply
import RustDataProcessing.Transform.Plan
import RustDataProcessing.Transform.RowByRow
import RustDataProcessing.Transform.Hidden
import RustDataProcessing.Validation.Operators
import RustDataProcessing.Validation.Reference
import RustDataProcessing.Validation.Batches
