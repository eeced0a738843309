import Cpipe.Library.Checked
import Cpipe.Library.Kahn
import Cpipe.Library.Subdivision
import Cpipe.Library.FirstFit
import Cpipe.Library.Dataflow
import Cpipe.Library.Bytes
import Cpipe.Library.Ieee
import Cpipe.Library.PosixPath
import Cpipe.Library.RateLimit
import Cpipe.Library.Trace
import Cpipe.Library.Ledger
import Cpipe.Library.Holders
import Cpipe.Library.Binary64
import Cpipe.Library.Binary64Bounds
import Cpipe.Library.Binary64Nan
import Cpipe.Library.Raster
import Cpipe.Library.Requests
import Cpipe.Library.Slices
import Cpipe.Library.Stencil
import Cpipe.Library.Means
import Cpipe.Library.Strided
import Cpipe.Core.Layout
import Cpipe.Core.Manifest
import Cpipe.Core.JsonText
import Cpipe.Nodes.Manifests
import Cpipe.Ingest.DngReader
import Cpipe.Ingest.OpcodeListParser
import Cpipe.Ingest.OpcodeList2
import Cpipe.Ingest.OpcodeList3
import Cpipe.Nodes.DngOpcodeList3
import Cpipe.Nodes.ShadingGainmap
import Cpipe.Nodes.BlacklevelDngLevels
import Cpipe.Nodes.Float16
import Cpipe.Nodes.DngOpcodeList3Dispatch
import Cpipe.Nodes.WarpCoordinates
import Cpipe.Server.EditorProtocol
import Cpipe.Server.EditorAssets
import Cpipe.Server.ParamDebounce
import Cpipe.Server.DebounceTimer
import Cpipe.Server.StartStop
import Cpipe.Web.Frames
import Cpipe.Runtime.HalideBufferAdapter
import Cpipe.Runtime.HalidePlane
import Cpipe.Runtime.MemoryPlanner
import Cpipe.Runtime.PrecisionPlanner
import Cpipe.Runtime.Document
import Cpipe.Runtime.Load
import Cpipe.Runtime.Scheduler
import Cpipe.Runtime.Run
import Cpipe.Runtime.Calls
import Cpipe.Cli.Run
import Cpipe.Color.OcioVulkanProcessor
import Cpipe.Proofs.VulkanHandles
import Cpipe.Proofs.VulkanLifetimes
import Cpipe.Runtime.VulkanDevicePlane
import Cpipe.Proofs.VulkanDevicePlane
import Cpipe.Proofs.VulkanPlaneRuns
import Cpipe.Proofs.VulkanImage
import Cpipe.Proofs.ImageCells
import Cpipe.Proofs.MemoryPlanner
import Cpipe.Proofs.SlotCount
import Cpipe.Proofs.PrecisionPlanner
import Cpipe.Proofs.Conversions
import Cpipe.Proofs.Load
import Cpipe.Proofs.Scheduler
import Cpipe.Proofs.SchedulerCycles
import Cpipe.Proofs.Run
import Cpipe.Proofs.Lifecycle
import Cpipe.Proofs.RunPaths
import Cpipe.Proofs.Graph
import Cpipe.Proofs.MemoryCap
import Cpipe.Proofs.Sizes
import Cpipe.Proofs.Metadata
import Cpipe.Proofs.StepCheck
import Cpipe.Proofs.Wiring
import Cpipe.Proofs.Formats
import Cpipe.Proofs.OpcodeListParser
import Cpipe.Proofs.DngTags
import Cpipe.Proofs.DngReader
import Cpipe.Proofs.BlackLevel
import Cpipe.Proofs.OpcodeFrames
import Cpipe.Proofs.OpcodeList2
import Cpipe.Proofs.OpcodeList3
import Cpipe.Proofs.MandatoryOpcodes
import Cpipe.Ingest.Reservations
import Cpipe.Proofs.Reservations
import Cpipe.Proofs.HalideBufferAdapter
import Cpipe.Proofs.HalidePlane
import Cpipe.Proofs.OpcodeCorrections
import Cpipe.Proofs.BadPixels
import Cpipe.Proofs.OpcodeTables
import Cpipe.Proofs.OpcodeKernel
import Cpipe.Proofs.ShadingGainmap
import Cpipe.Proofs.GainmapArea
import Cpipe.Nodes.Demosaic
import Cpipe.Nodes.DemosaicQuadBayerRemosaic
import Cpipe.Proofs.Demosaic
import Cpipe.Proofs.DemosaicQuadBayerRemosaic
import Cpipe.Nodes.WbMetadata
import Cpipe.Proofs.WbMetadata
import Cpipe.Nodes.WhiteBalance
import Cpipe.Proofs.WhiteBalance
import Cpipe.Nodes.Lut3d
import Cpipe.Nodes.Kernels
import Cpipe.Proofs.Kernels
import Cpipe.Proofs.KernelChains
import Cpipe.Proofs.ToneCurves
import Cpipe.Proofs.WaveletShrink
import Cpipe.Proofs.ExposureFusion
import Cpipe.Proofs.Lut3d
import Cpipe.Proofs.EditorFrames
import Cpipe.Proofs.EditorAssets
import Cpipe.Proofs.ParamDebounce
import Cpipe.Proofs.DebounceTimer
import Cpipe.Proofs.StartStop
import Cpipe.Server.EditorServer
import Cpipe.Proofs.RunIds
import Cpipe.Proofs.Thumbnails
import Cpipe.Proofs.ThumbnailRate
import Cpipe.Proofs.EditorServer
import Cpipe.Server.EditorRequests
import Cpipe.Proofs.EditorRequests
import Cpipe.Web.RuntimeClient
import Cpipe.Proofs.EditorConnections
import Cpipe.Proofs.EditorRuns
import Cpipe.Web.ParameterForm
import Cpipe.Proofs.ParameterForm
import Cpipe.Web.PipelineStore
import Cpipe.Proofs.Fields
import Cpipe.Proofs.ParamSync
import Cpipe.Schemas.Pipeline
import Cpipe.Proofs.Schemas
import Cpipe.Tools.PythonJson
import Cpipe.Tools.V03ToV04
import Cpipe.Proofs.JsonText
import Cpipe.Proofs.Migration
import Cpipe.Core.BufferMetadata
import Cpipe.Runtime.HostContext
import Cpipe.Proofs.BlobStore
import Cpipe.Sdk.Sdk
import Cpipe.Proofs.Sdk
import Cpipe.Runtime.HalideExecutor
import Cpipe.Proofs.HalideExecutor
import Cpipe.Runtime.Executor
import Cpipe.Proofs.Executor
import Cpipe.Proofs.ExecutorWaits
import Cpipe.Proofs.ExecutorShares
import Cpipe.Proofs.Deadlock
import Cpipe.Runtime.ComputeContext
import Cpipe.Nodes.Process
import Cpipe.Runtime.BufferLocks
import Cpipe.Proofs.ProcessLocks
import Cpipe.Proofs.BufferLocks
import Cpipe.Proofs.SharedHandles
import Cpipe.Color.Cube3dLutLoader
import Cpipe.Color.HeifWriter
import Cpipe.Proofs.HeifWriter
import Cpipe.Color.IccV44Writer
import Cpipe.Proofs.IccV44Writer
import Cpipe.Proofs.HdrCodes
import Cpipe.Proofs.HalfFloats
import Cpipe.Proofs.LutFormats
import Cpipe.Proofs.WarpCoordinates
