import Dive.Memory.Retrieve
import Dive.Memory.Finalize
import Dive.Pm4.Depth
import Dive.Pm4.Capacity
import Dive.Pm4.Brackets
import Dive.Hierarchy.Creator
import Dive.Pm4.Order
import Dive.Pm4.Termination
import Dive.Lib.Source
import Dive.Rd.FileReader
import Dive.Rd.Load
import Dive.Rd.Reads
import Dive.Rd.Truncation
import Dive.Rd.Framing
import Dive.Gfxr.BlockData
import Dive.Gfxr.Edits
import Dive.Gfxr.Write
import Dive.Lib.Fallible
import Dive.Lib.Reader
import Dive.Network.Messages
import Dive.Network.Socket
import Dive.Network.RoundTrip
import Dive.Network.Client
import Dive.Network.Exchange
import Dive.Network.Server
import Dive.GpuTime.Slots
import Dive.GpuTime.Callbacks
import Dive.GpuTime.Ownership
import Dive.GpuTime.Pairing
import Dive.Pm4.Registers
import Dive.Hierarchy.EventInfo
import Dive.Hierarchy.Passes
import Dive.Gfxr.Annotation
import Dive.Gfxr.CaptureData
import Dive.Gfxr.DrawCounts
import Dive.Layer.Filter
import Dive.Layer.FrameTasks
import Dive.Dump.Consumer
import Dive.Dump.Entries
import Dive.Layer.Recording
import Dive.Capture.Load
import Dive.Capture.Format
import Dive.Capture.InStep
import Dive.Capture.Listing
import Dive.Capture.Intact
import Dive.Lib.Segments
import Dive.Perf.Metrics
import Dive.Perf.Frames
import Dive.Perf.Correlation
import Dive.GpuTime.Csv
import Dive.GpuTime.AvailableGpuTiming
import Dive.GpuTime.Pipeline
import Dive.Memory.Contiguous
import Dive.Pm4.Bounds
import Dive.Hierarchy.Shaders
import Dive.Hierarchy.Ranges
import Dive.Hierarchy.SubmitRanges
import Dive.Hierarchy.SubmitChildren
import Dive.Hierarchy.SharedParents
import Dive.Hierarchy.StateReads
import Dive.Hierarchy.RegisterIndices
import Dive.Memory.Ranges
import Dive.Lib.Preorder
import Dive.Hierarchy.Topology
import Dive.Hierarchy.PacketFields
import Dive.Hierarchy.Filters
import Dive.Hierarchy.FirstTile
import Dive.Rd.GpuId
import Dive.Rd.Heap
import Dive.Capture.History
import Dive.Lib.Packing
import Dive.Stl.Replacement
import Dive.Stl.Ownership
import Dive.Stl.Lists
import Dive.Stl.Refinement
import Dive.StructOfArrays.Generated
import Dive.StructOfArrays.Access
import Dive.StructOfArrays.Records
import Dive.Gfxr.Sizes
import Dive.Gfxr.Undo
import Dive.Gfxr.WriteFailures
import Dive.Network.Strict
import Dive.GpuTime.FrameBoundary
import Dive.Gfxr.Hierarchy
import Dive.Gfxr.Attribution
import Dive.Gfxr.Growth
import Dive.Gfxr.Scopes
import Dive.Gfxr.Attached
import Dive.Gfxr.UnderSubmits
import Dive.Gfxr.Shifted
import Dive.Gfxr.Mixed
import Dive.Pm4.DrawStates
import Dive.Hierarchy.DrawGroups
import Dive.Lib.Custody
import Dive.Replay.Consumer
import Dive.Replay.Balance
import Dive.Replay.Loop
import Dive.Lib.Window
import Dive.GpuTime.Window
import Dive.GpuTime.ValidFrames
import Dive.Adreno.Database
import Dive.Adreno.Header
import Dive.Adreno.Structures
import Dive.Hierarchy.EventReads
import Dive.Adreno.PacketSizes
import Dive.Hierarchy.ReadSizes
import Dive.Hierarchy.Locality
import Dive.Hierarchy.RegNodes
import Dive.Adreno.RegInfo
import Dive.Adreno.FieldValues
import Dive.Adreno.RegisterTables
import Dive.Adreno.TableEntries
import Dive.Adreno.RegisterNames
import Dive.Hierarchy.PacketNumbers
import Dive.Hierarchy.EventState
import Dive.Hierarchy.StateValues
import Dive.Perf.DrawIdentity
import Dive.Lib.Significand
import Dive.TraceStats.Gather
import Dive.TraceStats.Categories
import Dive.TraceStats.Order
import Dive.Lib.StringStream
import Dive.Perf.StringUtils
import Dive.Perf.CsvRoundTrip
import Dive.GpuTime.LooseRows
import Dive.GpuTime.Acceptance
import Dive.Layer.DrawLimit
import Dive.CaptureService.TraceManager
import Dive.CaptureService.TraceProtocol
import Dive.Lib.Holder
import Dive.Ui.Search
import Dive.Adreno.EnumHandles
import Dive.Gfxr.Arguments
import Dive.Ui.CaptureFileManager
import Dive.Ui.CaptureProtocol
import Dive.Ui.CommandBufferConsistent
import Dive.Pm4.Interpreter
import Dive.Gfxr.FrameLoop
import Dive.Gfxr.Reload
import Dive.Hierarchy.FilteredEvents
