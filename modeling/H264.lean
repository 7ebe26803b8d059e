import H264.Analyzer
import H264.Proofs.Bits.Reads
import H264.DecoderConfig
import H264.ErrorClass
import H264.Sei.BufferingPeriod
import H264.Sei.PicTiming
import H264.Sei.UserData
import H264.Proofs.Framing.Occurrences
import H264.Proofs.Framing.Chunks
import H264.Proofs.Faults.Checked
import H264.Proofs.Rbsp.EmulationFree
import H264.Proofs.Faults.Sequence
import H264.Proofs.Faults.Picture
import H264.Proofs.Faults.Units
import H264.Proofs.Faults.Slice
import H264.Proofs.Faults.Overwide
import H264.Proofs.Analysis.Decoded
import H264.Proofs.Analysis.Run
import H264.Proofs.Rbsp.EndingZeros
import H264.Proofs.Framing.CodedUnits
import H264.Proofs.Analysis.Issues
import H264.Proofs.Bits.Written
import H264.Proofs.Bits.ReadBack
import H264.Proofs.Bits.Accepted
import H264.Proofs.Bits.Ends
import H264.Proofs.Bits.Closed
import H264.Proofs.Bits.Aligned
import H264.Proofs.Bits.Mirrored
import H264.Proofs.Bits.Cursor
import H264.Proofs.Bits.Codes
import H264.Proofs.Bits.LastOne
import H264.Proofs.Sps.Vui
import H264.Proofs.Scaling.Sent
import H264.Proofs.Sps.Sequence
import H264.Proofs.Pps.Picture
import H264.Proofs.Slice.Lists
import H264.Proofs.Slice.Header
import H264.Proofs.Slice.Decoded
import H264.Proofs.Sei.Messages
import H264.Proofs.Sei.PicTiming
import H264.Proofs.Framing.Streams
import H264.Proofs.Framing.Interests
import H264.Proofs.Framing.Discarded
import H264.Proofs.Framing.Protocol
import H264.Proofs.Framing.Samples
import H264.Proofs.Config.Ranges
import H264.Proofs.Config.ParamSets
import H264.Proofs.Analysis.Calls
import H264.Proofs.Analysis.Placement
import H264.Proofs.Analysis.InputPaths
import H264.Proofs.Analysis.StoredSets
import H264.Proofs.Analysis.Conservation
import H264.Proofs.Analysis.BrokenSamples
import H264.Proofs.Analysis.Offsets
import H264.Proofs.SubsetSps.Subset
import H264.Proofs.Framing.SampleBreaks
import H264.Proofs.Framing.Tiles
import H264.Proofs.Pps.Reference
import H264.Proofs.Analysis.Dependence
import H264.Proofs.Analysis.Orders
import H264.Proofs.Rbsp.Scan
import H264.Proofs.Slice.Dependence
import H264.Proofs.Sps.Guarantees
import H264.Proofs.Slice.RefCounts
import H264.Proofs.Slice.ChangeCycle
import H264.Proofs.Pps.Matrices
import H264.Proofs.PrefixUnits.Marking
import H264.Proofs.SubsetSps.Reserved
