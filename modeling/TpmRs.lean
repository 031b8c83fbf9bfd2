import TpmRs.Library.Fallible
import TpmRs.Library.Runs
import TpmRs.Library.Service
import TpmRs.Library.Relational
import TpmRs.Library.Collect
import TpmRs.Library.BigEndian
import TpmRs.Library.LittleEndian
import TpmRs.Library.ByteStream
import TpmRs.Library.BitField
import TpmRs.Library.Slice
import TpmRs.Library.ChunkWriter
import TpmRs.Library.Decoder
import TpmRs.Library.ReprC
import TpmRs.Library.Room
import TpmRs.Errors.ReturnCodes
import TpmRs.Errors.Format1
import TpmRs.Marshalable.Primitive
import TpmRs.Marshalable.Tpm2b
import TpmRs.Marshalable.Derive
import TpmRs.Marshalable.Encoding
import TpmRs.Marshalable.Layout
import TpmRs.Marshalable.Exact
import TpmRs.Marshalable.ShortBuffer
import TpmRs.Marshalable.LengthBound
import TpmRs.Marshalable.SelectorApart
import TpmRs.Marshalable.Tpm2bStruct
import TpmRs.MarshalableDerive.Syntax
import TpmRs.MarshalableDerive.Expand
import TpmRs.MarshalableDerive.Diagnostics
import TpmRs.MarshalableDerive.Semantics
import TpmRs.MarshalableDerive.Structs
import TpmRs.MarshalableDerive.Tuples
import TpmRs.MarshalableDerive.Enums
import TpmRs.MarshalableDerive.Tpm2b
import TpmRs.Base.Schemes
import TpmRs.Base.Tpml
import TpmRs.Base.Structures
import TpmRs.Base.Attributes
import TpmRs.Base.Algorithms
import TpmRs.Base.Handles
import TpmRs.Base.Lists
import TpmRs.Base.LengthFields
import TpmRs.Base.Public
import TpmRs.Base.Attest
import TpmRs.Base.Holders
import TpmRs.Base.Commands
import TpmRs.Base.CommandSet
import TpmRs.MarshalableDerive.Macro
import TpmRs.UnionifyDerive.UnionSize
import TpmRs.Client.Sessions
import TpmRs.Client.RunCommand
import TpmRs.Client.Framing
import TpmRs.Client.Acceptance
import TpmRs.Client.ResponseFraming
import TpmRs.Client.Safety
import TpmRs.Client.Calls
import TpmRs.Client.BaseCalls
import TpmRs.Client.Services
import TpmRs.Client.Unambiguous
import TpmRs.Client.StaleBytes
import TpmRs.Server.Platform
import TpmRs.Server.TpmCtx
import TpmRs.Server.Draw
import TpmRs.Server.DrbgHelpers
import TpmRs.Server.DrbgCalls
import TpmRs.Server.DrbgWords
import TpmRs.Server.Cursor
import TpmRs.Server.Decision
import TpmRs.Server.Execution
import TpmRs.Server.Agreement
import TpmRs.Server.Header
import TpmRs.Server.Runs
import TpmRs.Server.Failures
import TpmRs.Server.RandomSource
import TpmRs.Server.LifeCycle
import TpmRs.Server.Strictness
import TpmRs.EndToEnd.GetRandom
import TpmRs.EndToEnd.Failures
import TpmRs.EndToEnd.Programs
