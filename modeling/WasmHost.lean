import WasmHost.Bytes.Lemmas
import WasmHost.FileTree
import WasmHost.Launch
import WasmHost.Script
import WasmHost.Session
import WasmHost.Text.Lossy
import WasmHost.Proofs.Config
import WasmHost.Proofs.Execution
import WasmHost.Proofs.Path
import WasmHost.Proofs.Runners
import WasmHost.Proofs.ExitBoundary
import WasmHost.Proofs.Bindings
import WasmHost.Proofs.Conversion
import WasmHost.Proofs.Linking
import WasmHost.Proofs.LaunchExit
import WasmHost.Proofs.Accessors
import WasmHost.Proofs.Slices
import WasmHost.Proofs.StringTable
import WasmHost.Proofs.HostCalls
import WasmHost.Proofs.HandOver
import WasmHost.Proofs.TableWalk
import WasmHost.Proofs.Output
import WasmHost.Proofs.AddressSpace
import WasmHost.Proofs.Silence
import WasmHost.Proofs.Sending
import WasmHost.Proofs.CaptureLog
import WasmHost.Proofs.Patches
import WasmHost.Proofs.Demands
import WasmHost.Proofs.Footprint
import WasmHost.Proofs.ErrnoOrder
import WasmHost.Proofs.RunningSum
import WasmHost.Proofs.Loading
import WasmHost.Proofs.BuildOrder
import WasmHost.Proofs.Offers
import WasmHost.Proofs.Dispatch
import WasmHost.Proofs.ExitStatus
import WasmHost.Proofs.ChecksumHistory
import WasmHost.Proofs.DeferredReduction
import WasmHost.Proofs.ErrorDetection
import WasmHost.Proofs.Environment
import WasmHost.Proofs.DeclaredResults
import WasmHost.Proofs.MemoryAccess
import WasmHost.Proofs.TableHistory
import WasmHost.Proofs.SignatureText
import WasmHost.Proofs.Streaming
import WasmHost.Proofs.FuelBudget
import WasmHost.Proofs.Conduct
import WasmHost.Proofs.NormalForm
import WasmHost.Proofs.TypePositions
