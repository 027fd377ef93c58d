import Macify.Image.CommandPasses
import Macify.Image.FatSlices
import Macify.Image.PointerSections
import Macify.Image.Protections
import Macify.Syscall.CodeSections
import Macify.Syscall.CrashHandler
import Macify.Syscall.FastSlow
import Macify.Syscall.SharedLoads
import Macify.Dylib.Initializers
import Macify.Dylib.Landing
import Macify.Dylib.Ordinals
import Macify.Dylib.TextRanges
import Macify.Fixups.BindAgreement
import Macify.Fixups.ChainAgreement
import Macify.Fixups.ChainBounds
import Macify.Fixups.CountedBinds
import Macify.Fixups.ImportFormats
import Macify.Fixups.Rebases
import Macify.Paths.Containment
import Macify.Paths.CopyFile
import Macify.Signals.GoDelivery
import Macify.Signals.RawActions
import Macify.Signals.SaveRestore
import Macify.Signals.SetRoundTrip
import Macify.Shim.AddressRoundTrips
import Macify.Shim.AttributeBuffers
import Macify.Shim.CFObjects
import Macify.Shim.ErrorNumbers
import Macify.Shim.Globbing
import Macify.Shim.HostLookup
import Macify.Shim.LinkTargets
import Macify.Shim.ProcessList
import Macify.Shim.ReadPointer
import Macify.Shim.StackGuard
import Macify.Shim.StringBytes
import Macify.Shim.Terminals
import Macify.Shim.ThreadLocals
import Macify.Shim.Transparency
import Macify.Threads.Attributes
import Macify.Threads.Creation
import Macify.Threads.DispatchOnce
import Macify.Threads.Exclusion
import Macify.Threads.LazyTables
import Macify.Threads.LookupRaces
import Macify.Threads.Once
import Macify.Threads.PopenTable
import Macify.Threads.StaticLocks
import Macify.Exec.Options
import Macify.Exec.ParentDirectories
import Macify.Exec.Pipes
import Macify.Exec.Spawn
import Macify.Entry.GetcDecoding
import Macify.Entry.Stack
import Macify.Fixups.Assembly
import Macify.Threads.Keys
import Macify.Shim.BsdStrings
