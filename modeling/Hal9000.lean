import Hal9000.Lib.Transition
import Hal9000.CommonLib.Base
import Hal9000.CommonLib.Bitmap
import Hal9000.Vm.ReservationSpace
import Hal9000.Vm.Overlap
import Hal9000.Vm.BufferValid
import Hal9000.Lib.WaitQueue
import Hal9000.Kernel.Sync
import Hal9000.Kernel.Waiting
import Hal9000.Kernel.Termination
import Hal9000.Kernel.Mutex
import Hal9000.Kernel.Event
import Hal9000.Kernel.Exclusivity
import Hal9000.Kernel.Release
import Hal9000.CommonLib.LinkedList
import Hal9000.CommonLib.Heap
import Hal9000.CommonLib.HeapBlocks
import Hal9000.CommonLib.HeapInvariant
import Hal9000.CommonLib.HeapSearch
import Hal9000.CommonLib.HeapRuns
import Hal9000.CommonLib.HeapCursor
import Hal9000.CommonLib.RwSpinlock
import Hal9000.CommonLib.RefCount
import Hal9000.Kernel.Ipc
import Hal9000.CommonLib.RecRwSpinlock
import Hal9000.Lib.Wakeup
import Hal9000.Vm.ZeroWorker
import Hal9000.Lib.Window
import Hal9000.Net.ReceiveRing
import Hal9000.Net.Transmit
import Hal9000.Lib.HandoffLock
import Hal9000.Net.Requests
import Hal9000.Net.TransmitRing
import Hal9000.Kernel.IoApic
import Hal9000.Kernel.Smp
import Hal9000.Lib.Reading
import Hal9000.Pe.Parser
import Hal9000.Pe.Bounds
import Hal9000.Storage.AtaDevice
import Hal9000.Storage.Stack
import Hal9000.Storage.Isolation
import Hal9000.Pmm.MemoryMap
import Hal9000.Pmm.FreeFrames
import Hal9000.Vm.SlotArray
import Hal9000.CommonLib.HashTable
import Hal9000.Lib.Buckets
import Hal9000.CommonLib.HashTableBuckets
import Hal9000.CommonLib.HashTableMap
import Hal9000.Fat32.Volume
import Hal9000.Fat32.Table
import Hal9000.Fat32.Entries
import Hal9000.Fat32.FreeCluster
import Hal9000.Fat32.Reserve
import Hal9000.Fat32.Reservation
import Hal9000.Fat32.Chain
import Hal9000.Fat32.DirEntry
import Hal9000.Fat32.ReadWrite
import Hal9000.Fat32.Reading
import Hal9000.Fat32.ReadFile
import Hal9000.Fat32.Extend
import Hal9000.Fat32.Writing
import Hal9000.Fat32.WriteFile
import Hal9000.Fat32.WriteBack
import Hal9000.Fat32.LongName
import Hal9000.Fat32.Mounting
import Hal9000.Storage.PrdTable
import Hal9000.Vm.Decommit
import Hal9000.Lib.Extents
import Hal9000.Mmu.PagingTables
import Hal9000.Mmu.Mdl
import Hal9000.Mmu.Mapping
import Hal9000.Mmu.UserAlias
import Hal9000.Mmu.PageFault
import Hal9000.CommonLib.Links
import Hal9000.Kernel.ThreadCreate
import Hal9000.Lib.Walk
import Hal9000.Storage.Partitions
import Hal9000.CommonLib.MemoryCopy
import Hal9000.CommonLib.Strings
import Hal9000.CommonLib.StringTrim
import Hal9000.CommonLib.StringCompare
import Hal9000.CommonLib.Numerals
import Hal9000.CommonLib.Tokens
import Hal9000.CommonLib.BitmapRuns
import Hal9000.Kernel.SystemTime
import Hal9000.CommonLib.Formatting
import Hal9000.CommonLib.FormattingPieces
import Hal9000.CommonLib.FormattingExact
import Hal9000.Kernel.Log
import Hal9000.Kernel.Interrupts
import Hal9000.Kernel.Registration
import Hal9000.Pci.Device
import Hal9000.Pci.Capabilities
import Hal9000.Pci.Matching
import Hal9000.Lib.Cursor
import Hal9000.Pci.Enumeration
import Hal9000.Lib.Subword
import Hal9000.Pci.ConfigurationSpace
import Hal9000.Acpi.Tables
import Hal9000.CommonLib.HashTableIterator
import Hal9000.Kernel.Keyboard
import Hal9000.Kernel.Display
import Hal9000.Kernel.CommandLine
import Hal9000.Eth.DeviceStatus
import Hal9000.CommonLib.ListOperations
import Hal9000.Lib.Ownership
import Hal9000.Net.Configuration
import Hal9000.Net.Cleanup
import Hal9000.Net.Registration
import Hal9000.Lib.TextLine
import Hal9000.Kernel.LineEditor
import Hal9000.Kernel.LineEditing
import Hal9000.CommonLib.HashTableRuns
import Hal9000.CommonLib.Spinlock
import Hal9000.Fat32.FileObjects
import Hal9000.Fat32.FileSessions
