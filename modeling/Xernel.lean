import Xernel.Lib.Run
import Xernel.Lib.Pool
import Xernel.Lib.Checked
import Xernel.Lib.Rotation
import Xernel.Lib.Ring
import Xernel.Lib.Growth
import Xernel.Word
import Xernel.Mm.Frame
import Xernel.Mm.FrameTheorems
import Xernel.Mm.Available
import Xernel.Cap
import Xernel.CapTheorems
import Xernel.Arch.Paging
import Xernel.Arch.PagingTheorems
import Xernel.Arch.Keyboard
import Xernel.Elf
import Xernel.Process
import Xernel.ProcessTheorems
import Xernel.RoundRobin
import Xernel.Arch.Leaves
import Xernel.SpaceTheorems
import Xernel.Syscall
import Xernel.UserBuffer
import Xernel.System
import Xernel.Core
import Xernel.CoreTheorems
import Xernel.Holdings
import Xernel.Memory
import Xernel.Spaces
import Xernel.ElfTheorems
import Xernel.FrameCaps
import Xernel.FrameUse
import Xernel.Isolation
import Xernel.DeviceMemory
import Xernel.Coherence
import Xernel.Flags
import Xernel.Windows
import Xernel.Mappings
import Xernel.Table
import Xernel.Delivery
import Xernel.Finality
import Xernel.Ending
import Xernel.ExitCodes
import Xernel.Derivation
import Xernel.Budget
import Xernel.Heap
import Xernel.Userland.Fs
import Xernel.Userland.FsTheorems
import Xernel.Userland.FsRuns
import Xernel.Userland.Net
import Xernel.Userland.Service
import Xernel.Userland.NetTheorems
import Xernel.Userland.ServiceTheorems
import Xernel.Userland.Virtio
import Xernel.Userland.VirtioTheorems
import Xernel.Userland.Postings
import Xernel.Userland.Rings
import Xernel.Userland.Answers
import Xernel.Userland.Files
import Xernel.Userland.Streams
import Xernel.Userland.Ready
import Xernel.Userland.Clients
import Xernel.Ports
import Xernel.Receive
import Xernel.Refund
import Xernel.Arch.Demand
import Xernel.Break
import Xernel.Log
import Xernel.Sbrk
import Xernel.Dma
import Xernel.MapFrame
import Xernel.Spawn
import Xernel.Image
import Xernel.UpperHalf
import Xernel.FreeFrames
import Xernel.Fairness
import Xernel.Environment
import Xernel.Lib.Circular
import Xernel.Arch.KeyboardTheorems
import Xernel.Writes
import Xernel.Integrity
import Xernel.Authority
import Xernel.Sharing
import Xernel.Permissions
import Xernel.Blind
import Xernel.Secrecy
import Xernel.Panics
import Xernel.Lib.OnesComplement
import Xernel.Userland.Checksum
import Xernel.Userland.Reception
import Xernel.Lib.Serial
import Xernel.Userland.Segments
import Xernel.Userland.Handshake
import Xernel.Lib.Reassembly
import Xernel.Userland.Peer
import Xernel.Userland.Outgoing
