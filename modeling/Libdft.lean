import Libdft.Base.Word
import Libdft.Syscall.Context
import Libdft.Syscall.Enter
import Libdft.Syscall.Exit
import Libdft.Syscall.Handshake
import Libdft.Thread.Machine
import Libdft.Thread.World
import Libdft.Thread.Isolation
import Libdft.Thread.Sentinel
import Libdft.Thread.Safety
import Libdft.Thread.Tls
import Libdft.Thread.Protocol
import Libdft.Thread.Commute
import Libdft.Ins.Desc
import Libdft.Ins.Trace
import Libdft.Vcpu.RegIndex
import Libdft.Tool.Exception
import Libdft.Tool.Init
