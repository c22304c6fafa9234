import Rel4.Proof.Stall
import Rel4.Proof.Handoff
import Rel4.Proof.Timers
import Rel4.Proof.Tasks
import Rel4.Proof.BootPool
import Rel4.Proof.Lifetimes
import Rel4.Proof.Park
import Rel4.Proof.Rpc
import Rel4.Proof.HostSlots
import Rel4.Proof.HostFamily
import Rel4.Proof.Derivation
import Rel4.Proof.Ports
import Rel4.Proof.Lookup
import Rel4.Proof.Badged
import Rel4.Proof.TableUnmap
import Rel4.Proof.IpcBuffer
import Rel4.Proof.Console
import Rel4.Proof.ReplyRecv
import Rel4.Proof.Registers
import Rel4.Proof.Fpu
import Rel4.Proof.ResolvePath
import Rel4.Proof.Stack
import Rel4.Proof.LoadElf
import Rel4.Proof.FileCalls
import Rel4.Proof.Lists
import Rel4.Proof.Packed
import Rel4.Proof.Devices
